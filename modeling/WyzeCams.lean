import WyzeCams.Lib.Machine
import WyzeCams.Eufy.Live
import WyzeCams.Eufy.Ownership
import WyzeCams.Eufy.Snapshots
import WyzeCams.Eufy.Exclusion
import WyzeCams.Eufy.Waiting
import WyzeCams.Browser.Generation
import WyzeCams.Browser.Alerts
import WyzeCams.Browser.Delivery
import WyzeCams.Capture.StreamFrame
import WyzeCams.Capture.Rejections
import WyzeCams.Lib.Async.Prog
import WyzeCams.Lib.Async.Wp
import WyzeCams.Lib.Async.Exec
import WyzeCams.Lib.Async.Pool
import WyzeCams.Api.Value
import WyzeCams.Api.Client
import WyzeCams.Api.Answers
import WyzeCams.Api.Credentials
import WyzeCams.Api.Resend
import WyzeCams.Api.Unawaited
import WyzeCams.Api.Refresh
import WyzeCams.Eufy.Children
import WyzeCams.Eufy.Generations
import WyzeCams.Eufy.Handlers
import WyzeCams.Eufy.Orphans
import WyzeCams.Api.StreamInfo
import WyzeCams.Api.Classification
import WyzeCams.Lib.OrderedMap
import WyzeCams.Streams.StreamCache
import WyzeCams.Streams.CacheRefinement
import WyzeCams.Streams.Invalidation
import WyzeCams.Lib.Utf8
import WyzeCams.Lib.UnitOrder
import WyzeCams.Lib.Scalars
import WyzeCams.Lib.Separated
import WyzeCams.Signing.Olive
import WyzeCams.Lib.Async.Crowd
import WyzeCams.Api.Turns
import WyzeCams.Api.Debounce
import WyzeCams.Api.Freshness
import WyzeCams.Api.Reuse
import WyzeCams.Proxy.EufyStream
import WyzeCams.Browser.EufyStream
import WyzeCams.Lib.Json
import WyzeCams.Lib.JsonText
import WyzeCams.Lib.Base64
import WyzeCams.Lib.Uri
import WyzeCams.Signaling.Payload
import WyzeCams.Lib.Double
import WyzeCams.Eufy.AutoSnap
import WyzeCams.Eufy.AutoSnapTimers
import WyzeCams.Eufy.AutoSnapConfig
import WyzeCams.Capture.Snapshot
import WyzeCams.Eufy.Login
import WyzeCams.Api.Replay
import WyzeCams.Api.AllOrNothing
import WyzeCams.Api.Superseded
import WyzeCams.Api.AtRest
import WyzeCams.Lib.Utf8Chunks
import WyzeCams.Lib.JsonMembers
import WyzeCams.Lib.JsonRuns
import WyzeCams.Lib.IsoDate
import WyzeCams.Api.Backoff
import WyzeCams.Eufy.Challenge
import WyzeCams.Browser.Candidates
import WyzeCams.Signing.Canonical
import WyzeCams.Signing.Roku
import WyzeCams.Bulb.Cipher
import WyzeCams.Bulb.Command
import WyzeCams.Capture.Newest
import WyzeCams.Streams.Reconnect
import WyzeCams.Lib.JsonTorn
import WyzeCams.Proxy.Body
import WyzeCams.Streams.SignalingUrl
import WyzeCams.Api.DebounceWait
import WyzeCams.Lib.PlainObject
import WyzeCams.Vacuum.Info
import WyzeCams.Lib.Utf8Stream
import WyzeCams.Lib.EventStream
import WyzeCams.Eufy.Broadcast
import WyzeCams.Eufy.Thumbnails
import WyzeCams.Lib.UrlPath
import WyzeCams.Lib.Router
import WyzeCams.Proxy.Routes
import WyzeCams.Browser.EufyAuth
import WyzeCams.Lib.KeyOrder
import WyzeCams.Browser.Dashboard
import WyzeCams.Browser.DashboardSessions
import WyzeCams.Browser.DashboardOrder
import WyzeCams.Lib.UrlQuery
import WyzeCams.Proxy.Queries
import WyzeCams.Browser.Toggles
import WyzeCams.Lib.JsonRedact
import WyzeCams.Api.ResponseLog
