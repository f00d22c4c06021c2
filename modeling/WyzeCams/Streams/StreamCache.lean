import WyzeCams.Lib.Machine
import WyzeCams.Lib.OrderedMap

/-! The stream-info cache of `src/index.js`: one flat map under keys that are put together from
the camera's MAC, its model and the choice of stream. -/
namespace WyzeCams.StreamCache
open OrderedMap

/-- The options of `getCameraWebRTCConnectionInfo`; an absent or empty `clientId` is `none`. -/
structure Options where
  substream : Bool := false
  includeClientId : Bool := true
  clientId : Option String := none
  noCache : Bool := false
  cacheTtlMs : Int := 60000

/-- An entry of the cache; `β` is the type of the bundles made from the answers of
`cameraGetStreamInfo`. -/
structure Entry (β : Type) where
  bundle : β
  expiresAt : Int

structure Result (β : Type) where
  bundle : β
  mac : String
  model : String
  substream : Bool
  cached : Bool
  clientId : Option String
  deriving DecidableEq

/-- `_streamInfoCache`; the map that does not exist yet is the empty one. -/
abbrev Cache (β : Type) := Entries String (Entry β)

variable {β : Type}

def streamCacheKey (deviceMac deviceModel : String) (substream : Bool) : String :=
  deviceMac ++ ":" ++ deviceModel ++ ":" ++ (if substream then "sub" else "main")

def startsWith (text part : String) : Bool := part.toList.isPrefixOf text.toList

/-- The entry that a call finds in time, before its await. -/
def cachedBundle (cache : Cache β) (deviceMac deviceModel : String) (options : Options)
    (now : Int) : Option β :=
  if options.noCache then none
  else match get cache (streamCacheKey deviceMac deviceModel options.substream) with
    | some entry => if now < entry.expiresAt then some entry.bundle else none
    | none => none

/-- The bundle that was fetched is stored, after the await. -/
def storeBundle (cache : Cache β) (deviceMac deviceModel : String) (options : Options)
    (bundle : β) (now : Int) : Cache β :=
  if options.noCache then cache
  else set cache (streamCacheKey deviceMac deviceModel options.substream)
    ⟨bundle, now + options.cacheTtlMs⟩

/-- What a call returns; `newClientId` is what `createCameraStreamClientId` makes. -/
def connectionInfo (deviceMac deviceModel : String) (options : Options) (newClientId : String)
    (bundle : β) (cached : Bool) : Result β where
  bundle := bundle
  mac := deviceMac
  model := deviceModel
  substream := options.substream
  cached := cached
  clientId := if options.includeClientId then some (options.clientId.getD newClientId) else none

/-- A call of `clearCameraStreamCache`; without a MAC, or with an empty one, it clears all. -/
def clearCameraStreamCache (cache : Cache β) : Option String → Cache β
  | none => []
  | some deviceMac =>
    if deviceMac = "" then []
    else deleteWhere (fun key => startsWith key (deviceMac ++ ":")) cache

theorem startsWith_iff (text part : String) :
    startsWith text part = true ↔ part.toList <+: text.toList :=
  List.isPrefixOf_iff_prefix

theorem streamCacheKey_toList (deviceMac deviceModel : String) (substream : Bool) :
    (streamCacheKey deviceMac deviceModel substream).toList =
      deviceMac.toList ++ ':' :: (deviceModel.toList ++
        ':' :: (if substream then "sub" else "main").toList) := by
  rw [streamCacheKey]
  simp only [String.toList_append, List.append_assoc]
  rfl

theorem macPrefix_toList (deviceMac : String) :
    (deviceMac ++ ":").toList = deviceMac.toList ++ [':'] := by
  rw [String.toList_append]
  rfl

/-- The keys of a camera start with its MAC and a colon. -/
theorem startsWith_key (deviceMac deviceModel : String) (substream : Bool) :
    startsWith (streamCacheKey deviceMac deviceModel substream) (deviceMac ++ ":") = true := by
  rw [startsWith_iff, streamCacheKey_toList, macPrefix_toList]
  exact ⟨deviceModel.toList ++ ':' :: (if substream then "sub" else "main").toList, by simp⟩

theorem get_clear (cache : Cache β) {deviceMac : String} (hne : deviceMac ≠ "") (key : String) :
    get (clearCameraStreamCache cache (some deviceMac)) key =
      if startsWith key (deviceMac ++ ":") = true then none else get cache key := by
  rw [clearCameraStreamCache, if_neg hne, get_deleteWhere]

end WyzeCams.StreamCache
