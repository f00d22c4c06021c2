import WyzeCams.Api.Answers

/-! `cameraGetStreamInfo` of `src/index.js`, which posts on its own and classifies the answer by
its own chain of tests. -/
namespace WyzeCams.Api
open Async

def deviceOfflineCode : String := "3019"

/-- `String(v) === s` for a text of digits. -/
def Value.isText : Value → String → Bool
  | str t, s => t == s
  | num n, s => toString n == s
  | arr [v], s => v.isText s
  | _, _ => false

/-- `v === n` for the missing property `name` of a value that must not be null. -/
def Value.hasNum (v : Value) (name : String) (n : Int) : Bool := (v.get name).isNum n

/-- `_isAccessTokenError` on a message that may be no text: `none` when it throws. -/
def isAccessTokenErrorOf (code errorMessage : Value) : Option Bool :=
  if code.isNum 2001 then some true
  else match errorMessage with
    | .str message => some (isAccessTokenError code message)
    | _ => none

def Value.text : Value → String
  | .str s => s
  | _ => ""

def streamParams (data : Value) : Method Value :=
  if data.isNullish then typeError "Cannot read properties of the response data"
  else match data.get "data" with
    | .arr [entry] =>
      if entry.isNullish then typeError "Cannot read properties of the entry"
      else
        let property := entry.get "property"
        if !property.truthy then
          fail [.text "Unexpected response from cameraGetStreamInfo: ", .value entry]
        else if !property.hasNum "iot-device::iot-state" 1 then
          fail [.text "Camera is offline: ", .value entry]
        else if !property.hasNum "iot-device::iot-power" 1 then
          fail [.text "Camera is off: ", .value entry]
        else return entry.get "params"
    | _ => fail [.text "Unexpected response from cameraGetStreamInfo: ", .value data]

/-- What `cameraGetStreamInfo` does with the body of an answer. -/
def streamInfoResponse (refreshToken : Method Unit) (data : Value) (body : Body) : Method Value :=
  let code := data.get "code"
  let errorMessage := ((data.get "msg").or (data.get "description")).or (.str "")
  if !code.isUndefined && !code.numberIsOne then
    match isAccessTokenErrorOf code errorMessage with
    | none => typeError "errorMessage.toLowerCase is not a function"
    | some true => do
      -- the result is dropped, and with it the text of its message
      let _ ← awaitCall (handleAccessTokenError refreshToken data errorMessage.text code body)
      fail [.text "Wyze access token error (", .value code, .text "): ", .value errorMessage,
        .text ". Token has been refreshed; retry the call."]
    | some false =>
      if isRateLimitError code errorMessage.text then
        fail [.text "Wyze API rate limited (", .value code, .text "): ", .value errorMessage]
      else if code.isText deviceOfflineCode then
        fail [.text "Camera is offline: ", .value data]
      else fail [.text "Wyze API Error (", .value code, .text ") - ", .value errorMessage]
  else streamParams data

def streamsUrl : String := "app/v4/camera/get-streams"

def streamPayload (deviceMac deviceModel : String) (substream : Bool) (now : Nat) : Value :=
  let parameters := Value.obj (("use_trickle", .bool true) ::
    if substream then [("sub_stream", .bool true)] else [])
  .obj [("device_list", .arr [.obj [("device_id", .str deviceMac),
      ("device_model", .str deviceModel), ("provider", .str "webrtc"),
      ("parameters", parameters)]]),
    ("nonce", .str (toString now))]

def cameraGetStreamInfo (cfg : Config) (fuel : Nat) (deviceMac deviceModel : String)
    (substream : Bool) : Method Value := do
  awaitCall (maybeLogin cfg fuel)
  let s ← Prog.get
  let body := Body.request s.access_token (streamPayload deviceMac deviceModel substream s.now)
  let result ← ask (.post streamsUrl body)
  match result with
  | .failed e => .raise e
  | .response headers data =>
    awaitCall (checkRateLimit headers)
    streamInfoResponse (refreshToken cfg fuel) data body

end WyzeCams.Api
