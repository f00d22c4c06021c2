import WyzeCams.Api.Value
import WyzeCams.Lib.Async.Prog

/-! Requests, logins and token refreshes of `src/index.js`. Every method is a program over the
fields of the API object that it reads and writes; it is suspended where the source awaits. -/
namespace WyzeCams.Api
open Async

/-- The answer of the server, as `_handleApiResponse` hands it on. A `retryAfter` of 0 counts as
none. -/
structure ApiError where
  retryAfter : Nat
  message : String
  code : Value

structure Response where
  ok : Bool
  data : Value
  error : Option ApiError

/-- What a POST carries besides the app's constants: a login carries the credentials, a refresh
the tokens, any other request the access token and the data of its caller, none of whom passes
an `access_token`. -/
inductive Body where
  | login
  | refresh (access_token refresh_token : Value)
  | request (access_token data : Value)

def Body.access_token : Body → Value
  | .login => .undefined
  | .refresh token _ => token
  | .request token _ => token

inductive Part where
  | text (s : String)
  | value (v : Value)
  | response (r : Response)
  | badRequest (code : Value) (message url : String) (body : Body)

structure Err where
  name : String
  message : List Part

def Err.shown (e : Err) : List Part := .text (e.name ++ ": ") :: e.message

structure Headers where
  remaining : Option Int
  resetBy : Option Int

inductive PostResult where
  | failed (e : Err)
  | response (headers : Headers) (data : Value)

/-- The operations that a method awaits. `tick` is the step between the end of a call and the
continuation of its caller. A read answers with what it has found in the file, which may have been
written since (`none` without a file or without JSON in it), a write with its error. -/
inductive Op where
  | post (url : String) (body : Body)
  | sleep (ms : Int)
  | readFile (path : String)
  | writeFile (path : String) (data : Value)
  | tick

def Op.Ans : Op → Type
  | .post _ _ => PostResult
  | .sleep _ => Unit
  | .readFile _ => Option Value
  | .writeFile _ _ => Option Err
  | .tick => Unit

/-- What the trace says besides: that the tokens of an answer were stored, how the refresh ended
for a POST whose access token was rejected, that a login began or failed, and that `maybeLogin`
starts one that it does not await. -/
inductive Mark where
  | issued
  | refreshed (body : Body)
  | refreshFailed (body : Body)
  | loginStarted
  | loginFailed
  | notAwaited

/-- The fields of the API object, the clock and the token file (`none` when it is missing or
cannot be parsed). -/
structure State where
  access_token : Value
  refresh_token : Value
  lastLoginAttempt : Nat
  loginAttemptDebounceMilliseconds : Nat
  now : Nat
  tokenFile : Option Value

def init (now : Nat) (tokenFile : Option Value) : State :=
  ⟨.str "", .str "", 0, 1000, now, tokenFile⟩

/-- The options that the methods read, and the outcome of `_tokenPersistPath()`. -/
structure Config where
  apiKey : Option String
  keyId : Option String
  tokenPath : Except Err String

abbrev sig : Sig := ⟨State, Op, Op.Ans, Err, Mark⟩

abbrev Method := Prog sig

def ask (op : Op) : Method op.Ans := @Prog.ask sig op

def sleep (ms : Int) : Method Unit := ask (.sleep ms)

def note (m : Mark) : Method Unit := Prog.note m

def fail {α : Type} (message : List Part) : Method α := .raise ⟨"Error", message⟩

def typeError {α : Type} (message : String) : Method α := .raise ⟨"TypeError", [.text message]⟩

/-- `await` of a call of an `async` method. -/
def awaitCall {α : Type} (p : Method α) : Method α := p.awaited .tick

def clearAccessToken : Method Unit := Prog.modify fun s => { s with access_token := .str "" }

def isInvalidCredentialsError (errorMessage : String) : Bool :=
  ["UserNameOrPasswordError", "UserIsLocked", "Invalid User Name or Password"].any fun msg =>
    includes (toLowerCase errorMessage) (toLowerCase msg)

def isRateLimitError (code : Value) (errorMessage : String) : Bool :=
  code.isNum 3044 ||
    (code.isNum 1000 && includes (toLowerCase errorMessage) "too many failed attempts".toList)

def isAccessTokenError (code : Value) (errorMessage : String) : Bool :=
  code.isNum 2001 ||
    includes (toLowerCase errorMessage) "accesstokenerror".toList ||
    includes (toLowerCase errorMessage) "access token is error".toList

def isBadRequestError (code : Value) : Bool := code.isNum 1001 || code.isNum 1004

def handleRateLimitError (data : Value) (errorMessage : String) (code : Value) :
    Method Response := do
  let s ← Prog.get
  let message := "Rate Limited - please wait before trying again. Error: " ++ errorMessage
  return ⟨false, data, some ⟨s.now + 600000, message, code⟩⟩

/-- `refreshToken` is passed in: the two call each other. -/
def handleAccessTokenError (refreshToken : Method Unit) (data : Value) (errorMessage : String)
    (code : Value) (body : Body) : Method Response := do
  clearAccessToken
  awaitCall (refreshToken.tryCatch fun err => do
    note (.refreshFailed body)
    fail (.text "Refresh Token could not be used to get a new access token. " :: err.shown))
  note (.refreshed body)
  let s ← Prog.get
  if s.access_token.truthy then
    let message :=
      "Access Token had expired and a new one was obtained. Please retry your request."
    return ⟨false, data, some ⟨s.now, message, code⟩⟩
  else
    let message :=
      "Access Token Error - please refresh your access token. Error: " ++ errorMessage
    return ⟨false, data, some ⟨0, message, code⟩⟩

def errorMessage (data : Value) : Value :=
  ((data.get "msg").or (data.get "description")).or (.str "Unknown Wyze API Error")

def handleApiResponse (refreshToken : Method Unit) (data : Value) (url : String) (body : Body) :
    Method Response :=
  if data.isNullish then typeError "Cannot destructure the response data"
  else
    let code := data.get "code"
    if !code.isUndefined && !code.numberIsOne then
      match errorMessage data with
      | .str message =>
        if isInvalidCredentialsError message then do
          clearAccessToken
          fail [.text "Invalid Credentials - please check your credentials & account before trying again. Error: ",
            .text message]
        else if isRateLimitError code message then handleRateLimitError data message code
        else if isAccessTokenError code message then
          awaitCall (handleAccessTokenError refreshToken data message code body)
        else if isBadRequestError code then
          fail [.text "Wyze API Bad Request: Check your request parameters - ",
            .badRequest code message url body]
        else fail [.text "Wyze API Error (", .value code, .text ") - ", .text message]
      | _ => typeError "errorMessage.toLowerCase is not a function"
    else return ⟨true, data, none⟩

def checkRateLimit (headers : Headers) : Method Unit :=
  match headers.remaining with
  | some remaining =>
    if remaining < 7 then do
      let s ← Prog.get
      -- without a reset time the delay is NaN, which the timer takes for the shortest
      sleep ((headers.resetBy.map fun t => t - (s.now : Int)).getD 1)
    else return ()
  | none => return ()

def performRequest (refreshToken : Method Unit) (url : String) (body : Body) : Method Response := do
  let result ← ask (.post url body)
  match result with
  | .failed e => .raise e
  | .response headers data =>
    awaitCall (checkRateLimit headers)
    handleApiResponse refreshToken data url body

variable (cfg : Config)

/-- The loop of `_persistTokens` with so many attempts left. -/
def writeAttempts (path : String) (data : Value) : Nat → Method Unit
  | 0 => return ()
  | left + 1 => do
    let error ← ask (.writeFile path data)
    match error with
    | none => Prog.modify fun s => { s with tokenFile := some data }
    | some e =>
      if left = 0 then fail (.text "Failed to persist tokens: " :: e.message)
      else do
        sleep 2000
        writeAttempts path data left

def persistTokens : Method Unit := do
  let s ← Prog.get
  let data := Value.obj [("access_token", s.access_token), ("refresh_token", s.refresh_token)]
  match cfg.tokenPath with
  | .error e => .raise e
  | .ok path => writeAttempts path data 2

def updateTokens (tokens : Value) : Method Unit :=
  Prog.tryCatch (do
    note .issued
    Prog.modify fun s => { s with
      access_token := tokens.get "access_token"
      refresh_token := tokens.get "refresh_token" }
    awaitCall (persistTokens cfg))
  fun e => fail (.text "Failed to update tokens: " :: e.message)

def loginUrl : String := "api/user/login"

def refreshUrl : String := "app/user/refresh_token"

def refreshAttempt (refreshToken : Method Unit) (body : Body) : Method Unit := do
  let result ← awaitCall (performRequest refreshToken refreshUrl body)
  if result.ok && (result.data.get "data").truthy then
    awaitCall (updateTokens cfg (result.data.get "data"))
  else fail [.text "Failed to refresh access token - ", .response result]

/-- The loop of `refreshToken` with so many attempts left. -/
def refreshAttempts (refreshToken : Method Unit) (body : Body) : Nat → Method Unit
  | 0 => return ()
  | left + 1 => (refreshAttempt cfg refreshToken body).tryCatch fun e =>
    if left = 0 then fail (.text "Token refresh failed: " :: e.message)
    else do
      sleep 2000
      refreshAttempts refreshToken body left

/-- `fuel` bounds how deep `refreshToken` calls itself through `_handleAccessTokenError`. -/
def refreshToken : Nat → Method Unit
  | 0 => .stuck
  | fuel + 1 => do
    let s ← Prog.get
    refreshAttempts cfg (refreshToken fuel) (.refresh s.access_token s.refresh_token) 2

def loginAttempt (fuel : Nat) : Method Unit :=
  match cfg.apiKey, cfg.keyId with
  | none, _ =>
    fail [.text "ApiKey Required, Please provide the \"apiKey\" parameter in config.json"]
  | _, none =>
    fail [.text "KeyId Required, Please provide the \"keyId\" parameter in config.json"]
  | some _, some _ => do
    let result ← awaitCall (performRequest (refreshToken cfg fuel) loginUrl .login)
    if result.ok && (result.data.get "access_token").truthy then
      awaitCall (updateTokens cfg result.data)
    else fail [.text "Invalid credentials, please check username/password, keyId/apiKey - ",
      .response result]

def login (fuel : Nat) : Method Unit := do
  note .loginStarted
  (loginAttempt cfg fuel).tryCatch fun e => do
    note .loginFailed
    .raise e

def loadPersistedTokens : Method Unit :=
  match cfg.tokenPath with
  | .error e => .raise e
  | .ok path => do
    let content ← ask (.readFile path)
    match (content : Option Value) with
    | some data =>
      if (data.get "access_token").truthy && (data.get "refresh_token").truthy then
        Prog.modify fun s => { s with
          access_token := data.get "access_token"
          refresh_token := data.get "refresh_token" }
      else return ()
    | none => return ()

def isDebounceCleared (s : State) (now : Nat) : Bool :=
  s.lastLoginAttempt + s.loginAttemptDebounceMilliseconds < now

def resetDebounceIfNeeded (now : Nat) : Method Unit := Prog.modify fun s =>
  if now - s.lastLoginAttempt > 12 * 60 * 60 * 1000 then
    { s with loginAttemptDebounceMilliseconds := 1000 }
  else s

def tryLogin (fuel now : Nat) : Method Unit := do
  Prog.modify fun s => { s with lastLoginAttempt := now }
  awaitCall (login cfg fuel)

/-- The loop of `waitForDebounceClearance`; other calls may lengthen it, so it takes fuel. -/
def waitForDebounceClearance : Nat → Nat → Method Unit
  | 0, _ => .stuck
  | fuel + 1, waitTime => do
    let s ← Prog.get
    if waitTime < s.loginAttemptDebounceMilliseconds then do
      sleep 2000
      let s ← Prog.get
      if s.access_token.truthy then return ()
      else waitForDebounceClearance fuel (waitTime + 2000)
    else return ()

def updateDebounceAndLogin (fuel now : Nat) : Method Unit := do
  Prog.modify fun s => { s with
    lastLoginAttempt := now
    loginAttemptDebounceMilliseconds :=
      min (s.loginAttemptDebounceMilliseconds * 2) (5 * 60 * 1000) }
  awaitCall (login cfg fuel)

/-- `maybeLogin` once it has found no token in the file. -/
def loginUnlessToken (fuel : Nat) : Method Unit := do
  let s ← Prog.get
  if s.access_token.truthy then return ()
  else if isDebounceCleared s s.now then do
    resetDebounceIfNeeded s.now
    awaitCall (tryLogin cfg fuel s.now)
  else do
    awaitCall (waitForDebounceClearance fuel 0)
    let s' ← Prog.get
    if s'.access_token.truthy then return ()
    else do
      note .notAwaited
      (updateDebounceAndLogin cfg fuel s.now).launch

def maybeLogin (fuel : Nat) : Method Unit := do
  let s ← Prog.get
  if s.access_token.truthy then return ()
  else do
    awaitCall (loadPersistedTokens cfg)
    loginUnlessToken cfg fuel

/-- `_performRequest(url, this.getRequestData(data))`. -/
def send (fuel : Nat) (url : String) (data : Value) : Method Response := do
  let s ← Prog.get
  awaitCall (performRequest (refreshToken cfg fuel) url (.request s.access_token data))

/-- The wait at the start of `_handleRetry`. -/
def waitUntil (retryAfter : Nat) : Method Unit := do
  let s ← Prog.get
  if s.now < retryAfter then sleep (retryAfter - s.now) else return ()

def handleRetry (fuel : Nat) (url : String) (data : Value) (error : ApiError) :
    Method Response := do
  waitUntil error.retryAfter
  awaitCall (maybeLogin cfg fuel)
  let response ← send cfg fuel url data
  if response.ok then return response
  else fail [.text "Error: ",
    .text ((response.error.map (·.message)).getD "Request Failed After Retry")]

def handleRequest (fuel : Nat) (url : String) (data : Value) : Method Response := do
  let response ← send cfg fuel url data
  if response.ok then return response
  else match response.error with
    | some error =>
      if error.retryAfter ≠ 0 then awaitCall (handleRetry cfg fuel url data error)
      else fail [.text "Request Failed: ", .text error.message]
    | none => fail [.text "Request Failed: ", .text "Unknown Error"]

def request (fuel : Nat) (url : String) (data : Value) : Method Response := do
  awaitCall (maybeLogin cfg fuel)
  awaitCall (handleRequest cfg fuel url data)

end WyzeCams.Api
