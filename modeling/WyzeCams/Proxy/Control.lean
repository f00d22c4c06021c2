import WyzeCams.Lib.JsonString
import WyzeCams.Lib.PlainObject
import WyzeCams.Proxy.Body

/-! `POST /api/camera/control` of `cam-frontend/server.js`, down to the request that a command makes
of the cloud. -/
namespace WyzeCams.Control
open Json Utf16 Body
variable {ν : Type}

-- `src/index.js`.

structure CloudRequest (ν : Type) where
  url : String
  data : Value ν

def text (s : String) : Value ν := .str (js s)

def setProperty (deviceMac deviceModel : Value ν) (propertyId : String) (propertyValue : Value ν) :
    CloudRequest ν :=
  ⟨"app/v2/device/set_property",
    .obj [(js "device_mac", deviceMac), (js "device_model", deviceModel),
      (js "pid", text propertyId), (js "pvalue", propertyValue)]⟩

def runAction (deviceMac deviceModel : Value ν) (actionKey : String) : CloudRequest ν :=
  ⟨"app/v2/auto/run_action",
    .obj [(js "instance_id", deviceMac), (js "provider_key", deviceModel),
      (js "action_key", text actionKey), (js "action_params", .obj []),
      (js "custom_string", text "")]⟩

inductive Method where
  | cameraFloodLightOn | cameraFloodLightOff
  | cameraSirenOn | cameraSirenOff
  | cameraMotionOn | cameraMotionOff
  | cameraMotionRecordingOn | cameraMotionRecordingOff
  | cameraNotificationsOn | cameraNotificationsOff
  | cameraTurnOn | cameraTurnOff
  deriving DecidableEq, Repr

section Methods
variable (fmt : NumberFormat ν) (mac model : Value ν)

def cameraFloodLightOn : CloudRequest ν := setProperty mac model "P1056" (text "1")
def cameraFloodLightOff : CloudRequest ν := setProperty mac model "P1056" (text "2")
def cameraSirenOn : CloudRequest ν := runAction mac model "siren_on"
def cameraSirenOff : CloudRequest ν := runAction mac model "siren_off"
def cameraMotionOn : CloudRequest ν := setProperty mac model "P1001" (.num (fmt.read ['1']))
def cameraMotionOff : CloudRequest ν := setProperty mac model "P1001" (.num (fmt.read ['0']))
def cameraMotionRecordingOn : CloudRequest ν := setProperty mac model "P1047" (text "1")
def cameraMotionRecordingOff : CloudRequest ν := setProperty mac model "P1047" (text "0")
def cameraNotificationsOn : CloudRequest ν := setProperty mac model "P1" (text "1")
def cameraNotificationsOff : CloudRequest ν := setProperty mac model "P1" (text "0")
def cameraTurnOn : CloudRequest ν := runAction mac model "power_on"
def cameraTurnOff : CloudRequest ν := runAction mac model "power_off"

/-- `wyze[method](mac, productModel)`. -/
def perform : Method → CloudRequest ν
  | .cameraFloodLightOn => cameraFloodLightOn mac model
  | .cameraFloodLightOff => cameraFloodLightOff mac model
  | .cameraSirenOn => cameraSirenOn mac model
  | .cameraSirenOff => cameraSirenOff mac model
  | .cameraMotionOn => cameraMotionOn fmt mac model
  | .cameraMotionOff => cameraMotionOff fmt mac model
  | .cameraMotionRecordingOn => cameraMotionRecordingOn mac model
  | .cameraMotionRecordingOff => cameraMotionRecordingOff mac model
  | .cameraNotificationsOn => cameraNotificationsOn mac model
  | .cameraNotificationsOff => cameraNotificationsOff mac model
  | .cameraTurnOn => cameraTurnOn mac model
  | .cameraTurnOff => cameraTurnOff mac model

end Methods

-- `server.js`.

def CAMERA_ACTIONS : List (String × Method) :=
  [("floodlight_on", .cameraFloodLightOn), ("floodlight_off", .cameraFloodLightOff),
    ("siren_on", .cameraSirenOn), ("siren_off", .cameraSirenOff),
    ("motion_on", .cameraMotionOn), ("motion_off", .cameraMotionOff),
    ("recording_on", .cameraMotionRecordingOn), ("recording_off", .cameraMotionRecordingOff),
    ("notifications_on", .cameraNotificationsOn), ("notifications_off", .cameraNotificationsOff),
    ("power_on", .cameraTurnOn), ("power_off", .cameraTurnOff)]

def APP_ONLY_ACTIONS : List String := ["spotlight_on", "spotlight_off"]

/-- What `CAMERA_ACTIONS` inherits from `Object.prototype`. -/
def inherited : List String :=
  ["constructor", "__defineGetter__", "__defineSetter__", "hasOwnProperty", "__lookupGetter__",
    "__lookupSetter__", "isPrototypeOf", "propertyIsEnumerable", "toString", "valueOf", "__proto__",
    "toLocaleString"]

/-- What `CAMERA_ACTIONS[action]` is. Nothing that is inherited names a method of `wyze`. -/
inductive Found where
  | own (method : Method)
  | inherited
  | missing
  deriving DecidableEq, Repr

def find (name : JsString) : Found :=
  match CAMERA_ACTIONS.find? fun e => js e.1 = name with
  | some e => .own e.2
  | none => if inherited.any fun n => js n = name then .inherited else .missing

inductive Reply (ν : Type) where
  | ok (action : Value ν)
  | error (status : Nat) (text : JsString)

def Reply.isOk : Reply ν → Bool
  | .ok _ => true
  | .error _ _ => false

structure Engine (ν : Type) where
  fmt : NumberFormat ν
  nums : NumberText ν
  isZero : ν → Bool
  nullBody : JsString
  unconvertible : JsString
  notCallable : JsString

/-- How `maybeLogin` and a request of the cloud end: with the message of a rejection, or well. -/
structure Surroundings (ν : Type) extends Engine ν where
  maybeLogin : Option JsString
  request : CloudRequest ν → Option JsString

variable (s : Surroundings ν)

def given (body : Value ν) (name : String) : Option (Value ν) :=
  (PlainObject.optional (some body) (js name)).filter fun v => truthy s.isZero (some v)

def isAppOnly : Value ν → Bool
  | .str t => APP_ONLY_ACTIONS.any fun a => js a = t
  | _ => false

/-- The handler once it has what it needs: the requests that it makes, and its answer. -/
def command (mac productModel action : Value ν) : List (CloudRequest ν) × Reply ν :=
  if isAppOnly action then
    ([], .error 501 (js ("Spotlight can't be controlled over the web on this camera — use the Wyze " ++
      "app. The Wyze Cam v4 spotlight is only reachable over the camera's live connection.")))
  else
    match toStr s.nums action with
    | none => ([], .error 500 s.unconvertible)
    | some name =>
      match find name with
      | .missing => ([], .error 400 (js "Unknown action: " ++ name))
      | .inherited =>
        match s.maybeLogin with
        | some message => ([], .error 500 message)
        | none => ([], .error 502 (name ++ js " failed: " ++ s.notCallable))
      | .own method =>
        match s.maybeLogin with
        | some message => ([], .error 500 message)
        | none =>
          let r := perform s.fmt mac productModel method
          match s.request r with
          | none => ([r], .ok action)
          | some message => ([r], .error 502 (name ++ js " failed: " ++ message))

/-- The handler behind `readJsonBody`. -/
def control (body : Value ν) : List (CloudRequest ν) × Reply ν :=
  if isNull body then ([], .error 500 s.nullBody)
  else
    match given s body "mac", given s body "productModel", given s body "action" with
    | some mac, some productModel, some action => command s mac productModel action
    | _, _, _ => ([], .error 400 (js "Missing mac, productModel, or action"))

/-- What is done for a request with this body; `none` while it has not ended. -/
def serve (events : List Event) : Option (List (CloudRequest ν) × Reply ν) :=
  (CamFrontend.readJsonBody s.fmt events).map fun
    | .resolved body => control s body
    | .rejected message => ([], .error 500 (js message))

/-- The body asks for this request: it names a camera, and an action as a string or with arrays
around it. -/
def Asks (body : Value ν) (r : CloudRequest ν) : Prop :=
  ∃ mac productModel action, given s body "mac" = some mac ∧
    given s body "productModel" = some productModel ∧ given s body "action" = some action ∧
    ∃ e ∈ CAMERA_ACTIONS, Wraps (js e.1) action ∧ r = perform s.fmt mac productModel e.2

variable {s} {mac productModel action body : Value ν} {e : String × Method}

theorem find_of_mem (he : e ∈ CAMERA_ACTIONS) : find (js e.1) = .own e.2 := by
  have hall : CAMERA_ACTIONS.all (fun e => find (js e.1) = .own e.2) = true := by decide +kernel
  exact of_decide_eq_true (List.all_eq_true.mp hall e he)

theorem of_find {name : JsString} {method : Method} (h : find name = .own method) :
    ∃ e ∈ CAMERA_ACTIONS, js e.1 = name ∧ e.2 = method := by
  rw [find] at h
  generalize CAMERA_ACTIONS = actions at h ⊢
  cases hfind : actions.find? fun e => decide (js e.1 = name) with
  | some e =>
    rw [hfind] at h
    have hkey := List.find?_some hfind
    exact ⟨e, List.mem_of_find?_eq_some hfind, of_decide_eq_true hkey, Found.own.inj h⟩
  | none =>
    rw [hfind] at h
    dsimp only at h
    split_ifs at h

/-- No other value is written like an action. -/
theorem plain_of_mem (he : e ∈ CAMERA_ACTIONS) : Plain s.nums (js e.1) := by
  have hall : CAMERA_ACTIONS.all (fun e => js e.1 ≠ [] ∧ (ofText [',']).all (fun u => u ∉ js e.1) ∧
      js e.1 ≠ ofText "null".toList ∧ js e.1 ≠ ofText "true".toList ∧
      js e.1 ≠ ofText "false".toList ∧ js e.1 ≠ ofText "[object Object]".toList ∧
      (js e.1).head?.all (fun u => 97 ≤ u.toNat)) = true := by decide +kernel
  obtain ⟨hne, hcomma, hnull, htrue, hfalse, hobject, hhead⟩ :=
    of_decide_eq_true (List.all_eq_true.mp hall e he)
  refine ⟨hne, fun u hu => of_decide_eq_true (List.all_eq_true.mp hcomma u hu), hnull,
    ⟨htrue, hfalse⟩, hobject, fun x hx => ?_⟩
  obtain ⟨u, r, htext, hlt⟩ := s.nums.head_lt x
  rw [← hx, htext] at hhead
  have hle : 97 ≤ u.toNat := of_decide_eq_true hhead
  omega

theorem isAppOnly_of_wraps (he : e ∈ CAMERA_ACTIONS) (h : Wraps (js e.1) action) :
    isAppOnly action = false := by
  cases h with
  | arr => rfl
  | str =>
    have hall : CAMERA_ACTIONS.all
        (fun e => (APP_ONLY_ACTIONS.any fun a => js a = js e.1) = false) = true := by
      decide +kernel
    exact of_decide_eq_true (List.all_eq_true.mp hall e he)

/-- Two entries under which the action is found perform the same method. -/
theorem method_unique (nums : NumberText ν) {e' : String × Method} (he : e ∈ CAMERA_ACTIONS)
    (he' : e' ∈ CAMERA_ACTIONS) (h : Wraps (js e.1) action) (h' : Wraps (js e'.1) action) :
    e'.2 = e.2 := by
  have hsome : some (js e'.1) = some (js e.1) := (h'.toStr nums).symm.trans (h.toStr nums)
  have htext : js e'.1 = js e.1 := Option.some.inj hsome
  have hfind : find (js e'.1) = find (js e.1) := congrArg find htext
  rw [find_of_mem he, find_of_mem he'] at hfind
  exact Found.own.inj hfind

/-- The action is found under an entry, and the login has succeeded. -/
def Commands (s : Surroundings ν) (action : Value ν) : Prop :=
  s.maybeLogin = none ∧ ∃ e ∈ CAMERA_ACTIONS, Wraps (js e.1) action

theorem command_asked (mac productModel : Value ν) (he : e ∈ CAMERA_ACTIONS)
    (haction : Wraps (js e.1) action) (hlogin : s.maybeLogin = none) :
    (command s mac productModel action).1 = [perform s.fmt mac productModel e.2] ∧
      (command s mac productModel action).2.isOk =
        (s.request (perform s.fmt mac productModel e.2)).isNone := by
  rw [command, isAppOnly_of_wraps he haction, haction.toStr s.nums, if_neg Bool.false_ne_true]
  dsimp only
  rw [find_of_mem he, hlogin]
  dsimp only
  cases s.request (perform s.fmt mac productModel e.2) <;> exact ⟨rfl, rfl⟩

theorem command_refused (mac productModel : Value ν) (h : ¬ Commands s action) :
    (command s mac productModel action).1 = [] ∧
      (command s mac productModel action).2.isOk = false := by
  rw [command]
  split
  · exact ⟨rfl, rfl⟩
  · split
    · exact ⟨rfl, rfl⟩
    · next name hname =>
      split
      · exact ⟨rfl, rfl⟩
      · split <;> exact ⟨rfl, rfl⟩
      · next method hfind =>
        split
        · exact ⟨rfl, rfl⟩
        · next hlogin =>
          obtain ⟨e, he, rfl, -⟩ := of_find hfind
          exact absurd ⟨hlogin, e, he, (toStr_eq_iff (plain_of_mem he) action).mp hname⟩ h

/-- What a body has brought about: nothing, or the one request that it asks for. -/
inductive Done (s : Surroundings ν) (body : Value ν) : List (CloudRequest ν) → Reply ν → Prop
  | refused {reply : Reply ν} (h : ∀ r, Asks s body r → s.maybeLogin ≠ none)
      (hreply : reply.isOk = false) : Done s body [] reply
  | asked {r : CloudRequest ν} {reply : Reply ν} (hlogin : s.maybeLogin = none) (h : Asks s body r)
      (honly : ∀ r', Asks s body r' → r' = r) (hreply : reply.isOk = (s.request r).isNone) :
      Done s body [r] reply

theorem done_control (s : Surroundings ν) (body : Value ν) :
    Done s body (control s body).1 (control s body).2 := by
  rw [control]
  split
  · next hnull =>
    cases body with
    | null => exact .refused (fun r ⟨_, _, _, hmac, _⟩ => nomatch hmac) rfl
    | _ => cases hnull
  split
  · next mac productModel action hmac hmodel haction =>
    by_cases hcommands : Commands s action
    · obtain ⟨hlogin, e, he, hwraps⟩ := hcommands
      obtain ⟨hrequests, hreply⟩ := command_asked mac productModel he hwraps hlogin
      rw [hrequests]
      refine .asked hlogin ⟨mac, productModel, action, hmac, hmodel, haction, e, he,
        hwraps, rfl⟩ ?_ hreply
      rintro r' ⟨mac', model', action', hmac', hmodel', haction', e', he', hwraps', rfl⟩
      obtain rfl := Option.some.inj (hmac.symm.trans hmac')
      obtain rfl := Option.some.inj (hmodel.symm.trans hmodel')
      obtain rfl := Option.some.inj (haction.symm.trans haction')
      rw [method_unique s.nums he he' hwraps hwraps']
    · obtain ⟨hrequests, hreply⟩ := command_refused mac productModel hcommands
      rw [hrequests]
      refine .refused ?_ hreply
      rintro r ⟨mac', model', action', -, -, haction', e, he, hwraps, -⟩ hlogin
      obtain rfl := Option.some.inj (haction.symm.trans haction')
      exact hcommands ⟨hlogin, e, he, hwraps⟩
  · next hnot =>
    refine .refused ?_ rfl
    rintro r ⟨mac, productModel, action, hmac, hmodel, haction, -⟩
    exact absurd haction (hnot _ _ _ hmac hmodel)

/-- A request commands a camera exactly when its body asks for it and the login succeeds, it makes
one request of the cloud at most, and it is answered well exactly when that one is. -/
theorem commands_iff (s : Surroundings ν) {events : List Event} {requests : List (CloudRequest ν)}
    {reply : Reply ν} (h : serve s events = some (requests, reply)) :
    (∀ r, r ∈ requests ↔ s.maybeLogin = none ∧
      ∃ body, CamFrontend.readJsonBody s.fmt events = some (.resolved body) ∧ Asks s body r) ∧
    requests.length ≤ 1 ∧
    (reply.isOk = true ↔ ∃ r ∈ requests, s.request r = none) := by
  obtain ⟨outcome, hread, hserved⟩ := Option.map_eq_some_iff.mp h
  rw [hread]
  cases outcome with
  | rejected message =>
    cases hserved
    exact ⟨fun r => iff_of_false List.not_mem_nil (fun ⟨_, _, hbody, _⟩ => nomatch hbody),
      Nat.zero_le 1,
      iff_of_false Bool.false_ne_true fun ⟨_, hr, _⟩ => nomatch hr⟩
  | resolved body =>
    have hdone := done_control s body
    rw [show control s body = (requests, reply) from hserved] at hdone
    simp only [Option.some.injEq, Outcome.resolved.injEq, exists_eq_left']
    cases hdone with
    | refused hnot hreply =>
      exact ⟨fun r => iff_of_false List.not_mem_nil fun hasks => hnot r hasks.2 hasks.1,
        Nat.zero_le 1,
        iff_of_false (by simp [hreply]) fun ⟨_, hr, _⟩ => nomatch hr⟩
    | @asked r reply hlogin hasks honly hreply =>
      refine ⟨fun r' => ?_, Nat.le_refl 1, ?_⟩
      · rw [List.mem_singleton]
        exact ⟨fun hr => hr ▸ ⟨hlogin, hasks⟩, fun hr => honly r' hr.2⟩
      · simp [hreply]

/-- A body that a client has written, and that arrives whole. -/
theorem serve_stringify {chunks : List Utf8.Bytes} (hbody : Proper s.fmt body)
    (hchunks : chunks.flatten = Utf8.encode (stringify s.fmt [] body))
    (haligned : Utf8.Aligned chunks)
    (hfits : (ofText (stringify s.fmt [] body)).length ≤ 1000000) :
    serve s (arrives chunks) = some (control s body) := by
  have hparse := parse_stringify hbody spaces_nil
  have hne : stringify s.fmt [] body ≠ [] := by
    intro hnil
    rw [hnil] at hparse
    exact nomatch hparse
  rw [serve, CamFrontend.readJsonBody, readBody_arrives, Utf8.readChunks_aligned hchunks haligned,
    outcome_json hfits hne, hparse]
  rfl

def wrapped : Value Unit :=
  .obj [(js "mac", text "A"), (js "productModel", text "B"), (js "action", .arr [text "siren_on"])]

def evening : Surroundings Unit where
  fmt := noNumbers
  nums := ⟨fun _ => ofText "NaN".toList, fun _ => ⟨'N', ['a', 'N'], rfl, .inr (by decide)⟩⟩
  isZero _ := false
  nullBody := []
  unconvertible := []
  notCallable := []
  maybeLogin := none
  request _ := none

theorem commands_iff_wrapped :
    (∀ r, r ∈ (control evening wrapped).1 ↔ evening.maybeLogin = none ∧
      ∃ body, CamFrontend.readJsonBody evening.fmt
        (arrives [Utf8.encode (stringify noNumbers [] wrapped)]) =
        some (.resolved body) ∧ Asks evening body r) ∧
    (control evening wrapped).1.length ≤ 1 ∧
    ((control evening wrapped).2.isOk = true ↔
      ∃ r ∈ (control evening wrapped).1, evening.request r = none) := by
  refine commands_iff evening (serve_stringify ?_ (List.flatten_singleton ..) ?_ ?_)
  · exact ⟨by decide +kernel, trivial, trivial, ⟨trivial, trivial⟩, trivial⟩
  · exact List.forall_mem_singleton.mpr ⟨_, rfl⟩
  · decide +kernel

end WyzeCams.Control
