import WyzeCams.Lib.PlainObject

/-! `getVacuumInfo` of `src/index.js`: the entry of a vacuum in the device list, and what five more
requests say of it. -/
namespace WyzeCams.Vacuum
open Json OrderedMap PlainObject Utf16
variable {ν : Type}

def vacuumModels : List JsString := [ofText ['J', 'A', '_', 'R', 'O', '2']]

def mac : JsString := ofText ['m', 'a', 'c']

def product_model : JsString :=
  ofText ['p', 'r', 'o', 'd', 'u', 'c', 't', '_', 'm', 'o', 'd', 'e', 'l']

def data : JsString := ofText ['d', 'a', 't', 'a']

def props : JsString := ofText ['p', 'r', 'o', 'p', 's']

def settings : JsString := ofText ['s', 'e', 't', 't', 'i', 'n', 'g', 's']

def eventFlag : JsString := ofText ['e', 'v', 'e', 'n', 't', 'F', 'l', 'a', 'g']

def heartBeat : JsString := ofText ['h', 'e', 'a', 'r', 't', 'B', 'e', 'a', 't']

def current_position : JsString :=
  ofText ['c', 'u', 'r', 'r', 'e', 'n', 't', '_', 'p', 'o', 's', 'i', 't', 'i', 'o', 'n']

def current_map : JsString :=
  ofText ['c', 'u', 'r', 'r', 'e', 'n', 't', '_', 'm', 'a', 'p']

/-- An entry of the device list: an object with these properties. -/
abbrev Device (ν : Type) := Entries JsString (Value ν)

def isText : Option (Value ν) → JsString → Bool
  | some (.str t), s => t == s
  | _, _ => false

def getVacuumDeviceList (devices : List (Device ν)) : List (Device ν) :=
  devices.filter fun d => vacuumModels.any (isText (get d product_model))

def getVacuum (devices : List (Device ν)) (m : JsString) : Option (Device ν) :=
  (getVacuumDeviceList devices).find? fun v => isText (get v mac) m

inductive SubFetch where
  | get_iot_prop
  | device_info
  | status
  | current_position
  | current_map

def SubFetch.label : SubFetch → String
  | get_iot_prop => "get_iot_prop"
  | device_info => "device_info"
  | status => "status"
  | current_position => "current_position"
  | current_map => "current_map"

/-- How a request ends: with the message of the `Error` that it throws, or with a reply. -/
abbrev Outcome (ν : Type) := Except JsString (Value ν)

/-- The code throws nothing of its own but this. -/
inductive Thrown where
  | typeError

abbrev Run := ExceptT Thrown (StateM (List JsString))

def warning (text : JsString) : Run Unit := modify fun log => log ++ [text]

def access (v : Option (Value ν)) (name : JsString) : Run (Option (Value ν)) :=
  match read v name with
  | some r => return r
  | none => throw .typeError

variable (isZero : ν → Bool)

/-- `await safe(label, fn)`, where `fn` is the request. -/
def safe (fetch : SubFetch → Outcome ν) (request : SubFetch) : Run (Value ν) :=
  match fetch request with
  | .ok reply => return reply
  | .error message => do
    warning (ofText ("getVacuumInfo: " ++ request.label ++ " failed: ").toList ++ message)
    return .null

/-- `if (reply?.data?.name) Object.assign(result, reply.data.name)`. -/
def mergeData (reply : Value ν) (name : JsString) (result : Obj ν) : Run (Obj ν) := do
  if truthy isZero (optional (optional (some reply) data) name) then
    let found ← access (some reply) data
    let source ← access found name
    return result.assign source
  else return result

/-- `if (reply?.data) result.name = reply.data`. -/
def keepData (reply : Value ν) (name : JsString) (result : Obj ν) : Run (Obj ν) := do
  if truthy isZero (optional (some reply) data) then
    let found ← access (some reply) data
    -- what is truthy is not `undefined`
    match found with
    | some v => return result.set name v
    | none => return result
  else return result

/-- `none` is the `null` for a mac that is no vacuum's. -/
def getVacuumInfo (devices : List (Device ν)) (fetch : SubFetch → Outcome ν) (m : JsString) :
    Run (Option (Obj ν)) :=
  match getVacuum devices m with
  | none => return none
  | some vacuum => do
    let result := spread vacuum
    let iotProp ← safe fetch .get_iot_prop
    let result ← mergeData isZero iotProp props result
    let deviceInfo ← safe fetch .device_info
    let result ← mergeData isZero deviceInfo settings result
    let status ← safe fetch .status
    let result ← mergeData isZero status eventFlag result
    let result ← mergeData isZero status heartBeat result
    let position ← safe fetch .current_position
    let result ← keepData isZero position current_position result
    let map ← safe fetch .current_map
    let result ← keepData isZero map current_map result
    return some result

def Yields {α : Type} (p : Run α) (a : α) (warnings : List JsString) : Prop :=
  ∀ log, p.run.run log = (.ok a, log ++ warnings)

theorem yields_pure {α : Type} (a : α) : Yields (pure a) a [] :=
  fun log => congrArg (Prod.mk _) (List.append_nil log).symm

theorem Yields.bind {α β : Type} {p : Run α} {a : α} {ws : List JsString} {f : α → Run β} {b : β}
    {ws' : List JsString} (hp : Yields p a ws) (hf : Yields (f a) b ws') :
    Yields (p >>= f) b (ws ++ ws') := by
  intro log
  rw [ExceptT.run_bind, StateT.run_bind, hp log, ← List.append_assoc]
  exact hf (log ++ ws)

/-- `reply?.data` of a request; a request that failed has none. -/
def dataOf (fetch : SubFetch → Outcome ν) (request : SubFetch) : Option (Value ν) :=
  match fetch request with
  | .ok reply => optional (some reply) data
  | .error _ => none

def kept (found : Option (Value ν)) (name : JsString) (result : Obj ν) : Obj ν :=
  match found with
  | some v => if truthy isZero (some v) then result.set name v else result
  | none => result

def combined (vacuum : Device ν) (fetch : SubFetch → Outcome ν) : Obj ν :=
  let result := (spread vacuum).assign (optional (dataOf fetch .get_iot_prop) props)
  let result := result.assign (optional (dataOf fetch .device_info) settings)
  let result := result.assign (optional (dataOf fetch .status) eventFlag)
  let result := result.assign (optional (dataOf fetch .status) heartBeat)
  let result := kept isZero (dataOf fetch .current_position) current_position result
  kept isZero (dataOf fetch .current_map) current_map result

def replyOf (fetch : SubFetch → Outcome ν) (request : SubFetch) : Value ν :=
  match fetch request with
  | .ok reply => reply
  | .error _ => .null

def warningsOf (fetch : SubFetch → Outcome ν) (request : SubFetch) : List JsString :=
  match fetch request with
  | .ok _ => []
  | .error message =>
    [ofText ("getVacuumInfo: " ++ request.label ++ " failed: ").toList ++ message]

theorem yields_safe (fetch : SubFetch → Outcome ν) (request : SubFetch) :
    Yields (safe fetch request) (replyOf fetch request) (warningsOf fetch request) := by
  rw [safe, replyOf, warningsOf]
  cases fetch request with
  | ok reply => exact yields_pure reply
  | error message => exact fun log => rfl

theorem optional_replyOf (fetch : SubFetch → Outcome ν) (request : SubFetch) :
    optional (some (replyOf fetch request)) data = dataOf fetch request := by
  rw [replyOf, dataOf]
  cases fetch request with
  | ok reply => rfl
  | error message => rfl

/-- What `?.` has found can be read without it. -/
theorem access_of_optional {v : Option (Value ν)} {name : JsString} {w : Value ν}
    (h : optional v name = some w) : access v name = pure (some w) := by
  have hread : read v name = some (some w) := by
    cases v with
    | none => cases h
    | some v =>
      cases v with
      | null => cases h
      | _ => exact congrArg some h
  rw [access, hread]

theorem exists_of_truthy {v : Option (Value ν)} (h : truthy isZero v = true) : ∃ w, v = some w := by
  cases v with
  | none => cases h
  | some w => exact ⟨w, rfl⟩

theorem mergeData_eq (reply : Value ν) (name : JsString) (result : Obj ν) :
    mergeData isZero reply name result =
      pure (result.assign (optional (optional (some reply) data) name)) := by
  rw [mergeData]
  by_cases htruthy : truthy isZero (optional (optional (some reply) data) name) = true
  · obtain ⟨source, hsource⟩ := exists_of_truthy isZero htruthy
    have hfound : ∃ d, optional (some reply) data = some d := by
      cases hd : optional (some reply) data with
      | none =>
        rw [hd] at hsource
        cases hsource
      | some d => exact ⟨d, rfl⟩
    obtain ⟨d, hd⟩ := hfound
    rw [if_pos htruthy, access_of_optional hd, pure_bind, ← hd, access_of_optional hsource,
      pure_bind, hsource]
  · rw [if_neg htruthy, assign_of_not_truthy (Bool.eq_false_iff.mpr htruthy)]

theorem keepData_eq (reply : Value ν) (name : JsString) (result : Obj ν) :
    keepData isZero reply name result =
      pure (kept isZero (optional (some reply) data) name result) := by
  rw [keepData]
  by_cases htruthy : truthy isZero (optional (some reply) data) = true
  · obtain ⟨d, hd⟩ := exists_of_truthy isZero htruthy
    rw [if_pos htruthy, access_of_optional hd, pure_bind, hd]
    rw [hd] at htruthy
    rw [kept, if_pos htruthy]
  · rw [if_neg htruthy]
    cases hd : optional (some reply) data with
    | none => rfl
    | some d =>
      rw [hd] at htruthy
      rw [kept, if_neg htruthy]

/-- Whatever the five requests come to, the code does not throw. -/
theorem yields_getVacuumInfo {devices : List (Device ν)} {m : JsString} {vacuum : Device ν}
    (h : getVacuum devices m = some vacuum) (fetch : SubFetch → Outcome ν) :
    Yields (getVacuumInfo isZero devices fetch m) (some (combined isZero vacuum fetch))
      (warningsOf fetch .get_iot_prop ++ (warningsOf fetch .device_info ++
        (warningsOf fetch .status ++ (warningsOf fetch .current_position ++
          (warningsOf fetch .current_map ++ []))))) := by
  rw [getVacuumInfo, h]
  simp only [mergeData_eq, keepData_eq, pure_bind]
  refine (yields_safe fetch .get_iot_prop).bind ((yields_safe fetch .device_info).bind
    ((yields_safe fetch .status).bind ((yields_safe fetch .current_position).bind
      ((yields_safe fetch .current_map).bind ?_))))
  simp only [optional_replyOf]
  exact yields_pure _

/-- The outcomes `fetch'` are those of `fetch`, but where a request has failed: it may have had a
reply without `data` instead. -/
def Spared (fetch fetch' : SubFetch → Outcome ν) : Prop :=
  ∀ request, fetch' request = fetch request ∨
    (∃ message, fetch request = .error message) ∧
      ∃ reply, fetch' request = .ok reply ∧ optional (some reply) data = none

theorem Spared.dataOf {fetch fetch' : SubFetch → Outcome ν} (h : Spared fetch fetch') :
    dataOf fetch' = dataOf fetch := by
  funext request
  rw [Vacuum.dataOf, Vacuum.dataOf]
  rcases h request with hsame | ⟨⟨message, hfailed⟩, reply, hreply, hnone⟩
  · rw [hsame]
  · rw [hfailed, hreply]
    exact hnone

theorem Spared.combined {fetch fetch' : SubFetch → Outcome ν} (h : Spared fetch fetch')
    (vacuum : Device ν) : combined isZero vacuum fetch' = combined isZero vacuum fetch := by
  rw [Vacuum.combined, h.dataOf]
  rfl

def sources (fetch : SubFetch → Outcome ν) : List (Option (Value ν)) :=
  [optional (dataOf fetch .status) heartBeat, optional (dataOf fetch .status) eventFlag,
    optional (dataOf fetch .device_info) settings, optional (dataOf fetch .get_iot_prop) props]

theorem get_kept {k name : JsString} (hproto : k ≠ protoKey) (hname : k ≠ name)
    (found : Option (Value ν)) (result : Obj ν) :
    get (kept isZero found name result).own k = get result.own k := by
  cases found with
  | none => rfl
  | some v =>
    rw [kept]
    split_ifs
    · rw [PlainObject.get_set hproto, if_neg hname]
    · rfl

/-- A property of the result is what the last source with this name says, or else the entry of the
list. -/
theorem get_combined {k : JsString} (hproto : k ≠ protoKey) (hposition : k ≠ current_position)
    (hmap : k ≠ current_map) (vacuum : Device ν) (fetch : SubFetch → Outcome ν) :
    get (combined isZero vacuum fetch).own k =
      ((sources fetch).findSome? fun source => optional source k).or (get vacuum k) := by
  rw [combined, get_kept isZero hproto hmap, get_kept isZero hproto hposition,
    get_assign hproto, get_assign hproto, get_assign hproto, get_assign hproto, sources, spread]
  simp only [List.findSome?_cons, List.findSome?_nil]
  cases optional (optional (dataOf fetch .status) heartBeat) k <;>
    cases optional (optional (dataOf fetch .status) eventFlag) k <;>
    cases optional (optional (dataOf fetch .device_info) settings) k <;>
    cases optional (optional (dataOf fetch .get_iot_prop) props) k <;> rfl

theorem getVacuum_of_mem {devices : List (Device ν)} {m : JsString} {d : Device ν}
    (hd : d ∈ devices) (hmodel : vacuumModels.any (isText (get d product_model)) = true)
    (hmac : isText (get d mac) m = true) : ∃ vacuum, getVacuum devices m = some vacuum := by
  apply Option.isSome_iff_exists.mp
  rw [getVacuum, List.find?_isSome]
  exact ⟨d, List.mem_filter.mpr ⟨hd, hmodel⟩, hmac⟩

/-- For a vacuum of the list the code does not throw, and a request that fails leaves out no more
than a reply without `data` would. The mac and the model are those of the entry, unless a reply that
is merged into it names them: then the last such reply wins. -/
theorem getVacuumInfo_tolerates {devices : List (Device ν)} {m : JsString} {d : Device ν}
    (hd : d ∈ devices) (hmodel : vacuumModels.any (isText (get d product_model)) = true)
    (hmac : isText (get d mac) m = true) (fetch : SubFetch → Outcome ν) :
    ∃ vacuum result warnings, getVacuum devices m = some vacuum ∧
      Yields (getVacuumInfo isZero devices fetch m) (some result) warnings ∧
      (∀ fetch', Spared fetch fetch' → ∃ warnings',
        Yields (getVacuumInfo isZero devices fetch' m) (some result) warnings') ∧
      ∀ k, k = mac ∨ k = product_model → get result.own k =
        ((sources fetch).findSome? fun source => optional source k).or (get vacuum k) := by
  obtain ⟨vacuum, hvacuum⟩ := getVacuum_of_mem hd hmodel hmac
  refine ⟨vacuum, combined isZero vacuum fetch, _, hvacuum,
    yields_getVacuumInfo isZero hvacuum fetch, fun fetch' hspared => ?_, ?_⟩
  · rw [← hspared.combined isZero vacuum]
    exact ⟨_, yields_getVacuumInfo isZero hvacuum fetch'⟩
  · rintro k (rfl | rfl)
    · exact get_combined isZero (by decide) (by decide) (by decide) vacuum fetch
    · exact get_combined isZero (by decide) (by decide) (by decide) vacuum fetch

def listEntry : Device Nat :=
  [(mac, .str (ofText ['M'])), (product_model, .str (ofText ['J', 'A', '_', 'R', 'O', '2']))]

def namesMac : SubFetch → Outcome Nat
  | .device_info => .ok (.obj [(data, .obj [(settings, .obj [(mac, .str (ofText ['N']))])])])
  | _ => .error []

theorem getVacuumInfo_tolerates_failures : ∃ vacuum result warnings,
    getVacuum [listEntry] (ofText ['M']) = some vacuum ∧
      Yields (getVacuumInfo (· == 0) [listEntry] namesMac (ofText ['M'])) (some result) warnings ∧
      get result.own product_model = get vacuum product_model := by
  obtain ⟨vacuum, result, warnings, hvacuum, hyields, -, hkeeps⟩ := getVacuumInfo_tolerates (· == 0)
    (List.mem_singleton_self listEntry) (m := ofText ['M']) rfl rfl namesMac
  exact ⟨vacuum, result, warnings, hvacuum, hyields, hkeeps product_model (.inr rfl)⟩

/-- The result has the mac of the reply. -/
theorem getVacuumInfo_other_mac : getVacuum [listEntry] (ofText ['M']) = some listEntry ∧
    ∃ result warnings,
      Yields (getVacuumInfo (· == 0) [listEntry] namesMac (ofText ['M'])) (some result) warnings ∧
        get result.own mac ≠ get listEntry mac := by
  refine ⟨rfl, _, _, yields_getVacuumInfo (· == 0) rfl namesMac, fun hsame => ?_⟩
  have hother : (Value.str (ofText ['N']) : Value Nat) = .str (ofText ['M']) :=
    Option.some.inj hsame
  exact absurd (Value.str.inj hother) (by decide)

end WyzeCams.Vacuum
