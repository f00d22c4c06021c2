import Mathlib.Data.List.Chain
import Mathlib.Data.List.Nodup
import WyzeCams.Lib.JsonWritten
import WyzeCams.Lib.Machine
import WyzeCams.Lib.Table
import WyzeCams.Proxy.Control

/-! The toggle buttons of `cam-frontend/public/viewer.html` with `StreamSession.control`, the server
behind them, and what the cloud has carried out of it. Buttons and requests are numbered in the
order of their creation. -/
namespace WyzeCams.Toggles
open EventMachine Json Utf16 Utf8 Control
variable {ν : Type}

inductive Toggle where
  | spot | siren | notify
  deriving DecidableEq, Repr

def Toggle.action : Toggle → Bool → String
  | .spot, true => "spotlight_on"
  | .spot, false => "spotlight_off"
  | .siren, true => "siren_on"
  | .siren, false => "siren_off"
  | .notify, true => "notifications_on"
  | .notify, false => "notifications_off"

structure Camera where
  mac : List Char
  productModel : List Char
  deriving DecidableEq, Repr

def Camera.toggles (c : Camera) : List Toggle :=
  if c.productModel = "HL_CAM4".toList then [.siren, .notify] else [.spot, .siren, .notify]

/-- `on` says that `dataset.state` is `"on"`, and `attached` that the tile is in the grid. While
`control` waits for the answer to a request the button is disabled. -/
structure Button where
  camera : Camera
  toggle : Toggle
  on : Bool
  attached : Bool
  request : Option Nat
  deriving DecidableEq, Repr

/-- A request of `control`. Once the server has served it, `answer` has the requests that were made
of the cloud for it, each with whether it ended well, and whether the server answers with 200. -/
structure Request (ν : Type) where
  button : Nat
  turningOn : Bool
  answer : Option (List (CloudRequest ν × Bool) × Bool)

structure State (ν : Type) where
  buttons : List Button
  requests : List (Request ν)

def init : State ν := ⟨[], []⟩

def buildGrid (s : State ν) (cameras : List Camera) : State ν :=
  { s with
    buttons := s.buttons.map (fun b => { b with attached := false }) ++
      cameras.flatMap fun c => c.toggles.map fun t => ⟨c, t, false, true, none⟩ }

def controlBody (c : Camera) (action : String) : Value ν :=
  .obj [(js "mac", .str (ofText c.mac)), (js "productModel", .str (ofText c.productModel)),
    (js "action", text action)]

/-- A click on a button that is not disabled, up to the request. -/
def click (s : State ν) (b : Nat) (button : Button) : State ν where
  buttons := s.buttons.set b { button with request := some s.requests.length }
  requests := s.requests ++ [⟨b, !button.on, none⟩]

/-- `control` when it returns, with the handler of the click behind it. -/
def returned (s : State ν) (b : Nat) (button : Button) (on : Bool) : State ν :=
  { s with buttons := s.buttons.set b { button with request := none, on := on } }

/-- `served` brings the body of a request to the server, in these chunks, and says how the login and
the requests of the cloud end there. `answered` brings its answer to the page, and `failed` is a
request of which the page does not get one that it can read. -/
inductive Event (ν : Type) where
  | built (cameras : List Camera)
  | clicked (b : Nat)
  | served (r : Nat) (chunks : List Bytes) (maybeLogin : Option JsString)
      (ends : CloudRequest ν → Option JsString)
  | answered (b : Nat)
  | failed (b : Nat)

def awaited (s : State ν) (button : Button) : Option (Request ν) :=
  button.request.bind fun r => s.requests[r]?

variable (engine : Engine ν)

def answer (button : Button) (turningOn : Bool) (chunks : List Bytes) (maybeLogin : Option JsString)
    (ends : CloudRequest ν → Option JsString) : Option (List (CloudRequest ν × Bool) × Bool) :=
  if chunks.flatten =
      encode (stringify engine.fmt []
        (controlBody button.camera (button.toggle.action turningOn))) then
    (serve { engine with maybeLogin := maybeLogin, request := ends } (Body.arrives chunks)).map
      fun p => (p.1.map fun r => (r, (ends r).isNone), p.2.isOk)
  else none

def step (s : State ν) : Event ν → Option (State ν)
  | .built cameras => some (buildGrid s cameras)
  | .clicked b =>
    s.buttons[b]?.bind fun button =>
      if button.attached ∧ button.request = none then some (click s b button) else none
  | .served r chunks maybeLogin ends =>
    s.requests[r]?.bind fun request =>
      s.buttons[request.button]?.bind fun button =>
        if request.answer.isNone then
          (answer engine button request.turningOn chunks maybeLogin ends).map fun a =>
            { s with requests := s.requests.set r { request with answer := some a } }
        else none
  | .answered b =>
    s.buttons[b]?.bind fun button =>
      (awaited s button).bind fun request =>
        request.answer.map fun a =>
          returned s b button (if a.2 then request.turningOn else button.on)
  | .failed b =>
    s.buttons[b]?.bind fun button =>
      if button.request.isSome then some (returned s b button button.on) else none

/-- A button hears that one of its requests has succeeded. -/
structure Success where
  button : Nat
  request : Nat
  on : Bool
  deriving DecidableEq, Repr

def confirmed (s : State ν) (b : Nat) : Option Success :=
  s.buttons[b]?.bind fun button => button.request.bind fun r => s.requests[r]?.bind fun request =>
    request.answer.bind fun a => if a.2 then some ⟨b, r, request.turningOn⟩ else none

/-- The successes that the buttons have heard of, in that order. -/
def note (w : List Success) (s : State ν) (e : Event ν) (_ : State ν) : List Success :=
  match e with
  | .answered b => w ++ (confirmed s b).toList
  | _ => w

def told (w : List Success) (b : Nat) : List Bool := (w.filter fun e => e.button = b).map Success.on

/-- A request of the cloud does what a button stands for; chunks that cut a character may have torn
what it names. -/
def Carries (button : Button) (on : Bool) (r : CloudRequest ν) : Prop :=
  ∃ torn torn' mac productModel method, Torn torn button.camera.mac mac ∧
    Torn torn' button.camera.productModel productModel ∧
    find (js (button.toggle.action on)) = .own method ∧
    r = perform engine.fmt (.str (ofText mac)) (.str (ofText productModel)) method

structure Served (button : Button) (on : Bool) (a : List (CloudRequest ν × Bool) × Bool) :
    Prop where
  carries : ∀ o ∈ a.1, Carries engine button on o.1
  once : a.1.length ≤ 1
  ok : a.2 = true ↔ ∃ r, (r, true) ∈ a.1

/-- Only the camera and the kind of the button matter. -/
theorem Served.kept {engine : Engine ν} {button button' : Button} {on : Bool}
    {a : List (CloudRequest ν × Bool) × Bool} (h : Served engine button on a)
    (hcamera : button'.camera = button.camera) (htoggle : button'.toggle = button.toggle) :
    Served engine button' on a := by
  refine ⟨fun o ho => ?_, h.once, h.ok⟩
  rw [Carries, hcamera, htoggle]
  exact h.carries o ho

variable {engine} {c : Camera} {action : String}

theorem stringify_controlBody (fmt : NumberFormat ν) (c : Camera) (action : String) :
    stringify fmt [] (controlBody c action) =
      ('\x7b' :: (quote (js "mac") ++ [':', '"'])) ++ (c.mac.flatMap quoteChar ++
        ('"' :: ',' :: (quote (js "productModel") ++ [':', '"']) ++
          (c.productModel.flatMap quoteChar ++ ('"' :: ',' :: (quote (js "action") ++ [':']) ++
            (quote (js action) ++ ('\x7d' :: [])))))) := by
  simp only [stringify, controlBody, text, write, writeMembers, newline, pad, if_true,
    List.append_assoc,
    List.cons_append, List.nil_append, quote, quoteBody_ofText]

/-- Chunks can tear what the body names, and nothing else of it. -/
theorem torn_controlBody {torn : Bool} {fmt : NumberFormat ν} {u : List Char}
    (haction : ∀ d ∈ quote (js action), d.toNat < 128)
    (h : Torn torn (stringify fmt [] (controlBody c action)) u) :
    ∃ b b' mac productModel, Torn b c.mac mac ∧ Torn b' c.productModel productModel ∧
      u = stringify fmt [] (controlBody ⟨mac, productModel⟩ action) := by
  have hfirst := ascii_of_all
    (by decide +kernel : ('\x7b' :: (quote (js "mac") ++ [':', '"'])).all (·.toNat < 128) = true)
  have hsecond := ascii_of_all
    (by decide +kernel : ('"' :: ',' :: (quote (js "productModel") ++ [':', '"'])).all
      (·.toNat < 128) = true)
  have hthird := ascii_of_all
    (by decide +kernel : ('"' :: ',' :: (quote (js "action") ++ [':'])).all (·.toNat < 128) = true)
  rw [stringify_controlBody] at h
  obtain ⟨u₁, rfl, h₁⟩ := torn_ascii hfirst h
  obtain ⟨mac, u₂, b, _, rfl, hmac, h₂⟩ := torn_quoted h₁
  obtain ⟨u₃, rfl, h₃⟩ := torn_ascii hsecond h₂
  obtain ⟨productModel, u₄, b', _, rfl, hmodel, h₄⟩ := torn_quoted h₃
  obtain ⟨u₅, rfl, h₅⟩ := torn_ascii hthird h₄
  obtain ⟨u₆, rfl, h₆⟩ := torn_ascii haction h₅
  obtain ⟨u₇, rfl, h₇⟩ := torn_ascii (t := ['\x7d']) (List.forall_mem_singleton.mpr (by decide)) h₆
  have hnil : u₇ = [] := (eq_nil_of_torn h₇).mp rfl
  refine ⟨b, b', mac, productModel, hmac, hmodel, ?_⟩
  rw [hnil, stringify_controlBody]
  rfl

theorem proper_controlBody (fmt : NumberFormat ν) (c : Camera) (action : String) :
    Proper fmt (controlBody c action) :=
  ⟨by
    have hkeys : [js "mac", js "productModel", js "action"].Nodup := by decide +kernel
    exact hkeys, trivial, trivial, trivial, trivial⟩

theorem asks_controlBody {s : Surroundings ν} {r : CloudRequest ν}
    (h : Asks s (controlBody c action) r) :
    ∃ method, find (js action) = .own method ∧
      r = perform s.fmt (.str (ofText c.mac)) (.str (ofText c.productModel)) method := by
  obtain ⟨mac, productModel, action', hmac, hmodel, haction, e, he, hwraps, rfl⟩ := h
  have hmember : ∀ {name : String} {v w : Value ν}, given s (controlBody c action) name = some v →
      PlainObject.optional (some (controlBody c action)) (js name) = some w → v = w := by
    intro name v w hv hw
    rw [given, hw] at hv
    exact (Option.some.inj (Option.filter_eq_some_iff.mp hv).1).symm
  obtain rfl := hmember hmac rfl
  obtain rfl := hmember hmodel rfl
  obtain rfl := hmember haction rfl
  have hkey : js e.1 = js action := hwraps.eq_of_str
  exact ⟨e.2, hkey ▸ find_of_mem he, rfl⟩

theorem action_ascii (t : Toggle) (on : Bool) : ∀ d ∈ quote (js (t.action on)), d.toNat < 128 := by
  cases t <;> cases on <;> exact ascii_of_all (by decide +kernel)

/-- The server reads a body of the page, with what it names torn at most. -/
theorem body_of_chunks {fmt : NumberFormat ν} {t : Toggle} {on : Bool} {chunks : List Bytes}
    {body : Value ν} (hchunks : chunks.flatten =
      encode (stringify fmt [] (controlBody c (t.action on))))
    (hread : Body.CamFrontend.readJsonBody fmt (Body.arrives chunks) = some (.resolved body)) :
    ∃ b b' mac productModel, Torn b c.mac mac ∧ Torn b' c.productModel productModel ∧
      body = controlBody ⟨mac, productModel⟩ (t.action on) := by
  obtain ⟨torn, htorn, -⟩ := torn_readChunks hchunks
  obtain ⟨b, b', mac, productModel, hmac, hmodel, htext⟩ :=
    torn_controlBody (action_ascii t on) htorn
  refine ⟨b, b', mac, productModel, hmac, hmodel, ?_⟩
  have hparse := parse_stringify
    (proper_controlBody fmt ⟨mac, productModel⟩ (t.action on)) spaces_nil
  rw [← htext] at hparse
  have hne : readChunks chunks ≠ [] := by
    intro hnil
    have hnone : parse fmt [] = none := rfl
    rw [hnil, hnone] at hparse
    cases hparse
  rw [Body.CamFrontend.readJsonBody, Body.readBody_arrives, Option.some_inj] at hread
  by_cases hlarge : 1000000 < (ofText (readChunks chunks)).length
  · rw [Body.outcome_large hlarge] at hread
    cases hread
  · rw [Body.outcome_json (Nat.not_lt.mp hlarge) hne, hparse] at hread
    exact (Body.Outcome.resolved.inj hread).symm

theorem served_of_answer {button : Button} {on : Bool} {chunks : List Bytes}
    {maybeLogin : Option JsString}
    {ends : CloudRequest ν → Option JsString} {a : List (CloudRequest ν × Bool) × Bool}
    (h : answer engine button on chunks maybeLogin ends = some a) : Served engine button on a := by
  rw [answer] at h
  split_ifs at h with hchunks
  obtain ⟨⟨requests, reply⟩, hserve, rfl⟩ := Option.map_eq_some_iff.mp h
  obtain ⟨hmem, hlength, hok⟩ := commands_iff _ hserve
  refine ⟨fun o ho => ?_, ?_, ?_⟩
  · obtain ⟨r, hr, rfl⟩ := List.mem_map.mp ho
    obtain ⟨-, body, hread, hasks⟩ := (hmem r).mp hr
    obtain ⟨b, b', mac, productModel, hmac, hmodel, rfl⟩ := body_of_chunks hchunks hread
    obtain ⟨method, hfind, hperform⟩ := asks_controlBody hasks
    exact ⟨b, b', mac, productModel, method, hmac, hmodel, hfind, hperform⟩
  · rw [List.length_map]
    exact hlength
  · rw [hok]
    simp [List.mem_map, Option.isNone_iff_eq_none]

variable {s t : State ν} {w : List Success} {b : Nat} {button : Button}

inductive Stepped (engine : Engine ν) (s : State ν) : Event ν → State ν → Prop
  | built (cameras : List Camera) : Stepped engine s (.built cameras) (buildGrid s cameras)
  | clicked {b : Nat} {button : Button} (hb : s.buttons[b]? = some button)
      (hfree : button.request = none) :
      Stepped engine s (.clicked b) (click s b button)
  | served {r : Nat} {request : Request ν} {button : Button} {chunks : List Bytes}
      {maybeLogin : Option JsString} {ends : CloudRequest ν → Option JsString}
      {a : List (CloudRequest ν × Bool) × Bool} (hr : s.requests[r]? = some request)
      (hb : s.buttons[request.button]? = some button) (hnone : request.answer = none)
      (ha : Served engine button request.turningOn a) :
      Stepped engine s (.served r chunks maybeLogin ends)
        { s with requests := s.requests.set r { request with answer := some a } }
  | answered {b r : Nat} {button : Button} {request : Request ν}
      {a : List (CloudRequest ν × Bool) × Bool} (hb : s.buttons[b]? = some button)
      (hwaits : button.request = some r) (hr : s.requests[r]? = some request)
      (ha : request.answer = some a) :
      Stepped engine s (.answered b)
        (returned s b button (if a.2 then request.turningOn else button.on))
  | failed {b : Nat} {button : Button} (hb : s.buttons[b]? = some button) :
      Stepped engine s (.failed b) (returned s b button button.on)

theorem stepped_of_step {e : Event ν} (h : step engine s e = some t) : Stepped engine s e t := by
  cases e with
  | built cameras =>
    cases h
    exact .built cameras
  | clicked b =>
    obtain ⟨button, hb, h⟩ := Option.bind_eq_some_iff.mp h
    obtain ⟨⟨-, hfree⟩, rfl⟩ := of_guard h
    exact .clicked hb hfree
  | served r chunks maybeLogin ends =>
    obtain ⟨request, hr, h⟩ := Option.bind_eq_some_iff.mp h
    obtain ⟨button, hb, h⟩ := Option.bind_eq_some_iff.mp h
    split_ifs at h with hnone
    obtain ⟨a, ha, rfl⟩ := Option.map_eq_some_iff.mp h
    exact .served hr hb (Option.isNone_iff_eq_none.mp hnone) (served_of_answer ha)
  | answered b =>
    obtain ⟨button, hb, h⟩ := Option.bind_eq_some_iff.mp h
    obtain ⟨request, hawaited, h⟩ := Option.bind_eq_some_iff.mp h
    obtain ⟨r, hwaits, hr⟩ := Option.bind_eq_some_iff.mp hawaited
    obtain ⟨a, ha, rfl⟩ := Option.map_eq_some_iff.mp h
    exact .answered hb hwaits hr ha
  | failed b =>
    obtain ⟨button, hb, h⟩ := Option.bind_eq_some_iff.mp h
    obtain ⟨-, rfl⟩ := of_guard h
    exact .failed hb

def Heard (requests : List (Request ν)) (e : Success) : Prop :=
  ∃ (request : Request ν) (outcomes : List (CloudRequest ν × Bool)),
    requests[e.request]? = some request ∧ request.button = e.button ∧ request.turningOn = e.on ∧
      request.answer = some (outcomes, true)

/-- A button that waits has a request of its own, of which it has heard nothing, for the direction
that it does not show; it shows the last direction that it has been told. -/
structure Inv (engine : Engine ν) (s : State ν) (w : List Success) : Prop where
  owner : ∀ {r : Nat} {request : Request ν}, s.requests[r]? = some request →
    request.button < s.buttons.length
  waits : ∀ {b r : Nat} {button : Button}, s.buttons[b]? = some button → button.request = some r →
    ∃ request : Request ν, s.requests[r]? = some request ∧ request.button = b ∧
      request.turningOn = !button.on
  unheard : ∀ {b r : Nat} {button : Button}, s.buttons[b]? = some button → button.request = some r →
    r ∉ w.map Success.request
  shows : ∀ {b : Nat} {button : Button}, s.buttons[b]? = some button →
    button.on = (told w b).getLastD false
  turns : ∀ b, (false :: told w b).IsChain (· ≠ ·)
  served : ∀ {r : Nat} {request : Request ν} {button : Button}
    {a : List (CloudRequest ν × Bool) × Bool},
    s.requests[r]? = some request → s.buttons[request.button]? = some button →
    request.answer = some a → Served engine button request.turningOn a
  heard : ∀ e ∈ w, Heard s.requests e
  once : (w.map Success.request).Nodup

theorem inv_init : Inv engine (init : State ν) [] :=
  ⟨nofun, nofun, nofun, nofun, fun _ => .singleton _, nofun, nofun, List.nodup_nil⟩

theorem mem_told {on : Bool} : on ∈ told w b ↔ ∃ e ∈ w, e.button = b ∧ e.on = on := by
  simp [told, and_assoc]

theorem told_concat (w : List Success) (e : Success) (b : Nat) :
    told (w ++ [e]) b = if e.button = b then told w b ++ [e.on] else told w b := by
  rw [told, List.filter_append]
  split_ifs with hb
  · simp [told, hb]
  · simp [told, hb]

/-- The requests that were heard of are old ones. -/
theorem Inv.old (h : Inv engine s w) {r : Nat} (hr : r ∈ w.map Success.request) :
    r < s.requests.length := by
  obtain ⟨e, he, rfl⟩ := List.mem_map.mp hr
  obtain ⟨request, outcomes, hrequest, -⟩ := h.heard e he
  exact (List.getElem?_eq_some_iff.mp hrequest).1

/-- A button that is not there yet has been told nothing. -/
theorem Inv.told_nil (h : Inv engine s w) (hb : s.buttons.length ≤ b) : told w b = [] := by
  rw [List.eq_nil_iff_forall_not_mem]
  intro on hon
  obtain ⟨e, he, rfl, -⟩ := mem_told.mp hon
  obtain ⟨request, -, hr, howner, -⟩ := h.heard e he
  exact absurd (h.owner hr) (Nat.not_lt.mpr (howner ▸ hb))

theorem buildGrid_buttons {cameras : List Camera}
    (h : (buildGrid s cameras).buttons[b]? = some button) :
    (∃ old, s.buttons[b]? = some old ∧ button = { old with attached := false }) ∨
      s.buttons.length ≤ b ∧ button.on = false ∧ button.request = none := by
  rw [buildGrid, List.getElem?_append, List.length_map] at h
  split_ifs at h with hb
  · rw [List.getElem?_map] at h
    obtain ⟨old, hold, rfl⟩ := Option.map_eq_some_iff.mp h
    exact .inl ⟨old, hold, rfl⟩
  · obtain ⟨c, -, hc⟩ := List.mem_flatMap.mp (List.mem_of_getElem? h)
    obtain ⟨t, -, rfl⟩ := List.mem_map.mp hc
    exact .inr ⟨Nat.not_lt.mp hb, rfl, rfl⟩

theorem Inv.built (h : Inv engine s w) (cameras : List Camera) :
    Inv engine (buildGrid s cameras) w := by
  refine ⟨fun hr => ?_, fun hb hwaits => ?_, fun hb hwaits => ?_, fun hb => ?_, h.turns,
    fun hr hb ha => ?_, h.heard, h.once⟩
  · rw [buildGrid, List.length_append, List.length_map]
    exact Nat.lt_of_lt_of_le (h.owner hr) (Nat.le_add_right _ _)
  · obtain ⟨old, hold, rfl⟩ | ⟨-, -, hnone⟩ := buildGrid_buttons hb
    · have hrequest := h.waits hold hwaits
      exact hrequest
    · exact absurd (hnone.symm.trans hwaits) (Option.some_ne_none _).symm
  · obtain ⟨old, hold, rfl⟩ | ⟨-, -, hnone⟩ := buildGrid_buttons hb
    · exact h.unheard hold hwaits
    · exact absurd (hnone.symm.trans hwaits) (Option.some_ne_none _).symm
  · obtain ⟨old, hold, rfl⟩ | ⟨hnew, hoff, -⟩ := buildGrid_buttons hb
    · have hshows := h.shows hold
      exact hshows
    · rw [h.told_nil hnew, hoff]
      rfl
  · obtain ⟨old, hold, rfl⟩ | ⟨hnew, -, -⟩ := buildGrid_buttons hb
    · exact (h.served hr hold ha).kept rfl rfl
    · exact absurd (h.owner hr) (Nat.not_lt.mpr hnew)

theorem Inv.clicked (h : Inv engine s w) (hb : s.buttons[b]? = some button) :
    Inv engine (click s b button) w := by
  refine ⟨fun hr => ?_, fun hb' hwaits => ?_, fun hb' hwaits => ?_, fun hb' => ?_, h.turns,
    fun hr hb' ha => ?_, fun e he => ?_, h.once⟩
  · rw [click, List.length_set]
    obtain hold | ⟨-, rfl⟩ := Table.getElem?_concat hr
    · exact h.owner hold
    · exact (List.getElem?_eq_some_iff.mp hb).1
  · obtain ⟨rfl, rfl⟩ | ⟨-, hold⟩ := Table.getElem?_replace hb'
    · obtain rfl : s.requests.length = _ := Option.some.inj hwaits
      exact ⟨_, List.getElem?_concat_length, rfl, rfl⟩
    · obtain ⟨request, hr, hrest⟩ := h.waits hold hwaits
      exact ⟨request, Table.getElem?_old hr, hrest⟩
  · obtain ⟨rfl, rfl⟩ | ⟨-, hold⟩ := Table.getElem?_replace hb'
    · obtain rfl : s.requests.length = _ := Option.some.inj hwaits
      exact fun hr => absurd (h.old hr) (Nat.lt_irrefl _)
    · exact h.unheard hold hwaits
  · obtain ⟨rfl, rfl⟩ | ⟨-, hold⟩ := Table.getElem?_replace hb'
    · have hshows := h.shows hb
      exact hshows
    · exact h.shows hold
  · obtain hold | ⟨-, rfl⟩ := Table.getElem?_concat hr
    · obtain ⟨hsame, rfl⟩ | ⟨-, hold'⟩ := Table.getElem?_replace hb'
      · have hserved := h.served hold (hsame ▸ hb) ha
        exact hserved.kept rfl rfl
      · exact h.served hold hold' ha
    · exact nomatch ha
  · obtain ⟨request, outcomes, hr, hrest⟩ := h.heard e he
    exact ⟨request, outcomes, Table.getElem?_old hr, hrest⟩

theorem Inv.replied (h : Inv engine s w) {r : Nat} {request : Request ν}
    {a : List (CloudRequest ν × Bool) × Bool} (hr : s.requests[r]? = some request)
    (hb : s.buttons[request.button]? = some button) (hnone : request.answer = none)
    (ha : Served engine button request.turningOn a) :
    Inv engine { s with requests := s.requests.set r { request with answer := some a } } w := by
  have hself : (s.requests.set r { request with answer := some a })[r]? =
      some { request with answer := some a } :=
    List.getElem?_set_self (List.getElem?_eq_some_iff.mp hr).1
  refine ⟨fun hr' => ?_, fun {b' r'} button' hb' hwaits => ?_, h.unheard, h.shows, h.turns,
    fun hr' hb' ha' => ?_, fun e he => ?_, h.once⟩
  · obtain ⟨-, rfl⟩ | ⟨-, hold⟩ := Table.getElem?_replace hr'
    · have howner := h.owner hr
      exact howner
    · exact h.owner hold
  · obtain ⟨request', hr', hrest⟩ := h.waits hb' hwaits
    by_cases hsame : r = r'
    · subst hsame
      obtain rfl := Option.some.inj (hr.symm.trans hr')
      exact ⟨{ request with answer := some a }, hself, hrest⟩
    · exact ⟨request', (List.getElem?_set_ne hsame).trans hr', hrest⟩
  · obtain ⟨-, rfl⟩ | ⟨-, hold⟩ := Table.getElem?_replace hr'
    · obtain rfl := Option.some.inj (hb.symm.trans hb')
      obtain rfl := Option.some.inj ha'
      exact ha
    · exact h.served hold hb' ha'
  · obtain ⟨request', outcomes, hr', howner, hdir, hanswer⟩ := h.heard e he
    by_cases hsame : r = e.request
    · obtain rfl := Option.some.inj (hr.symm.trans (hsame ▸ hr'))
      exact absurd (hnone.symm.trans hanswer) (Option.some_ne_none _).symm
    · exact ⟨request', outcomes, (List.getElem?_set_ne hsame).trans hr', howner, hdir, hanswer⟩

theorem Inv.returned (h : Inv engine s w) (hb : s.buttons[b]? = some button) {on : Bool}
    {w' : List Success} (hothers : ∀ b', b ≠ b' → told w' b' = told w b')
    (hunheard : ∀ {b' r : Nat} {button' : Button}, b ≠ b' → s.buttons[b']? = some button' →
      button'.request = some r → r ∉ w'.map Success.request)
    (hshows : on = (told w' b).getLastD false) (hturns : (false :: told w' b).IsChain (· ≠ ·))
    (hheard : ∀ e ∈ w', Heard s.requests e) (honce : (w'.map Success.request).Nodup) :
    Inv engine (returned s b button on) w' := by
  refine ⟨fun hr => ?_, fun hb' hwaits => ?_, fun hb' hwaits => ?_, fun hb' => ?_, fun b' => ?_,
    fun hr hb' ha => ?_, hheard, honce⟩
  · rw [Toggles.returned, List.length_set]
    exact h.owner hr
  · obtain ⟨rfl, rfl⟩ | ⟨-, hold⟩ := Table.getElem?_replace hb'
    · exact nomatch hwaits
    · exact h.waits hold hwaits
  · obtain ⟨rfl, rfl⟩ | ⟨hne, hold⟩ := Table.getElem?_replace hb'
    · exact nomatch hwaits
    · exact hunheard hne hold hwaits
  · obtain ⟨rfl, rfl⟩ | ⟨hne, hold⟩ := Table.getElem?_replace hb'
    · exact hshows
    · rw [hothers _ hne]
      exact h.shows hold
  · by_cases hsame : b = b'
    · exact hsame ▸ hturns
    · rw [hothers b' hsame]
      exact h.turns b'
  · obtain ⟨hsame, rfl⟩ | ⟨-, hold⟩ := Table.getElem?_replace hb'
    · have hserved := h.served hr (hsame ▸ hb) ha
      exact hserved.kept rfl rfl
    · exact h.served hr hold ha

theorem Inv.failed (h : Inv engine s w) (hb : s.buttons[b]? = some button) :
    Inv engine (Toggles.returned s b button button.on) w :=
  h.returned hb (fun _ _ => rfl) (fun _ => h.unheard) (h.shows hb) (h.turns b) h.heard h.once

/-- A success is for the direction that the button does not show, and of a request that nobody else
waits for. -/
theorem Inv.succeeded (h : Inv engine s w) (hb : s.buttons[b]? = some button) {r : Nat}
    {request : Request ν} {outcomes : List (CloudRequest ν × Bool)}
    (hwaits : button.request = some r)
    (hr : s.requests[r]? = some request) (ha : request.answer = some (outcomes, true)) :
    Inv engine (Toggles.returned s b button request.turningOn)
      (w ++ [⟨b, r, request.turningOn⟩]) := by
  obtain ⟨request', hr', howner, hdir⟩ := h.waits hb hwaits
  obtain rfl := Option.some.inj (hr.symm.trans hr')
  have hnew := h.unheard hb hwaits
  have hmap : (w ++ [(⟨b, r, request.turningOn⟩ : Success)]).map Success.request =
      w.map Success.request ++ [r] :=
    List.map_append
  refine h.returned hb (fun b' hne => ?_) (fun {b' r' button'} hne hb' hwaits' => ?_) ?_ ?_
    (fun e he => ?_) ?_
  · rw [told_concat, if_neg hne]
  · obtain ⟨request', hr', howner', -⟩ := h.waits hb' hwaits'
    rw [hmap, List.mem_append, List.mem_singleton, not_or]
    refine ⟨h.unheard hb' hwaits', fun hsame => ?_⟩
    obtain rfl := Option.some.inj (hr.symm.trans (hsame ▸ hr'))
    exact hne (howner.symm.trans howner')
  · rw [told_concat, if_pos rfl, List.getLastD_concat]
  · rw [told_concat, if_pos rfl, ← List.cons_append, List.isChain_append]
    refine ⟨h.turns b, .singleton _, fun x hx y hy => ?_⟩
    rw [List.getLast?_cons, ← List.getLastD_eq_getLast?, ← h.shows hb] at hx
    obtain rfl := Option.some.inj hx
    obtain rfl := Option.some.inj hy
    change button.on ≠ request.turningOn
    rw [hdir]
    cases button.on <;> decide
  · rcases List.mem_append.mp he with hold | hlast
    · exact h.heard e hold
    · rw [List.mem_singleton.mp hlast]
      exact ⟨request, outcomes, hr, howner, rfl, ha⟩
  · rw [hmap, List.nodup_append]
    refine ⟨h.once, List.nodup_singleton r, fun r' hr' r'' hr'' hsame => ?_⟩
    rw [List.mem_singleton.mp hr''] at hsame
    exact hnew (hsame ▸ hr')

theorem Inv.step (h : Inv engine s w) {e : Event ν} (hstep : step engine s e = some t) :
    Inv engine t (note w s e t) := by
  cases stepped_of_step hstep with
  | built cameras => exact h.built cameras
  | clicked hb _ => exact h.clicked hb
  | served hr hb hnone ha => exact h.replied hr hb hnone ha
  | failed hb => exact h.failed hb
  | @answered b r button request a hb hwaits hr ha =>
    have hconfirmed : confirmed s b = if a.2 then some ⟨b, r, request.turningOn⟩ else none := by
      rw [confirmed, hb, Option.bind_some, hwaits, Option.bind_some, hr, Option.bind_some, ha,
        Option.bind_some]
    rw [note, hconfirmed]
    obtain ⟨outcomes, ok⟩ := a
    cases ok with
    | true => exact h.succeeded hb hwaits hr ha
    | false =>
      change Inv engine (Toggles.returned s b button button.on) (w ++ [])
      rw [List.append_nil]
      exact h.failed hb

theorem inv_of_reachable_watch {s : State ν} {w : List Success}
    (h : Reachable (watch (step engine) note) (init, []) (s, w)) : Inv engine s w :=
  inv_of_watch (fun _ _ _ _ hinv hstep => hinv.step hstep) inv_init h

theorem find_spot (on : Bool) : find (js (Toggle.spot.action on)) = .missing := by
  cases on <;> decide +kernel

/-- The server refuses what the spotlight buttons ask for. -/
theorem Served.refused {on : Bool} {a : List (CloudRequest ν × Bool) × Bool}
    (h : Served engine button on a) (hspot : button.toggle = .spot) : a = ([], false) := by
  have hnone : a.1 = [] := by
    rw [List.eq_nil_iff_forall_not_mem]
    intro o ho
    obtain ⟨_, _, _, _, method, -, -, hfind, -⟩ := h.carries o ho
    rw [hspot, find_spot] at hfind
    exact nomatch hfind
  have hfalse : a.2 = false := by
    rw [Bool.eq_false_iff]
    intro htrue
    obtain ⟨r, hr⟩ := h.ok.mp htrue
    rw [hnone] at hr
    exact nomatch hr
  exact Prod.ext hnone hfalse

/-- In every run a button shows the last direction of which it has heard a success, and no two of
these that follow one another are the same. No request is heard of twice, and behind each success
the cloud has carried out one request, which is the button's own. -/
theorem shows_last_success (engine : Engine ν) {s : State ν} {w : List Success} {b : Nat}
    {button : Button} (h : Reachable (watch (step engine) note) (init, []) (s, w))
    (hb : s.buttons[b]? = some button) :
    button.on = (told w b).getLastD false ∧ (false :: told w b).IsChain (· ≠ ·) ∧
      (w.map Success.request).Nodup ∧
      ∀ e ∈ w, e.button = b → ∃ request, s.requests[e.request]? = some request ∧
        request.button = b ∧ request.turningOn = e.on ∧
        ∃ r, request.answer = some ([(r, true)], true) ∧ Carries engine button e.on r := by
  have hinv := inv_of_reachable_watch h
  refine ⟨hinv.shows hb, hinv.turns b, hinv.once, ?_⟩
  rintro e he rfl
  obtain ⟨request, outcomes, hr, howner, hdir, hanswer⟩ := hinv.heard e he
  have hserved := hinv.served hr (howner ▸ hb) hanswer
  obtain ⟨cloud, hcloud⟩ := hserved.ok.mp rfl
  obtain ⟨o, rfl⟩ := List.length_eq_one_iff.mp
    (Nat.le_antisymm hserved.once (List.length_pos_of_mem hcloud))
  obtain rfl := List.mem_singleton.mp hcloud
  exact ⟨request, hr, howner, hdir, cloud, hanswer,
    hdir ▸ hserved.carries _ (List.mem_singleton_self _)⟩

/-- In no run does a spotlight button reach the cloud, and it never shows that the light is on. -/
theorem spot_stays_off (engine : Engine ν) {s : State ν} {w : List Success} {b : Nat}
    {button : Button} (h : Reachable (watch (step engine) note) (init, []) (s, w))
    (hb : s.buttons[b]? = some button) (hspot : button.toggle = .spot) :
    button.on = false ∧
      ∀ request ∈ s.requests, request.button = b → ∀ a, request.answer = some a →
        a = ([], false) := by
  have hinv := inv_of_reachable_watch h
  have hrefused : ∀ request ∈ s.requests, request.button = b → ∀ a, request.answer = some a →
      a = ([], false) := by
    rintro request hmem rfl a ha
    obtain ⟨r, hr⟩ := List.getElem?_of_mem hmem
    exact (hinv.served hr hb ha).refused hspot
  refine ⟨?_, hrefused⟩
  have hnil : told w b = [] := by
    rw [List.eq_nil_iff_forall_not_mem]
    intro on hon
    obtain ⟨e, he, rfl, -⟩ := mem_told.mp hon
    obtain ⟨request, outcomes, hr, howner, -, hanswer⟩ := hinv.heard e he
    exact nomatch hrefused request (List.mem_of_getElem? hr) howner _ hanswer
  rw [hinv.shows hb, hnil]
  rfl

def porch : Camera := ⟨['A'], ['B']⟩

def whole (t : Toggle) (on : Bool) : List Bytes :=
  [encode (stringify Body.noNumbers [] (controlBody porch (t.action on)))]

def press (b r : Nat) (t : Toggle) (on : Bool) : List (Event Unit) :=
  [.clicked b, .served r (whole t on) none fun _ => none, .answered b]

def pressed : List (Event Unit) :=
  [.built [porch]] ++ press 1 0 .siren true ++ press 1 1 .siren false ++ press 1 2 .siren true ++
    press 0 3 .spot true

theorem serve_whole {t : Toggle} {on : Bool}
    (hfits : (ofText (stringify Body.noNumbers [] (controlBody porch (t.action on)))).length ≤
      1000000) :
    serve evening (Body.arrives (whole t on)) =
      some (command evening (.str (ofText ['A'])) (.str (ofText ['B']))
        (.str (js (t.action on)))) := by
  have hserve : serve evening (Body.arrives (whole t on)) =
      some (control evening (controlBody porch (t.action on))) :=
    serve_stringify (proper_controlBody _ _ _) (List.flatten_singleton ..)
      (List.forall_mem_singleton.mpr ⟨_, rfl⟩) hfits
  cases t <;> cases on <;> exact hserve

/-- What the server makes of a press. -/
theorem answer_whole {button : Button} {on : Bool} (hcamera : button.camera = porch)
    (hfits : (ofText (stringify Body.noNumbers []
      (controlBody porch (button.toggle.action on)))).length ≤
      1000000) :
    answer evening.toEngine button on (whole button.toggle on) none (fun _ => none) =
      some ((command evening (.str (ofText ['A'])) (.str (ofText ['B']))
          (.str (js (button.toggle.action on)))).1.map (fun r => (r, true)),
        (command evening (.str (ofText ['A'])) (.str (ofText ['B']))
          (.str (js (button.toggle.action on)))).2.isOk) := by
  have hevening : (⟨evening.toEngine, none, fun _ => none⟩ : Surroundings Unit) = evening := rfl
  rw [answer, hcamera, hevening, serve_whole hfits, Option.map_some]
  exact if_pos (List.flatten_singleton ..)

theorem answer_siren {button : Button} (on : Bool) (hcamera : button.camera = porch)
    (htoggle : button.toggle = .siren) :
    answer evening.toEngine button on (whole .siren on) none (fun _ => none) =
      some ([(perform Body.noNumbers (.str (ofText ['A'])) (.str (ofText ['B']))
        (if on then .cameraSirenOn else .cameraSirenOff), true)], true) := by
  have hasked : ∀ {e : String × Method}, e ∈ CAMERA_ACTIONS → _ := fun he =>
    command_asked (s := evening) (.str (ofText ['A'])) (.str (ofText ['B'])) he .str rfl
  rw [← htoggle, answer_whole hcamera (by rw [htoggle]; cases on <;> decide +kernel), htoggle]
  cases on with
  | true =>
    have hentry : ("siren_on", Method.cameraSirenOn) ∈ CAMERA_ACTIONS := by decide
    obtain ⟨hrequests, hreply⟩ := hasked hentry
    rw [Toggle.action, hrequests, hreply]
    rfl
  | false =>
    have hentry : ("siren_off", Method.cameraSirenOff) ∈ CAMERA_ACTIONS := by decide
    obtain ⟨hrequests, hreply⟩ := hasked hentry
    rw [Toggle.action, hrequests, hreply]
    rfl

theorem answer_spot {button : Button} (on : Bool) (hcamera : button.camera = porch)
    (htoggle : button.toggle = .spot) :
    answer evening.toEngine button on (whole .spot on) none (fun _ => none) = some ([], false) := by
  rw [← htoggle, answer_whole hcamera (by rw [htoggle]; cases on <;> decide +kernel), htoggle]
  have happ : isAppOnly (.str (js (Toggle.spot.action on)) : Value Unit) = true := by
    cases on <;> decide +kernel
  rw [command, if_pos happ]
  rfl

/-- The state after a click on a free button whose request has the answer `a`. -/
def waits (s : State Unit) (b : Nat) (button : Button) (on : Bool)
    (a : Option (List (CloudRequest Unit × Bool) × Bool)) : State Unit where
  buttons := s.buttons.set b { button with request := some s.requests.length }
  requests := s.requests ++ [⟨b, on, a⟩]

theorem waits_button {s : State Unit} {b : Nat} {button : Button} {on : Bool}
    {a : Option (List (CloudRequest Unit × Bool) × Bool)} (hb : s.buttons[b]? = some button) :
    (waits s b button on a).buttons[b]? =
      some { button with request := some s.requests.length } :=
  List.getElem?_set_self (List.getElem?_eq_some_iff.mp hb).1

theorem waits_request {s : State Unit} {b : Nat} {button : Button} {on : Bool}
    {a : Option (List (CloudRequest Unit × Bool) × Bool)} :
    (waits s b button on a).requests[s.requests.length]? = some ⟨b, on, a⟩ :=
  List.getElem?_concat_length

theorem step_clicked {s : State Unit} {b : Nat} {button : Button}
    (hb : s.buttons[b]? = some button) (hattached : button.attached = true)
    (hfree : button.request = none) :
    step evening.toEngine s (.clicked b) = some (waits s b button (!button.on) none) := by
  rw [step, hb, Option.bind_some, if_pos ⟨hattached, hfree⟩]
  rfl

theorem step_served {s : State Unit} {b : Nat} {button : Button} {on : Bool}
    {a : List (CloudRequest Unit × Bool) × Bool} (hb : s.buttons[b]? = some button)
    (ha : answer evening.toEngine button on (whole button.toggle on) none (fun _ => none) =
      some a) :
    step evening.toEngine (waits s b button on none)
      (.served s.requests.length (whole button.toggle on) none fun _ => none) =
      some (waits s b button on (some a)) := by
  have hanswer : answer evening.toEngine { button with request := some s.requests.length } on
      (whole button.toggle on) none (fun _ => none) = some a := ha
  rw [step, waits_request, Option.bind_some, waits_button hb, Option.bind_some, Option.isNone_none,
    if_pos rfl, hanswer, Option.map_some, waits, List.set_append_right _ _ (Nat.le_refl _),
    Nat.sub_self]
  rfl

theorem step_answered {s : State Unit} {b : Nat} {button : Button} {on : Bool}
    {a : List (CloudRequest Unit × Bool) × Bool} (hb : s.buttons[b]? = some button)
    (hfree : button.request = none) :
    step evening.toEngine (waits s b button on (some a)) (.answered b) =
      some ⟨s.buttons.set b { button with on := if a.2 then on else button.on },
        s.requests ++ [⟨b, on, some a⟩]⟩ := by
  have hfreed : ({ button with on := if a.2 then on else button.on } : Button) =
      { button with request := none, on := if a.2 then on else button.on } := by
    rw [← hfree]
  rw [step, waits_button hb, Option.bind_some, awaited, Option.bind_some, waits_request,
    Option.bind_some, Option.map_some, returned, waits, List.set_set, hfreed]

theorem note_answered {s t : State Unit} {w : List Success} {b : Nat} {button : Button} {on : Bool}
    {a : List (CloudRequest Unit × Bool) × Bool} (hb : s.buttons[b]? = some button) :
    note w (waits s b button on (some a)) (.answered b) t =
      w ++ if a.2 then [⟨b, s.requests.length, on⟩] else [] := by
  have hheard : confirmed (waits s b button on (some a)) b =
      if a.2 then some ⟨b, s.requests.length, on⟩ else none := by
    rw [confirmed, waits_button hb, Option.bind_some, Option.bind_some, waits_request,
      Option.bind_some, Option.bind_some]
  rw [note, hheard]
  split_ifs <;> rfl

/-- A press of a free button, with what the server makes of it. -/
theorem run_press {s : State Unit} {w : List Success} {b : Nat} {button : Button} {on : Bool}
    {a : List (CloudRequest Unit × Bool) × Bool} (hb : s.buttons[b]? = some button)
    (hattached : button.attached = true) (hfree : button.request = none) (hon : (!button.on) = on)
    (ha : answer evening.toEngine button on (whole button.toggle on) none (fun _ => none) =
      some a) :
    run (watch (step evening.toEngine) note) (s, w) (press b s.requests.length button.toggle on) =
      some (⟨s.buttons.set b { button with on := if a.2 then on else button.on },
          s.requests ++ [⟨b, on, some a⟩]⟩,
        w ++ if a.2 then [⟨b, s.requests.length, on⟩] else []) := by
  have hclicked : watch (step evening.toEngine) note (s, w) (.clicked b) =
      some (waits s b button on none, w) :=
    hon ▸ congrArg (Option.map _) (step_clicked hb hattached hfree)
  have hserved : watch (step evening.toEngine) note (waits s b button on none, w)
      (.served s.requests.length (whole button.toggle on) none fun _ => none) =
      some (waits s b button on (some a), w) :=
    congrArg (Option.map _) (step_served hb ha)
  have hanswered : watch (step evening.toEngine) note (waits s b button on (some a), w)
      (.answered b) = some (⟨s.buttons.set b { button with on := if a.2 then on else button.on },
        s.requests ++ [⟨b, on, some a⟩]⟩,
        w ++ if a.2 then [⟨b, s.requests.length, on⟩] else []) := by
    rw [watch, step_answered hb hfree, Option.map_some, note_answered hb]
  rw [press, run, hclicked, Option.bind_some, run, hserved, Option.bind_some, run, hanswered]
  rfl

def wailed (on : Bool) : List (CloudRequest Unit × Bool) × Bool :=
  ([(perform Body.noNumbers (.str (ofText ['A'])) (.str (ofText ['B']))
    (if on then .cameraSirenOn else .cameraSirenOff), true)], true)

def siren : Button := ⟨porch, .siren, true, true, none⟩

def spot : Button := ⟨porch, .spot, false, true, none⟩

def heard : State Unit where
  buttons := [spot, siren, ⟨porch, .notify, false, true, none⟩]
  requests := [⟨1, true, some (wailed true)⟩, ⟨1, false, some (wailed false)⟩,
    ⟨1, true, some (wailed true)⟩, ⟨0, true, some ([], false)⟩]

def successes : List Success := [⟨1, 0, true⟩, ⟨1, 1, false⟩, ⟨1, 2, true⟩]

def grid (on : Bool) : List Button :=
  [spot, { siren with on := on }, ⟨porch, .notify, false, true, none⟩]

theorem run_siren (on : Bool) (requests : List (Request Unit)) (w : List Success) :
    run (watch (step evening.toEngine) note) (⟨grid (!on), requests⟩, w)
      (press 1 requests.length .siren on) =
    some (⟨grid on, requests ++ [⟨1, on, some (wailed on)⟩]⟩, w ++ [⟨1, requests.length, on⟩]) := by
  have hb : (⟨grid (!on), requests⟩ : State Unit).buttons[1]? = some { siren with on := !on } := rfl
  have hpress := run_press (w := w) hb rfl rfl (Bool.not_not on) (answer_siren on rfl rfl)
  exact hpress

theorem run_spot (requests : List (Request Unit)) (w : List Success) :
    run (watch (step evening.toEngine) note) (⟨grid true, requests⟩, w)
      (press 0 requests.length .spot true) =
    some (⟨grid true, requests ++ [⟨0, true, some ([], false)⟩]⟩, w) := by
  have hb : (⟨grid true, requests⟩ : State Unit).buttons[0]? = some spot := rfl
  have hpress := run_press (w := w) hb rfl rfl rfl (answer_spot true rfl rfl)
  rw [if_neg Bool.false_ne_true, if_neg Bool.false_ne_true, List.append_nil] at hpress
  exact hpress

theorem run_pressed :
    run (watch (step evening.toEngine) note) (init, []) pressed = some (heard, successes) := by
  have hbuilt : run (watch (step evening.toEngine) note) (init, []) [.built [porch]] =
      some (⟨grid false, []⟩, []) := rfl
  have hfirst : run (watch (step evening.toEngine) note) (⟨grid false, []⟩, [])
      (press 1 0 .siren true) = some (⟨grid true, heard.requests.take 1⟩, successes.take 1) :=
    run_siren true [] []
  have hsecond : run (watch (step evening.toEngine) note)
      (⟨grid true, heard.requests.take 1⟩, successes.take 1) (press 1 1 .siren false) =
      some (⟨grid false, heard.requests.take 2⟩, successes.take 2) :=
    run_siren false (heard.requests.take 1) (successes.take 1)
  have hthird : run (watch (step evening.toEngine) note)
      (⟨grid false, heard.requests.take 2⟩, successes.take 2) (press 1 2 .siren true) =
      some (⟨grid true, heard.requests.take 3⟩, successes) :=
    run_siren true (heard.requests.take 2) (successes.take 2)
  have hlast : run (watch (step evening.toEngine) note)
    (⟨grid true, heard.requests.take 3⟩, successes)
      (press 0 3 .spot true) = some (heard, successes) :=
    run_spot (heard.requests.take 3) successes
  rw [pressed, run_append, run_append, run_append, run_append, hbuilt, Option.bind_some, hfirst,
    Option.bind_some, hsecond, Option.bind_some, hthird, Option.bind_some, hlast]

theorem shows_last_success_siren :
    siren.on = (told successes 1).getLastD false ∧ (false :: told successes 1).IsChain (· ≠ ·) ∧
      (successes.map Success.request).Nodup ∧
      ∀ e ∈ successes, e.button = 1 → ∃ request, heard.requests[e.request]? = some request ∧
        request.button = 1 ∧ request.turningOn = e.on ∧
        ∃ r, request.answer = some ([(r, true)], true) ∧ Carries evening.toEngine siren e.on r :=
  have hb : heard.buttons[1]? = some siren := rfl
  shows_last_success evening.toEngine ⟨pressed, run_pressed⟩ hb

/-- The spotlight button is pressed once, and refused. -/
theorem spot_stays_off_pressed :
    ⟨0, true, some ([], false)⟩ ∈ heard.requests ∧ spot.on = false ∧
      ∀ request ∈ heard.requests, request.button = 0 → ∀ a, request.answer = some a →
        a = ([], false) :=
  have hb : heard.buttons[0]? = some spot := rfl
  ⟨by simp [heard], spot_stays_off evening.toEngine ⟨pressed, run_pressed⟩ hb rfl⟩

end WyzeCams.Toggles
