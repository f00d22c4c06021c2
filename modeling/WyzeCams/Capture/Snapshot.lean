import WyzeCams.Lib.Machine
import WyzeCams.Lib.OrderedMap
import WyzeCams.Lib.Table
import Mathlib.Tactic.Common

/-! `cameraCaptureSnapshot` of `src/index.js`, called any number of times at once: its cache of
frames is looked up before two awaits and filled after them. -/
namespace WyzeCams.Snapshot
open EventMachine OrderedMap

/-- The options of a call, with their defaults; times are in milliseconds. -/
structure Options where
  timeoutMs : Int := 20000
  noCache : Bool := false
  cacheTtlMs : Int := 10000
  deriving DecidableEq

/-- What `getCameraWebRTCConnectionInfo` resolves with, as far as the capture needs it. -/
structure Connection (γ : Type) where
  signalingUrl : String
  iceServers : γ
  deriving DecidableEq

/-- `β` are the frames, `ε` the exceptions. -/
inductive Phase (β γ ε : Type) where
  | connecting (deviceModel : String)
  | capturing (conn : Connection γ) (timeoutMs : Int)
  | returned (buffer : β)
  | threw (e : ε)
  deriving DecidableEq

structure Call (β γ ε : Type) where
  deviceMac : String
  options : Options
  phase : Phase β γ ε
  deriving DecidableEq

structure Entry (β : Type) where
  buffer : β
  expiresAt : Int
  deriving DecidableEq

structure State (β γ ε : Type) where
  now : Int
  snapshotCaptureCache : Entries String (Entry β)
  calls : List (Call β γ ε)
  deriving DecidableEq

variable {β γ ε : Type}

def init (now : Int) : State β γ ε := ⟨now, [], []⟩

def cachedFrame (s : State β γ ε) (deviceMac : String) (options : Options) : Option β :=
  if options.noCache then none
  else
    match get s.snapshotCaptureCache deviceMac with
    | some entry => if s.now < entry.expiresAt then some entry.buffer else none
    | none => none

def firstPhase (deviceModel : String) : Option β → Phase β γ ε
  | some buffer => .returned buffer
  | none => .connecting deviceModel

/-- `cameraCaptureSnapshot` up to its first await. -/
def cameraCaptureSnapshot (s : State β γ ε) (deviceMac deviceModel : String) (options : Options) :
    State β γ ε :=
  let phase := firstPhase deviceModel (cachedFrame s deviceMac options)
  { s with calls := s.calls ++ [⟨deviceMac, options, phase⟩] }

def Call.goTo (phase : Phase β γ ε) (c : Call β γ ε) : Call β γ ε := { c with phase := phase }

/-- A call goes on when `getCameraWebRTCConnectionInfo` has settled. -/
def connected (s : State β γ ε) (k : Nat) (c : Call β γ ε) : Except ε (Connection γ) → State β γ ε
  | .ok conn =>
    { s with calls := s.calls.modify k (Call.goTo (.capturing conn c.options.timeoutMs)) }
  | .error e => { s with calls := s.calls.modify k (Call.goTo (.threw e)) }

/-- A call goes on when `captureStreamFrame` has settled. -/
def captured (s : State β γ ε) (k : Nat) (c : Call β γ ε) : Except ε β → State β γ ε
  | .ok buffer =>
    let s :=
      if c.options.noCache then s
      else { s with snapshotCaptureCache :=
        OrderedMap.set s.snapshotCaptureCache c.deviceMac ⟨buffer, s.now + c.options.cacheTtlMs⟩ }
    { s with calls := s.calls.modify k (Call.goTo (.returned buffer)) }
  | .error e => { s with calls := s.calls.modify k (Call.goTo (.threw e)) }

inductive Event (β γ ε : Type) where
  | call (deviceMac deviceModel : String) (options : Options)
  | connected (k : Nat) (conn : Except ε (Connection γ))
  | captured (k : Nat) (buffer : Except ε β)
  | wait (ms : Nat)

def step (s : State β γ ε) : Event β γ ε → Option (State β γ ε)
  | .call deviceMac deviceModel options =>
    some (cameraCaptureSnapshot s deviceMac deviceModel options)
  | .connected k conn =>
    match s.calls[k]? with
    | some ⟨mac, options, .connecting model⟩ =>
      some (connected s k ⟨mac, options, .connecting model⟩ conn)
    | _ => none
  | .captured k buffer =>
    match s.calls[k]? with
    | some ⟨mac, options, .capturing conn timeoutMs⟩ =>
      some (captured s k ⟨mac, options, .capturing conn timeoutMs⟩ buffer)
    | _ => none
  | .wait ms => some { s with now := s.now + ms }

/-- When the call has looked into the cache, whether it has started `captureStreamFrame`, when it
has ended (both counted in events), and when it has stored a frame. -/
structure Mark where
  deviceMac : String
  looked : Nat
  started : Bool
  ended : Option Nat
  stored : Option Int
  deriving DecidableEq

structure Record where
  turn : Nat
  marks : List Mark
  deriving DecidableEq

def Record.change (r : Record) (k : Nat) (f : Mark → Mark) : Record :=
  ⟨r.turn + 1, r.marks.modify k f⟩

def Mark.endAt (turn : Nat) (stored : Option Int) (m : Mark) : Mark :=
  { m with ended := some turn, stored := stored }

def note (r : Record) (s : State β γ ε) (e : Event β γ ε) (_ : State β γ ε) : Record :=
  match e with
  | .call mac _ options =>
    let ended := (cachedFrame s mac options).map fun _ => r.turn
    ⟨r.turn + 1, r.marks ++ [⟨mac, r.turn, false, ended, none⟩]⟩
  | .connected k (.ok _) => r.change k fun m => { m with started := true }
  | .connected k (.error _) => r.change k (Mark.endAt r.turn none)
  | .captured k (.ok _) => r.change k (Mark.endAt r.turn (some s.now))
  | .captured k (.error _) => r.change k (Mark.endAt r.turn none)
  | .wait _ => ⟨r.turn + 1, r.marks⟩

def Mark.Over (m : Mark) (now : Int) : Prop :=
  m.ended ≠ none ∧ ∀ t, m.stored = some t → t + 10000 ≤ now

def Mark.EndedBefore (m : Mark) (turn : Nat) : Prop := ∃ n, m.ended = some n ∧ n < turn

/-- A call that starts a capture finds every other capture for its camera over. -/
def Shares (p : State β γ ε × Record) (e : Event β γ ε) : Prop :=
  ∀ k conn c, e = .connected k (.ok conn) → p.2.marks[k]? = some c →
    ∀ m ∈ p.2.marks, m.deviceMac = c.deviceMac → m.started = true → m.Over p.1.now

/-- No other capture for the camera has been under way since the call looked into the cache, apart
from those that are over. -/
def Undisturbed (p : State β γ ε × Record) (e : Event β γ ε) : Prop :=
  ∀ k conn c, e = .connected k (.ok conn) → p.2.marks[k]? = some c →
    ∀ m ∈ p.2.marks, m.deviceMac = c.deviceMac → m.started = true →
      m.EndedBefore c.looked ∨ m.Over p.1.now

/-- A call with the default `cacheTtlMs` and without `noCache`. -/
def Plain (e : Event β γ ε) : Prop :=
  ∀ mac model options, e = .call mac model options →
    options.noCache = false ∧ options.cacheTtlMs = 10000

structure Agrees (c : Call β γ ε) (m : Mark) : Prop where
  mac : m.deviceMac = c.deviceMac
  noCache : c.options.noCache = false
  cacheTtlMs : c.options.cacheTtlMs = 10000
  waiting : ∀ model, c.phase = .connecting model → m.ended = none

/-- A frame that is stored is in the cache until it is over, so a call that looks afterwards and
goes on finds it over. -/
structure Inv (s : State β γ ε) (r : Record) : Prop where
  length : r.marks.length = s.calls.length
  agrees : ∀ (k : Nat) c m, s.calls[k]? = some c → r.marks[k]? = some m → Agrees c m
  looked : ∀ m ∈ r.marks, m.looked < r.turn
  ended : ∀ m ∈ r.marks, ∀ t, m.stored = some t → m.ended ≠ none
  cached : ∀ m ∈ r.marks, ∀ t, m.stored = some t → t ≤ s.now ∧
    ∃ entry, get s.snapshotCaptureCache m.deviceMac = some entry ∧ t + 10000 ≤ entry.expiresAt
  settled : ∀ c ∈ r.marks, c.ended = none → ∀ m ∈ r.marks, m.deviceMac = c.deviceMac →
    m.EndedBefore c.looked → m.Over s.now

theorem inv_init (now : Int) : Inv (init now : State β γ ε) ⟨0, []⟩ where
  length := rfl
  agrees := fun _ _ _ hc => by cases hc
  looked := fun _ hm => absurd hm List.not_mem_nil
  ended := fun _ hm => absurd hm List.not_mem_nil
  cached := fun _ hm => absurd hm List.not_mem_nil
  settled := fun _ hc => absurd hc List.not_mem_nil

/-- A call that misses finds over whatever has been stored. -/
theorem Inv.over_of_miss {s : State β γ ε} {r : Record} (h : Inv s r) {mac : String}
    {options : Options} (hcache : options.noCache = false)
    (hmiss : cachedFrame s mac options = none) {m : Mark} (hm : m ∈ r.marks)
    (hmac : m.deviceMac = mac) {t : Int} (ht : m.stored = some t) : t + 10000 ≤ s.now := by
  obtain ⟨-, entry, hentry, hexpires⟩ := h.cached m hm t ht
  have hfrontier : ¬ s.now < entry.expiresAt := by
    intro hlt
    rw [hmac] at hentry
    rw [cachedFrame, hcache, if_neg Bool.false_ne_true, hentry] at hmiss
    dsimp only at hmiss
    rw [if_pos hlt] at hmiss
    cases hmiss
  omega

/-- A new call, which has found `frame` in the cache. -/
theorem Inv.push {s : State β γ ε} {r : Record} (h : Inv s r) (mac model : String)
    {options : Options} (hcache : options.noCache = false) (httl : options.cacheTtlMs = 10000)
    {frame : Option β} (hframe : cachedFrame s mac options = frame) :
    Inv { s with calls := s.calls ++ [⟨mac, options, firstPhase model frame⟩] }
      ⟨r.turn + 1, r.marks ++ [⟨mac, r.turn, false, frame.map fun _ => r.turn, none⟩]⟩ where
  length := by simp [h.length]
  agrees := fun k c m hc hm => by
    rcases Table.getElem?_concat hc with hc | ⟨hk, hc⟩
    · rcases Table.getElem?_concat hm with hm | ⟨hk, -⟩
      · exact h.agrees k c m hc hm
      · have hlt := (List.getElem?_eq_some_iff.mp hc).1
        rw [h.length] at hk
        omega
    · rcases Table.getElem?_concat hm with hm | ⟨-, hm⟩
      · have hlt := (List.getElem?_eq_some_iff.mp hm).1
        rw [h.length] at hlt
        omega
      · rw [hc, hm]
        refine ⟨rfl, hcache, httl, fun model' hphase => ?_⟩
        cases frame with
        | none => rfl
        | some buffer => cases hphase
  looked := fun m hm => by
    rcases List.mem_append.mp hm with hm | hm
    · exact Nat.lt_succ_of_lt (h.looked m hm)
    · rw [List.mem_singleton.mp hm]
      exact Nat.lt_succ_self _
  ended := fun m hm t ht => by
    rcases List.mem_append.mp hm with hm | hm
    · exact h.ended m hm t ht
    · rw [List.mem_singleton.mp hm] at ht
      cases ht
  cached := fun m hm t ht => by
    rcases List.mem_append.mp hm with hm | hm
    · exact h.cached m hm t ht
    · rw [List.mem_singleton.mp hm] at ht
      cases ht
  settled := fun c hc hopen m hm hmac hbefore => by
    obtain ⟨n, hn, hlt⟩ := hbefore
    rcases List.mem_append.mp hm with hm | hm
    · rcases List.mem_append.mp hc with hc | hc
      · exact h.settled c hc hopen m hm hmac ⟨n, hn, hlt⟩
      · rw [List.mem_singleton.mp hc] at hopen hmac
        have hmiss : cachedFrame s mac options = none := by
          rw [hframe]
          exact Option.map_eq_none_iff.mp hopen
        refine ⟨by rw [hn]; exact Option.some_ne_none n, fun t ht => ?_⟩
        exact h.over_of_miss hcache hmiss hm hmac ht
    · -- the new call has not ended before any other has looked
      rw [List.mem_singleton.mp hm] at hn
      obtain ⟨buffer, -, hturn⟩ := Option.map_eq_some_iff.mp hn
      have hle : c.looked ≤ r.turn := by
        rcases List.mem_append.mp hc with hc | hc
        · exact Nat.le_of_lt (h.looked c hc)
        · exact Nat.le_of_eq (congrArg Mark.looked (List.mem_singleton.mp hc))
      omega

/-- A call that goes on is still the one that the record speaks of. -/
theorem Inv.agrees_of_change {s : State β γ ε} {r : Record} (h : Inv s r) {k : Nat}
    {phase : Phase β γ ε} (hphase : ∀ model, phase ≠ .connecting model) {f : Mark → Mark}
    (hf : ∀ m, (f m).deviceMac = m.deviceMac) {i : Nat} {c : Call β γ ε} {m : Mark}
    (hc : (s.calls.modify k (Call.goTo phase))[i]? = some c)
    (hm : (r.marks.modify k f)[i]? = some m) : Agrees c m := by
  rcases Table.getElem?_modified hc with ⟨c₀, hc₀, hk, hc⟩ | ⟨hk, hc⟩
  · rcases Table.getElem?_modified hm with ⟨m₀, hm₀, -, hm⟩ | ⟨hk', -⟩
    · obtain ⟨hmac, hcache, httl, -⟩ := h.agrees i c₀ m₀ hc₀ hm₀
      rw [hc, hm]
      exact ⟨(hf m₀).trans hmac, hcache, httl, fun model he => absurd he (hphase model)⟩
    · exact absurd hk hk'
  · rcases Table.getElem?_modified hm with ⟨m₀, -, hk', -⟩ | ⟨-, hm⟩
    · exact absurd hk' hk
    · exact h.agrees i c m hc hm

/-- A call starts its capture. -/
theorem Inv.start {s : State β γ ε} {r : Record} (h : Inv s r) (k : Nat) (conn : Connection γ)
    (timeoutMs : Int) :
    Inv { s with calls := s.calls.modify k (Call.goTo (.capturing conn timeoutMs)) }
      (r.change k fun m => { m with started := true }) := by
  let start : Mark → Mark := fun m => { m with started := true }
  have hold : ∀ m ∈ r.marks.modify k start, ∃ m₀ ∈ r.marks, m.deviceMac = m₀.deviceMac ∧
      m.looked = m₀.looked ∧ m.ended = m₀.ended ∧ m.stored = m₀.stored := by
    intro m hm
    rcases Table.mem_modified hm with hm | ⟨m₀, hm₀, hm⟩
    · exact ⟨m, hm, rfl, rfl, rfl, rfl⟩
    · rw [hm]
      exact ⟨m₀, List.mem_of_getElem? hm₀, rfl, rfl, rfl, rfl⟩
  exact {
    length := by simp [Record.change, h.length]
    agrees := fun i c m hc hm =>
      h.agrees_of_change (fun _ he => by cases he) (f := start) (fun _ => rfl) hc hm
    looked := fun m hm => by
      obtain ⟨m₀, hm₀, -, hlooked, -, -⟩ := hold m hm
      rw [hlooked]
      exact Nat.lt_succ_of_lt (h.looked m₀ hm₀)
    ended := fun m hm t ht => by
      obtain ⟨m₀, hm₀, -, -, hended, hstored⟩ := hold m hm
      rw [hstored] at ht
      rw [hended]
      exact h.ended m₀ hm₀ t ht
    cached := fun m hm t ht => by
      obtain ⟨m₀, hm₀, hmac, -, -, hstored⟩ := hold m hm
      rw [hstored] at ht
      rw [hmac]
      exact h.cached m₀ hm₀ t ht
    settled := fun c hc hopen m hm hmac hbefore => by
      obtain ⟨c₀, hc₀, hmacc, hlooked, hendedc, -⟩ := hold c hc
      obtain ⟨m₀, hm₀, hmacm, -, hended, hstored⟩ := hold m hm
      rw [hendedc] at hopen
      rw [hmacm, hmacc] at hmac
      rw [Mark.EndedBefore, hended, hlooked] at hbefore
      rw [Mark.Over, hended, hstored]
      exact h.settled c₀ hc₀ hopen m₀ hm₀ hmac hbefore }

/-- A call ends; a frame that it stores is in the cache from now on. -/
theorem Inv.finish {s : State β γ ε} {r : Record} (h : Inv s r) {k : Nat} {c : Call β γ ε}
    (hc : s.calls[k]? = some c) {phase : Phase β γ ε} (hphase : ∀ model, phase ≠ .connecting model)
    {cache : Entries String (Entry β)} {stored : Option Int}
    (hcache : (cache = s.snapshotCaptureCache ∧ stored = none) ∨ ∃ buffer,
      cache = OrderedMap.set s.snapshotCaptureCache c.deviceMac ⟨buffer, s.now + 10000⟩ ∧
        stored = some s.now) :
    Inv ⟨s.now, cache, s.calls.modify k (Call.goTo phase)⟩
      (r.change k (Mark.endAt r.turn stored)) where
  length := by simp [Record.change, h.length]
  agrees := fun i c m hc hm =>
    h.agrees_of_change hphase (f := Mark.endAt r.turn stored) (fun _ => rfl) hc hm
  looked := fun m hm => by
    rcases Table.mem_modified hm with hm | ⟨m₀, hm₀, hm⟩
    · exact Nat.lt_succ_of_lt (h.looked m hm)
    · rw [hm]
      exact Nat.lt_succ_of_lt (h.looked m₀ (List.mem_of_getElem? hm₀))
  ended := fun m hm t ht => by
    rcases Table.mem_modified hm with hm | ⟨m₀, -, hm⟩
    · exact h.ended m hm t ht
    · rw [hm]
      exact Option.some_ne_none r.turn
  cached := fun m hm t ht => by
    have hkeep : ∀ mac entry, get s.snapshotCaptureCache mac = some entry →
        t ≤ s.now → t + 10000 ≤ entry.expiresAt →
          ∃ entry, get cache mac = some entry ∧ t + 10000 ≤ entry.expiresAt := by
      intro mac entry hentry hle hexpires
      rcases hcache with ⟨hsame, -⟩ | ⟨buffer, hset, -⟩
      · rw [hsame]
        exact ⟨entry, hentry, hexpires⟩
      · rw [hset, get_set]
        split_ifs
        · exact ⟨_, rfl, by dsimp only; omega⟩
        · exact ⟨entry, hentry, hexpires⟩
    rcases Table.mem_modified hm with hm | ⟨m₀, hm₀, hm⟩
    · obtain ⟨hle, entry, hentry, hexpires⟩ := h.cached m hm t ht
      exact ⟨hle, hkeep _ entry hentry hle hexpires⟩
    · rw [hm] at ht ⊢
      have hstored : stored = some t := ht
      rcases hcache with ⟨-, hnone⟩ | ⟨buffer, hset, hsome⟩
      · rw [hnone] at hstored
        cases hstored
      · rw [hsome, Option.some_inj] at hstored
        have hmac : m₀.deviceMac = c.deviceMac := (h.agrees k c m₀ hc hm₀).mac
        refine ⟨Int.le_of_eq hstored.symm, ⟨buffer, s.now + 10000⟩, ?_, by dsimp only; omega⟩
        rw [hset, get_set]
        exact if_pos hmac
  settled := fun c hc hopen m hm hmac hbefore => by
    have hcold : c ∈ r.marks := by
      rcases Table.mem_modified hc with hc | ⟨c₀, -, hc⟩
      · exact hc
      · rw [hc] at hopen
        cases hopen
    rcases Table.mem_modified hm with hm | ⟨m₀, -, hm⟩
    · exact h.settled c hcold hopen m hm hmac hbefore
    · -- it ends in this turn, after every call has looked
      obtain ⟨n, hn, hlt⟩ := hbefore
      rw [hm] at hn
      have hturn : r.turn = n := Option.some.inj hn
      have hlooked := h.looked c hcold
      omega

theorem Inv.wait {s : State β γ ε} {r : Record} (h : Inv s r) (ms : Nat) :
    Inv { s with now := s.now + ms } ⟨r.turn + 1, r.marks⟩ where
  length := h.length
  agrees := h.agrees
  looked := fun m hm => Nat.lt_succ_of_lt (h.looked m hm)
  ended := h.ended
  cached := fun m hm t ht => by
    obtain ⟨hle, hentry⟩ := h.cached m hm t ht
    exact ⟨by dsimp only; omega, hentry⟩
  settled := fun c hc hopen m hm hmac hbefore => by
    obtain ⟨hended, hstored⟩ := h.settled c hc hopen m hm hmac hbefore
    refine ⟨hended, fun t ht => ?_⟩
    have hle := hstored t ht
    dsimp only
    omega

theorem of_connected {s t : State β γ ε} {k : Nat} {conn : Except ε (Connection γ)}
    (h : step s (.connected k conn) = some t) :
    ∃ mac options model, s.calls[k]? = some ⟨mac, options, .connecting model⟩ ∧
      t = connected s k ⟨mac, options, .connecting model⟩ conn := by
  rw [step] at h
  cases hc : s.calls[k]? with
  | none =>
    rw [hc] at h
    cases h
  | some c =>
    obtain ⟨mac, options, phase⟩ := c
    rw [hc] at h
    cases phase with
    | connecting model => exact ⟨mac, options, model, rfl, (Option.some.inj h).symm⟩
    | capturing conn timeoutMs => cases h
    | returned buffer => cases h
    | threw e => cases h

theorem of_captured {s t : State β γ ε} {k : Nat} {buffer : Except ε β}
    (h : step s (.captured k buffer) = some t) :
    ∃ mac options conn timeoutMs, s.calls[k]? = some ⟨mac, options, .capturing conn timeoutMs⟩ ∧
      t = captured s k ⟨mac, options, .capturing conn timeoutMs⟩ buffer := by
  rw [step] at h
  cases hc : s.calls[k]? with
  | none =>
    rw [hc] at h
    cases h
  | some c =>
    obtain ⟨mac, options, phase⟩ := c
    rw [hc] at h
    cases phase with
    | connecting model => cases h
    | capturing conn timeoutMs =>
      exact ⟨mac, options, conn, timeoutMs, rfl, (Option.some.inj h).symm⟩
    | returned buffer => cases h
    | threw e => cases h

theorem Inv.step {s t : State β γ ε} {r : Record} {e : Event β γ ε} (h : Inv s r)
    (hplain : Plain e) (hstep : step s e = some t) : Inv t (note r s e t) := by
  cases e with
  | call mac model options =>
    cases hstep
    obtain ⟨hcache, httl⟩ := hplain mac model options rfl
    exact h.push mac model hcache httl rfl
  | connected k conn =>
    obtain ⟨mac, options, model, hc, ht⟩ := of_connected hstep
    rw [ht]
    cases conn with
    | ok conn => exact h.start k conn options.timeoutMs
    | error e => exact h.finish hc (fun _ he => by cases he) (.inl ⟨rfl, rfl⟩)
  | captured k buffer =>
    obtain ⟨mac, options, conn, timeoutMs, hc, ht⟩ := of_captured hstep
    rw [ht]
    cases buffer with
    | error e => exact h.finish hc (fun _ he => by cases he) (.inl ⟨rfl, rfl⟩)
    | ok buffer =>
      have hlt : k < r.marks.length := by
        rw [h.length]
        exact (List.getElem?_eq_some_iff.mp hc).1
      have hagrees := h.agrees k _ _ hc (List.getElem?_eq_getElem hlt)
      rw [captured, hagrees.noCache, if_neg Bool.false_ne_true, hagrees.cacheTtlMs]
      exact h.finish hc (fun _ he => by cases he) (.inr ⟨buffer, rfl, rfl⟩)
  | wait ms =>
    cases hstep
    exact h.wait ms

/-- At the start of a capture. -/
theorem shares_iff {s t : State β γ ε} {r : Record} {e : Event β γ ε} (h : Inv s r)
    (hstep : step s e = some t) : Shares (s, r) e ↔ Undisturbed (s, r) e := by
  constructor
  · intro hshares k conn c he hc m hm hmac hstarted
    exact .inr (hshares k conn c he hc m hm hmac hstarted)
  · intro hfree k conn c he hc m hm hmac hstarted
    rcases hfree k conn c he hc m hm hmac hstarted with hbefore | hover
    · rw [he] at hstep
      obtain ⟨mac, options, model, hcall, -⟩ := of_connected hstep
      have hopen : c.ended = none := (h.agrees k _ c hcall hc).waiting model rfl
      exact h.settled c (List.mem_of_getElem? hc) hopen m hm hmac hbefore
    · exact hover

/-- Calls that arrive at any time share a capture exactly when none is disturbed by another one
between its look into the cache and its capture. -/
theorem shares_one_capture_iff (now : Int) (events : List (Event β γ ε))
    (hplain : ∀ e ∈ events, Plain e) :
    Along (watch step note) (fun p e _ => Shares p e) (init now, ⟨0, []⟩) events ↔
      Along (watch step note) (fun p e _ => Undisturbed p e) (init now, ⟨0, []⟩) events := by
  have hiff : ∀ (p : State β γ ε × Record) e q, Inv p.1 p.2 → Plain e →
      watch step note p e = some q → (Shares p e ↔ Undisturbed p e) := by
    intro p e q h _ hq
    obtain ⟨t, ht, -⟩ := of_watch hq
    exact shares_iff h ht
  have hinv : ∀ (p : State β γ ε × Record) e q, Inv p.1 p.2 → Plain e →
      watch step note p e = some q → Undisturbed p e → Inv q.1 q.2 := by
    intro p e q h hplain hq _
    obtain ⟨t, ht, hpair⟩ := of_watch hq
    rw [hpair]
    exact h.step hplain ht
  exact along_iff_of_events hiff hinv (inv_init now) hplain

def look : Event Nat Unit Unit := .call "AA" "WYZE_CAKP2JFUS" {}

def connection : Except Unit (Connection Unit) := .ok ⟨"wss://signaling", ()⟩

def oneByOne : List (Event Nat Unit Unit) :=
  [look, .connected 0 connection, .captured 0 (.ok 1), .wait 5000, look, .wait 5000, look,
    .connected 2 connection]

theorem shares_one_capture_iff_oneByOne :
    Along (watch step note) (fun p e _ => Shares p e) (init 0, ⟨0, []⟩) oneByOne ↔
      Along (watch step note) (fun p e _ => Undisturbed p e) (init 0, ⟨0, []⟩) oneByOne := by
  apply shares_one_capture_iff
  intro e he mac model options hcall
  simp only [oneByOne, look, List.mem_cons, List.not_mem_nil, or_false] at he
  rcases he with rfl | rfl | rfl | rfl | rfl | rfl | rfl | rfl <;> cases hcall <;> exact ⟨rfl, rfl⟩

/-- Two calls at once capture twice at once. -/
theorem two_captures_at_once :
    ¬ Along (watch step note) (fun p e _ => Shares p e) (init 0, ⟨0, []⟩)
      [look, look, .connected 0 connection, .connected 1 connection] := by
  intro h
  have hfirst : run (watch step note) (init 0, ⟨0, []⟩) [look, look, .connected 0 connection] =
      some _ := rfl
  have hsecond := along_last hfirst rfl h
  have hover := hsecond 1 ⟨"wss://signaling", ()⟩ _ rfl rfl _ List.mem_cons_self rfl rfl
  exact hover.1 rfl

end WyzeCams.Snapshot
