import WyzeCams.Streams.StreamCache

/-! Calls of `getCameraWebRTCConnectionInfo` that overlap, and the clears between them. -/
namespace WyzeCams.StreamCache
open OrderedMap EventMachine

/-- What a call has come to. A bundle is known by the number of the call that made it. -/
inductive Phase where
  | fetching (newClientId : String)
  | returned (result : Result Nat)
  | threw

structure Call where
  mac : String
  model : String
  options : Options
  /-- How many clears had completed when the call began, and its fetch with it. -/
  began : Nat
  phase : Phase

structure State where
  cache : Cache Nat := []
  calls : List Call := []
  /-- The arguments of the calls of `clearCameraStreamCache`, in their order. -/
  clears : List (Option String) := []

inductive Event where
  | connect (mac model : String) (options : Options) (newClientId : String) (now : Int)
  | fetchSettled (call : Nat) (ok : Bool) (now : Int)
  | clear (mac : Option String)

/-- The call up to its first await, or to its end. -/
def begin (s : State) (mac model : String) (options : Options) (newClientId : String)
    (now : Int) : State :=
  let phase := match cachedBundle s.cache mac model options now with
    | some bundle => .returned (connectionInfo mac model options newClientId bundle true)
    | none => .fetching newClientId
  { s with calls := s.calls ++ [⟨mac, model, options, s.clears.length, phase⟩] }

/-- The rest of the call after its await. -/
def finish (s : State) (k : Nat) (call : Call) (newClientId : String) (ok : Bool)
    (now : Int) : State :=
  if ok then
    { s with
      cache := storeBundle s.cache call.mac call.model call.options k now
      calls := s.calls.set k { call with
        phase := .returned (connectionInfo call.mac call.model call.options newClientId k false) } }
  else { s with calls := s.calls.set k { call with phase := .threw } }

def step (s : State) : Event → Option State
  | .connect mac model options newClientId now => some (begin s mac model options newClientId now)
  | .fetchSettled k ok now =>
    match s.calls[k]? with
    | some call => match call.phase with
      | .fetching newClientId => some (finish s k call newClientId ok now)
      | _ => none
    | none => none
  | .clear mac => some { s with
      cache := clearCameraStreamCache s.cache mac
      clears := s.clears ++ [mac] }

def init : State := {}

/-- A clear without a MAC, or with an empty one, clears every camera. -/
def ClearsAll (cleared : Option String) : Prop := cleared = none ∨ cleared = some ""

def Clears (cleared : Option String) (mac : String) : Prop := ClearsAll cleared ∨ cleared = some mac

def Covers (cleared : Option String) (key : String) : Prop :=
  ClearsAll cleared ∨ ∃ mac model substream, cleared = some mac ∧
    key = streamCacheKey mac model substream

/-- Each call that returns `cached: true` in this step carries a bundle whose fetch began after
the last clear of its camera. -/
def Fresh (s t : State) : Prop :=
  ∀ (j : Nat) (call : Call) (r : Result Nat), t.calls[j]? = some call → s.calls[j]? ≠ some call →
    call.phase = .returned r → r.cached = true → ∀ fetch : Call, t.calls[r.bundle]? = some fetch →
      ∀ c ∈ s.clears.drop fetch.began, ¬ Clears c call.mac

/-- A fetch that is stored has not been overtaken by a clear that covers its key. -/
def StoredInTime (s : State) : Event → Prop
  | .fetchSettled k true _ => ∀ call, s.calls[k]? = some call → call.options.noCache = false →
      ∀ c ∈ s.clears.drop call.began,
        ¬ Covers c (streamCacheKey call.mac call.model call.options.substream)
  | _ => True

theorem covers_of_clears {cleared : Option String} {mac : String} (h : Clears cleared mac)
    (model : String) (substream : Bool) : Covers cleared (streamCacheKey mac model substream) := by
  cases h with
  | inl hall => exact Or.inl hall
  | inr hmac => exact Or.inr ⟨mac, model, substream, hmac, rfl⟩

/-- A clear deletes every key that it covers. -/
theorem get_covered (cache : Cache Nat) {cleared : Option String} {key : String}
    (h : Covers cleared key) : get (clearCameraStreamCache cache cleared) key = none := by
  rcases h with (rfl | rfl) | ⟨mac, model, substream, rfl, rfl⟩
  · rfl
  · rfl
  · by_cases hne : mac = ""
    · rw [clearCameraStreamCache, if_pos hne]
      rfl
    · rw [get_clear cache hne, if_pos (startsWith_key mac model substream)]

def Uncovered (s : State) (k : Nat) (key : String) : Prop :=
  ∃ fetch, s.calls[k]? = some fetch ∧ ∀ c ∈ s.clears.drop fetch.began, ¬ Covers c key

/-- Every entry of the cache was fetched after the last clear that covers its key. -/
def Current (s : State) : Prop :=
  ∀ key entry, get s.cache key = some entry → Uncovered s entry.bundle key

theorem Uncovered.append {s : State} {k : Nat} {key : String} (h : Uncovered s k key)
    (call : Call) : Uncovered { s with calls := s.calls ++ [call] } k key := by
  obtain ⟨fetch, hk, hclears⟩ := h
  refine ⟨fetch, ?_, hclears⟩
  show (s.calls ++ [call])[k]? = some fetch
  rw [List.getElem?_append_left (List.getElem?_eq_some_iff.mp hk).1]
  exact hk

/-- What a call comes to does not change when it began. -/
theorem Uncovered.set {s : State} {k : Nat} {key : String} (h : Uncovered s k key) {j : Nat}
    {call : Call} (hj : s.calls[j]? = some call) (cache : Cache Nat) (phase : Phase) :
    Uncovered { s with cache := cache, calls := s.calls.set j { call with phase := phase } } k
      key := by
  obtain ⟨fetch, hk, hclears⟩ := h
  by_cases he : k = j
  · rw [he, hj] at hk
    cases hk
    refine ⟨{ call with phase := phase }, ?_, hclears⟩
    show (s.calls.set j { call with phase := phase })[k]? = _
    rw [he, List.getElem?_set_self (List.getElem?_eq_some_iff.mp hj).1]
  · refine ⟨fetch, ?_, hclears⟩
    show (s.calls.set j { call with phase := phase })[k]? = _
    rw [List.getElem?_set_ne (Ne.symm he)]
    exact hk

theorem Uncovered.clear {s : State} {k : Nat} {key : String} (h : Uncovered s k key)
    {cleared : Option String} (hc : ¬ Covers cleared key) (cache : Cache Nat) :
    Uncovered { s with cache := cache, clears := s.clears ++ [cleared] } k key := by
  obtain ⟨fetch, hk, hclears⟩ := h
  refine ⟨fetch, hk, fun c hmem => ?_⟩
  rw [List.drop_append, List.mem_append] at hmem
  cases hmem with
  | inl hold => exact hclears c hold
  | inr hnew =>
    rw [List.mem_singleton.mp (List.mem_of_mem_drop hnew)]
    exact hc

theorem Current.begin {s : State} (hs : Current s) (mac model : String) (options : Options)
    (newClientId : String) (now : Int) : Current (begin s mac model options newClientId now) :=
  fun key entry hget => (hs key entry hget).append _

theorem Current.finish {s : State} (hs : Current s) {k : Nat} {call : Call}
    (hk : s.calls[k]? = some call) (newClientId : String) (ok : Bool) (now : Int)
    (hstored : StoredInTime s (.fetchSettled k ok now)) :
    Current (finish s k call newClientId ok now) := by
  cases ok with
  | false => exact fun key entry hget => (hs key entry hget).set hk s.cache .threw
  | true =>
    intro key entry hget
    have hnew : Uncovered s entry.bundle key := by
      change get (storeBundle s.cache call.mac call.model call.options k now) key = _ at hget
      rw [storeBundle] at hget
      split_ifs at hget with hno
      · exact hs key entry hget
      · rw [get_set] at hget
        split_ifs at hget with hkey
        · cases hget
          rw [hkey]
          exact ⟨call, hk, hstored call hk (by simpa using hno)⟩
        · exact hs key entry hget
    exact hnew.set hk _ _

theorem Current.clear {s : State} (hs : Current s) (cleared : Option String) :
    Current { s with
      cache := clearCameraStreamCache s.cache cleared, clears := s.clears ++ [cleared] } := by
  intro key entry hget
  change get (clearCameraStreamCache s.cache cleared) key = some entry at hget
  have hc : ¬ Covers cleared key := by
    intro h
    rw [get_covered s.cache h] at hget
    cases hget
  have hold : get s.cache key = some entry := by
    cases cleared with
    | none => exact absurd (Or.inl (Or.inl rfl)) hc
    | some mac =>
      have hne : mac ≠ "" := fun he => hc (Or.inl (Or.inr (congrArg some he)))
      rw [get_clear s.cache hne] at hget
      split_ifs at hget
      exact hget
  exact (hs key entry hold).clear hc _

/-- A call that finds an entry in time looks its own key up. -/
theorem get_of_cachedBundle {cache : Cache Nat} {mac model : String} {options : Options}
    {now : Int} {bundle : Nat} (h : cachedBundle cache mac model options now = some bundle) :
    ∃ entry, get cache (streamCacheKey mac model options.substream) = some entry ∧
      entry.bundle = bundle := by
  rw [cachedBundle] at h
  split_ifs at h
  cases hget : get cache (streamCacheKey mac model options.substream) with
  | none => simp [hget] at h
  | some entry =>
    simp only [hget] at h
    split_ifs at h
    exact ⟨entry, rfl, Option.some.inj h⟩

theorem getElem?_append_new {α : Type} {xs : List α} {x y : α} {j : Nat}
    (h : (xs ++ [x])[j]? = some y) (hnew : xs[j]? ≠ some y) : j = xs.length ∧ y = x := by
  by_cases hj : j < xs.length
  · rw [List.getElem?_append_left hj] at h
    exact absurd h hnew
  · rw [List.getElem?_append_right (Nat.le_of_not_lt hj)] at h
    obtain ⟨hlt, hy⟩ := List.getElem?_eq_some_iff.mp h
    rw [List.length_singleton] at hlt
    refine ⟨by omega, ?_⟩
    rw [← hy, List.getElem_singleton]

/-- A call that finds an entry in time returns what no clear of its camera has overtaken. -/
theorem fresh_begin {s : State} (hs : Current s) (mac model : String) (options : Options)
    (newClientId : String) (now : Int) : Fresh s (begin s mac model options newClientId now) := by
  intro j call r hcall hnew hphase hcached fetch hfetch c hc hclears
  obtain ⟨-, rfl⟩ := getElem?_append_new hcall hnew
  cases hb : cachedBundle s.cache mac model options now with
  | none => simp [hb] at hphase
  | some bundle =>
    obtain ⟨entry, hget, rfl⟩ := get_of_cachedBundle hb
    have hr : r = connectionInfo mac model options newClientId entry.bundle true := by
      simpa [hb] using hphase.symm
    obtain ⟨old, hold, huncovered⟩ := hs _ entry hget
    have hsame : fetch = old := by
      rw [hr] at hfetch
      change (s.calls ++ [_])[entry.bundle]? = some fetch at hfetch
      rw [List.getElem?_append_left (List.getElem?_eq_some_iff.mp hold).1, hold] at hfetch
      exact (Option.some.inj hfetch).symm
    rw [hsame] at hc
    exact huncovered c hc (covers_of_clears hclears model options.substream)

/-- The end of a fetch returns `cached: false`. -/
theorem fresh_finish {s : State} {k : Nat} {call : Call} (newClientId : String) (ok : Bool)
    (now : Int) : Fresh s (finish s k call newClientId ok now) := by
  have hset : ∀ (phase : Phase) (j : Nat) (new : Call),
      (s.calls.set k { call with phase := phase })[j]? = some new → s.calls[j]? ≠ some new →
        new.phase = phase := by
    intro phase j new hnew hne
    by_cases hj : k = j
    · subst hj
      have hlt : k < s.calls.length := by
        have := (List.getElem?_eq_some_iff.mp hnew).1
        rwa [List.length_set] at this
      rw [List.getElem?_set_self hlt] at hnew
      cases hnew
      rfl
    · rw [List.getElem?_set_ne hj] at hnew
      exact absurd hnew hne
  intro j new r hnew hne hphase hcached
  cases ok with
  | true =>
    rw [hset _ j new hnew hne] at hphase
    cases hphase
    cases hcached
  | false =>
    rw [hset _ j new hnew hne] at hphase
    cases hphase

theorem fresh_step {s t : State} {e : Event} (hs : Current s) (h : step s e = some t)
    (hstored : StoredInTime s e) : Fresh s t ∧ Current t := by
  cases e with
  | connect mac model options newClientId now =>
    cases h
    exact ⟨fresh_begin hs mac model options newClientId now,
      hs.begin mac model options newClientId now⟩
  | fetchSettled k ok now =>
    rw [step] at h
    cases hk : s.calls[k]? with
    | none => simp [hk] at h
    | some call =>
      simp only [hk] at h
      cases hphase : call.phase with
      | fetching newClientId =>
        simp only [hphase] at h
        cases h
        exact ⟨fresh_finish newClientId ok now, hs.finish hk newClientId ok now hstored⟩
      | returned r => simp [hphase] at h
      | threw => simp [hphase] at h
  | clear cleared =>
    cases h
    exact ⟨fun j call r hcall hne => absurd hcall hne, hs.clear cleared⟩

theorem current_init : Current init := fun key entry hget => by cases hget

/-- Along every order of calls and clears in which no stored fetch was overtaken by a clear that
covers its key, a bundle returned with `cached: true` was fetched after the last clear of its
camera. -/
theorem fresh_along (es : List Event) (h : Along step (fun s e _ => StoredInTime s e) init es) :
    Along step (fun s _ t => Fresh s t) init es :=
  along_of_along (P := fun s _ t => Fresh s t)
    (fun _ _ _ hs hstep hstored => fresh_step hs hstep hstored) current_init es h

/-- A fetch completes, its entry is cleared, and the camera is read twice again. -/
theorem fresh_along_refetch :
    Along step (fun s _ t => Fresh s t) init
      [.connect "AA" "GW" {} "c" 0, .fetchSettled 0 true 1, .clear (some "AA"),
        .connect "AA" "GW" {} "c" 2, .fetchSettled 1 true 3, .connect "AA" "GW" {} "c" 4] := by
  apply fresh_along
  refine ⟨trivial, ?_, trivial, trivial, ?_, trivial, trivial⟩
  · intro call hcall _ c hc
    cases hcall
    cases hc
  · intro call hcall _ c hc
    cases hcall
    cases hc

/-- A clear comes while the fetch is under way; the entry it leaves is read afterwards. -/
theorem overtaken_fetch_returned :
    ¬ Along step (fun s _ t => Fresh s t) init
      ([.connect "AA" "GW" {} "c" 0, .clear (some "AA"), .fetchSettled 0 true 1] ++
        [.connect "AA" "GW" {} "c" 2]) := by
  intro h
  have hlast := along_last rfl rfl h
  exact hlast 1 _ _ rfl (fun hold => by cases hold) rfl rfl _ rfl (some "AA")
    (by decide) (Or.inr rfl)

end WyzeCams.StreamCache
