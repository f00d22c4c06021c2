import WyzeCams.Capture.Snapshot

/-! Which frame `cameraCaptureSnapshot` serves from its cache, in a run that mixes calls with and
without `noCache`. -/
namespace WyzeCams.Snapshot
open EventMachine OrderedMap
variable {β γ ε : Type}

structure Frame (β : Type) where
  deviceMac : String
  noCache : Bool
  buffer : β
  deriving DecidableEq

abbrev Frames (β : Type) := List (Frame β)

def noteFrame (r : Frames β) (s : State β γ ε) (e : Event β γ ε) (_ : State β γ ε) : Frames β :=
  match e with
  | .captured k (.ok buffer) =>
    match s.calls[k]? with
    | some c => ⟨c.deviceMac, c.options.noCache, buffer⟩ :: r
    | none => r
  | _ => r

def newest (r : Frames β) (mac : String) : Option (Frame β) := r.find? fun f => f.deviceMac = mac

def newestShared (r : Frames β) (mac : String) : Option (Frame β) :=
  r.find? fun f => f.deviceMac = mac && !f.noCache

/-- A call that is answered from the cache returns the frame of the latest capture. -/
def ServesNewest (p : State β γ ε × Frames β) (e : Event β γ ε) : Prop :=
  ∀ mac model options buffer, e = .call mac model options →
    cachedFrame p.1 mac options = some buffer → (newest p.2 mac).map Frame.buffer = some buffer

/-- When a call finds a frame in time, the latest capture was made without `noCache`, or gave the
same frame as the latest one that was. -/
def NotBypassed (p : State β γ ε × Frames β) (e : Event β γ ε) : Prop :=
  ∀ mac model options f, e = .call mac model options → cachedFrame p.1 mac options ≠ none →
    newest p.2 mac = some f → f.noCache = true →
      (newestShared p.2 mac).map Frame.buffer = some f.buffer

def Call.Ended (c : Call β γ ε) : Prop :=
  (∃ buffer, c.phase = .returned buffer) ∨ ∃ e, c.phase = .threw e

/-- A call for a camera begins when those before it have ended. -/
def OneByOne (p : State β γ ε × Frames β) (e : Event β γ ε) : Prop :=
  ∀ mac model options, e = .call mac model options →
    ∀ c ∈ p.1.calls, c.deviceMac = mac → c.Ended

def Holds (s : State β γ ε) (r : Frames β) : Prop :=
  ∀ mac, (get s.snapshotCaptureCache mac).map Entry.buffer =
    (newestShared r mac).map Frame.buffer

theorem holds_init (now : Int) : Holds (init now : State β γ ε) [] := fun _ => rfl

theorem newest_cons (f : Frame β) (r : Frames β) (mac : String) :
    newest (f :: r) mac = if f.deviceMac = mac then some f else newest r mac := by
  rw [newest, List.find?_cons]
  by_cases h : f.deviceMac = mac
  · simp [h]
  · simp [h, newest]

theorem newestShared_cons (f : Frame β) (r : Frames β) (mac : String) :
    newestShared (f :: r) mac =
      if f.deviceMac = mac ∧ f.noCache = false then some f else newestShared r mac := by
  rw [newestShared, List.find?_cons]
  by_cases h : f.deviceMac = mac ∧ f.noCache = false
  · simp [h.1, h.2]
  · rw [if_neg h]
    have hnot : (decide (f.deviceMac = mac) && !f.noCache) = false := by
      rw [not_and, Bool.not_eq_false] at h
      by_cases hmac : f.deviceMac = mac
      · simp [h hmac]
      · simp [hmac]
    rw [hnot, newestShared]

/-- Where the latest capture was made without `noCache`, it is the latest such one. -/
theorem newestShared_of_newest {r : Frames β} {mac : String} {f : Frame β}
    (h : newest r mac = some f) (hshared : f.noCache = false) : newestShared r mac = some f := by
  induction r with
  | nil => cases h
  | cons g r ih =>
    rw [newest_cons] at h
    rw [newestShared_cons]
    split_ifs at h with hmac
    · cases h
      rw [if_pos ⟨hmac, hshared⟩]
    · rw [if_neg fun hg => hmac hg.1]
      exact ih h

theorem newest_ne_none {r : Frames β} {mac : String} (h : newestShared r mac ≠ none) :
    newest r mac ≠ none := by
  induction r with
  | nil => exact h
  | cons g r ih =>
    rw [newestShared_cons] at h
    rw [newest_cons]
    by_cases hmac : g.deviceMac = mac
    · rw [if_pos hmac]
      exact Option.some_ne_none g
    · rw [if_neg fun hg => hmac hg.1] at h
      rw [if_neg hmac]
      exact ih h

theorem Holds.step {s t : State β γ ε} {r : Frames β} {e : Event β γ ε} (h : Holds s r)
    (hstep : step s e = some t) : Holds t (noteFrame r s e t) := by
  cases e with
  | call mac model options =>
    cases hstep
    exact h
  | connected k conn =>
    obtain ⟨mac, options, model, -, ht⟩ := of_connected hstep
    rw [ht]
    cases conn <;> exact h
  | captured k buffer =>
    obtain ⟨mac, options, conn, timeoutMs, hc, ht⟩ := of_captured hstep
    rw [ht]
    cases buffer with
    | error e => exact h
    | ok buffer =>
      intro mac'
      rw [noteFrame, hc]
      dsimp only
      rw [newestShared_cons, captured]
      cases hcache : options.noCache with
      | true =>
        rw [if_pos rfl, if_neg fun hf => by cases hf.2]
        exact h mac'
      | false =>
        rw [if_neg Bool.false_ne_true]
        dsimp only
        rw [get_set]
        by_cases hmac : mac' = mac
        · rw [if_pos hmac, if_pos ⟨hmac.symm, rfl⟩]
          rfl
        · rw [if_neg hmac, if_neg fun hf => hmac hf.1.symm]
          exact h mac'
  | wait ms =>
    cases hstep
    exact h

/-- A frame that is found in the cache is the latest one captured without `noCache`. -/
theorem Holds.cachedFrame {s : State β γ ε} {r : Frames β} (h : Holds s r) {mac : String}
    {options : Options} {buffer : β} (hfound : cachedFrame s mac options = some buffer) :
    (newestShared r mac).map Frame.buffer = some buffer := by
  rw [← h mac]
  rw [Snapshot.cachedFrame] at hfound
  split_ifs at hfound
  cases hentry : get s.snapshotCaptureCache mac with
  | none =>
    rw [hentry] at hfound
    cases hfound
  | some entry =>
    rw [hentry] at hfound
    dsimp only at hfound
    split_ifs at hfound
    exact hfound

theorem servesNewest_iff {s : State β γ ε} {r : Frames β} {e : Event β γ ε} (h : Holds s r) :
    ServesNewest (s, r) e ↔ NotBypassed (s, r) e := by
  constructor
  · intro hserves mac model options f he hfound hf _
    obtain ⟨buffer, hbuffer⟩ := Option.ne_none_iff_exists'.mp hfound
    have hlatest := hserves mac model options buffer he hbuffer
    rw [hf] at hlatest
    rw [h.cachedFrame hbuffer, ← hlatest]
    rfl
  · intro hbypass mac model options buffer he hbuffer
    have hshared := h.cachedFrame hbuffer
    have hne : newestShared r mac ≠ none := by
      intro hnone
      rw [hnone] at hshared
      cases hshared
    obtain ⟨f, hf⟩ := Option.ne_none_iff_exists'.mp (newest_ne_none hne)
    rw [← hshared, hf]
    cases hcache : f.noCache with
    | true =>
      exact (hbypass mac model options f he (by rw [hbuffer]; exact Option.some_ne_none _) hf
        hcache).symm
    | false => rw [newestShared_of_newest hf hcache]

/-- In every run, of calls one by one or at once, what is served from the cache is the frame of the
latest capture exactly when no call finds a frame in time after a later one was captured with
`noCache`. -/
theorem serves_newest_iff (now : Int) (events : List (Event β γ ε)) :
    Along (watch step noteFrame) (fun p e _ => ServesNewest p e) (init now, []) events ↔
      Along (watch step noteFrame) (fun p e _ => NotBypassed p e) (init now, []) events := by
  let Inv (p : State β γ ε × Frames β) : Prop := Holds p.1 p.2
  have hinit : Inv (init now, []) := holds_init now
  refine along_iff ?_ ?_ hinit events
  · rintro ⟨s, r⟩ e q h -
    exact servesNewest_iff h
  · rintro ⟨s, r⟩ e q h hq -
    obtain ⟨t, ht, rfl⟩ := of_watch hq
    exact h.step ht

def bypassed : List (Event Nat Unit Unit) :=
  [look, .connected 0 connection, .captured 0 (.ok 1), .wait 1000,
    .call "AA" "WYZE_CAKP2JFUS" { noCache := true }, .connected 1 connection, .captured 1 (.ok 2),
    .wait 1000]

/-- The calls come one by one, and the last one is answered with the older frame. -/
theorem older_frame_served :
    Along (watch step noteFrame) (fun p e _ => OneByOne p e) (init 0, []) (bypassed ++ [look]) ∧
      ¬ Along (watch step noteFrame) (fun p e _ => ServesNewest p e) (init 0, [])
        (bypassed ++ [look]) := by
  constructor
  · refine ⟨?_, ?_, ?_, ?_, ?_, ?_, ?_, ?_, ?_, trivial⟩ <;> intro mac model options he
    · rintro c hc
      cases hc
    · cases he
    · cases he
    · cases he
    · intro c hc _
      cases hc with
      | head => exact .inl ⟨1, rfl⟩
      | tail _ hc => cases hc
    · cases he
    · cases he
    · cases he
    · intro c hc _
      cases hc with
      | head => exact .inl ⟨1, rfl⟩
      | tail _ hc =>
        cases hc with
        | head => exact .inl ⟨2, rfl⟩
        | tail _ hc => cases hc
  · intro h
    have hrun : run (watch step noteFrame) (init 0, []) bypassed = some _ := rfl
    have hlast := along_last hrun rfl h
    have hframe := hlast _ _ _ 1 rfl rfl
    cases hframe

end WyzeCams.Snapshot
