import WyzeCams.Eufy.Snapshots

/-! Rejections of the promise that the callers of a refresh share, and the turns of the event
loop in which it gets a handler. -/
namespace WyzeCams.Eufy
open Function EventMachine Table

/-- An event of the server, or the end of the turn of the events before it. -/
inductive TurnEvent where
  | event (e : Event)
  | turnEnd
  deriving DecidableEq, Repr

def turnStep (s : State) : TurnEvent → Option State
  | .event e => step s e
  | .turnEnd => some s

def promiseOf (s : State) (g : Nat) : Option Outcome := (s.refreshes[g]?).map Refresh.promise

/-- Some call has returned the promise of refresh `g`, so that a caller's handler is attached. -/
def HasHandler (s : State) (g : Nat) : Prop := ∃ c : Nat, s.calls[c]? = some (Call.waiting g)

/-- Every rejected promise has a handler. -/
def NoUnhandled (s : State) : Prop :=
  ∀ g, promiseOf s g = some .rejected → HasHandler s g

/-- The event fails refresh `g`: its timer runs out, or a capture of it fails, before anything
else has settled it. -/
def FailsRefresh (g : Nat) (s : State) : TurnEvent → Prop
  | .event (.snapshotTimer g') => g' = g ∧ promiseOf s g = some .pending
  | .event (.captureSettled k ok) => ok = false ∧ promiseOf s g = some .pending ∧
      (s.captures[k]?).map Capture.pending = some g
  | _ => False

/-- The event lets a call go on to await refresh `g`: the livestream has been started for its
first caller, or another caller finds its entry. -/
def Joins (g : Nat) (s : State) : TurnEvent → Prop
  | .event (.snapshotStartSettled c ok) => ok = true ∧ s.calls[c]? = some (Call.starting g)
  | .event (.refresh sn) => s.connected = true ∧ s.sessions sn = none ∧
      s.pendingSnapshots sn = some g
  | _ => False

theorem promiseOf_settle (s : State) (g h : Nat) (o : Outcome) :
    promiseOf (settlePromise s g o) h =
      if g = h ∧ promiseOf s h = some .pending then some o else promiseOf s h := by
  cases hr : s.refreshes[h]? with
  | none => simp [promiseOf, settlePromise, List.getElem?_modify, hr]
  | some r =>
    rw [promiseOf, settlePromise_get o hr]
    simp only [promiseOf, hr, Option.map_some]
    by_cases he : g = h
    · by_cases hp : r.promise = .pending
      · simp [he, Refresh.settle, hp]
      · simp [he, Refresh.settle, hp]
    · simp [he]

theorem promiseOf_clearTimer (s : State) (g h : Nat) :
    promiseOf (clearTimer s g) h = promiseOf s h := by
  cases hr : s.refreshes[h]? with
  | none => simp [promiseOf, clearTimer, List.getElem?_modify, hr]
  | some r =>
    rw [promiseOf, clearTimer_get hr, promiseOf, hr]
    split_ifs <;> rfl

theorem rejected_settle (s : State) (g h : Nat) (o : Outcome) :
    promiseOf (settlePromise s g o) h = some .rejected ↔
      promiseOf s h = some .rejected ∨ o = .rejected ∧ g = h ∧ promiseOf s h = some .pending := by
  rw [promiseOf_settle]
  by_cases hc : g = h ∧ promiseOf s h = some .pending
  · rw [if_pos hc, hc.2]
    simp [hc.1]
  · rw [if_neg hc]
    simp [hc]

theorem promiseOf_refresh (s : State) (sn : Serial) (g : Nat) :
    promiseOf (refreshSnapshot s sn) g = some .rejected ↔ promiseOf s g = some .rejected := by
  unfold refreshSnapshot
  split_ifs
  · rfl
  · rfl
  · split
    · rfl
    · rw [promiseOf, promiseOf, List.getElem?_append]
      split_ifs with hlt
      · rfl
      · rw [List.getElem?_singleton, List.getElem?_eq_none (Nat.le_of_not_lt hlt)]
        split_ifs <;> simp

theorem promiseOf_of_part {s t : State} (h : snapshotPart t = snapshotPart s) (g : Nat) :
    promiseOf t g = promiseOf s g := by
  have hrefreshes : t.refreshes = s.refreshes := congrArg (fun p => p.2.1) h
  rw [promiseOf, promiseOf, hrefreshes]

theorem hasHandler_of_part {s t : State} (h : snapshotPart t = snapshotPart s) (g : Nat) :
    HasHandler t g ↔ HasHandler s g := by
  have hcalls : t.calls = s.calls := congrArg (fun p => p.2.2.1) h
  rw [HasHandler, HasHandler, hcalls]

/-- A promise is rejected by the event that fails its refresh, and by no other. -/
theorem rejected_step {s t : State} {e : TurnEvent} (h : turnStep s e = some t) (g : Nat) :
    promiseOf t g = some .rejected ↔ promiseOf s g = some .rejected ∨ FailsRefresh g s e := by
  cases e with
  | turnEnd =>
    cases h
    exact (or_iff_left id).symm
  | event e =>
    have hstep : step s e = some t := h
    cases transition_of_step hstep with
    | refresh sn => exact (promiseOf_refresh s sn g).trans (or_iff_left id).symm
    | @snapshotStarted c g' r hc hr ok =>
      refine Iff.trans ?_ (or_iff_left id).symm
      cases ok with
      | true => rfl
      | false =>
        have hkeep : promiseOf (snapshotStarted s c g' r.sn false) g = promiseOf s g :=
          promiseOf_clearTimer s g' g
        rw [hkeep]
    | @snapshotTimer g' r hr harmed =>
      have hkeep : promiseOf (stopStationLivestream
          (deletePending (clearTimer s g') r.sn) r.sn) g = promiseOf s g :=
        promiseOf_clearTimer s g' g
      rw [snapshotTimer, rejected_settle, hkeep, FailsRefresh, and_iff_right rfl]
    | livestreamStart sn =>
      refine Iff.trans ?_ (or_iff_left id).symm
      unfold livestreamStart
      split
      · rfl
      · split <;> rfl
    | @captureSettled k c hk hp ok =>
      rw [captureSettled, rejected_settle, FailsRefresh, hk]
      have hkeep : promiseOf { s with
          captures := s.captures.set k { c with phase := .settled } } g = promiseOf s g := rfl
      rw [hkeep]
      cases ok <;> simp [and_comm]
    | @captureCleanup k c hk hp =>
      have hkeep : promiseOf (captureCleanup s k c) g = promiseOf s g :=
        promiseOf_clearTimer { s with
          captures := s.captures.set k { c with phase := .finished } } c.pending g
      rw [hkeep]
      exact (or_iff_left id).symm
    | _ =>
      rw [promiseOf_of_part (snapshotPart_live (transition_of_step hstep) trivial)]
      exact (or_iff_left id).symm

theorem hasHandler_concat (s : State) (x : Call) (g : Nat) :
    (∃ c : Nat, (s.calls ++ [x])[c]? = some (Call.waiting g)) ↔
      HasHandler s g ∨ x = Call.waiting g := by
  constructor
  · rintro ⟨c, hc⟩
    obtain hc | ⟨-, hx⟩ := getElem?_concat hc
    · exact .inl ⟨c, hc⟩
    · exact .inr hx.symm
  · rintro (⟨c, hc⟩ | hx)
    · exact ⟨c, getElem?_old hc⟩
    · exact ⟨s.calls.length, by rw [List.getElem?_concat_length, hx]⟩

/-- The call that awaited its own start moves on; no other call changes. -/
theorem hasHandler_set {s : State} {c g' : Nat} (hc : s.calls[c]? = some (Call.starting g'))
    (x : Call) (g : Nat) :
    (∃ c' : Nat, (s.calls.set c x)[c']? = some (Call.waiting g)) ↔
      HasHandler s g ∨ x = Call.waiting g := by
  constructor
  · rintro ⟨c', hc'⟩
    obtain ⟨-, hx⟩ | ⟨-, hc'⟩ := getElem?_replace hc'
    · exact .inr hx.symm
    · exact .inl ⟨c', hc'⟩
  · rintro (⟨c', hc'⟩ | hx)
    · have hne : c ≠ c' := by
        intro he
        rw [← he, hc] at hc'
        cases hc'
      exact ⟨c', by rw [List.getElem?_set_ne hne, hc']⟩
    · exact ⟨c, by rw [List.getElem?_set_self (List.getElem?_eq_some_iff.mp hc).1, hx]⟩

theorem hasHandler_refresh (s : State) (sn : Serial) (g : Nat) :
    HasHandler (refreshSnapshot s sn) g ↔
      HasHandler s g ∨ Joins g s (.event (.refresh sn)) := by
  rw [HasHandler, Joins]
  unfold refreshSnapshot
  split_ifs with hconn hsess
  · rw [hasHandler_concat]
    simp [hconn]
  · rw [hasHandler_concat]
    have hsome : s.sessions sn ≠ none := Option.isSome_iff_ne_none.mp hsess
    simp [hsome]
  · have hnone : s.sessions sn = none := by simpa using hsess
    have htrue : s.connected = true := by simpa using hconn
    split
    · rename_i g' hp
      rw [hasHandler_concat, hp]
      simp [htrue, hnone]
    · rename_i hp
      rw [hasHandler_concat, hp]
      simp

/-- A refresh gets a handler from the event with which a call joins it, and keeps it. -/
theorem hasHandler_step {s t : State} {e : TurnEvent} (h : turnStep s e = some t) (g : Nat) :
    HasHandler t g ↔ HasHandler s g ∨ Joins g s e := by
  cases e with
  | turnEnd =>
    cases h
    exact (or_iff_left id).symm
  | event e =>
    have hstep : step s e = some t := h
    cases transition_of_step hstep with
    | refresh sn => exact hasHandler_refresh s sn g
    | @snapshotStarted c g' r hc hr ok =>
      cases ok with
      | true =>
        rw [Joins, and_iff_right rfl, hc, Option.some.injEq, Call.starting.injEq]
        exact (hasHandler_set hc (.waiting g') g).trans (by rw [Call.waiting.injEq])
      | false =>
        rw [Joins]
        exact (hasHandler_set hc .settled g).trans (by simp)
    | livestreamStart sn =>
      refine Iff.trans ?_ (or_iff_left id).symm
      unfold livestreamStart
      split
      · rfl
      · split <;> rfl
    | snapshotTimer hr harmed => exact (or_iff_left id).symm
    | captureSettled hk hp ok => exact (or_iff_left id).symm
    | captureCleanup hk hp => exact (or_iff_left id).symm
    | _ =>
      rw [hasHandler_of_part (snapshotPart_live (transition_of_step hstep) trivial)]
      exact (or_iff_left id).symm

/-- When a turn ends, every refresh that has failed in it or before has been joined in it or
before. -/
def Covered (es : List TurnEvent) : Prop :=
  ∀ g, Sometime turnStep (FailsRefresh g) init es → Sometime turnStep (Joins g) init es

theorem noUnhandled_iff {es : List TurnEvent} {s : State} (hrun : run turnStep init es = some s) :
    NoUnhandled s ↔ Covered es := by
  have hrejected : ∀ g, promiseOf s g = some .rejected ↔
      Sometime turnStep (FailsRefresh g) init es := by
    intro g
    have h := sometime_iff (φ := fun s => promiseOf s g = some .rejected)
      (fun _ _ _ (_ : True) hstep => ⟨trivial, rejected_step hstep g⟩) trivial hrun
    rw [h, or_iff_right]
    simp [promiseOf, init]
  have hhandler : ∀ g, HasHandler s g ↔ Sometime turnStep (Joins g) init es := by
    intro g
    have h := sometime_iff (φ := fun s => HasHandler s g)
      (fun _ _ _ (_ : True) hstep => ⟨trivial, hasHandler_step hstep g⟩) trivial hrun
    rw [h, or_iff_right]
    simp [HasHandler, init]
  simp only [NoUnhandled, Covered, hrejected, hhandler]

/-- Along every order of events each rejected promise has a handler at the end of the turn,
exactly when at the end of each turn the events so far are covered. -/
theorem handled_along_iff (es : List TurnEvent) :
    Along turnStep (fun s e _ => e = .turnEnd → NoUnhandled s) init es ↔
      ∀ pre s, pre ++ [.turnEnd] <+: es → run turnStep init pre = some s → Covered pre :=
  along_at_iff (fun s => ⟨s, rfl⟩) fun _ _ hrun => noUnhandled_iff hrun

/-- The timer runs out before `startStationLivestream` has resolved for the only caller. -/
theorem slow_start_unhandled :
    ¬ Along turnStep (fun s e _ => e = .turnEnd → NoUnhandled s) init
      [.event (.cloud true), .event (.refresh "T8010"), .turnEnd, .event (.snapshotTimer 0),
       .turnEnd] := by
  intro h
  have hlast := along_iff_forall.mp h [.event (.cloud true), .event (.refresh "T8010"), .turnEnd,
    .event (.snapshotTimer 0)] .turnEnd _ _ (List.prefix_refl _) rfl rfl rfl
  obtain ⟨c, hc⟩ := hlast 0 rfl
  cases c with
  | zero => cases hc
  | succ c => cases hc

end WyzeCams.Eufy
