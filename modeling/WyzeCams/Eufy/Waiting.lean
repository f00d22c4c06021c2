import WyzeCams.Eufy.Snapshots

/-! Callers of `refreshSnapshot`: what will settle the promise that each of them returned. -/
namespace WyzeCams.Eufy
open Function EventMachine Table

def CaptureRunning (s : State) (g : Nat) : Prop :=
  ∃ (k : Nat) (c : Capture), s.captures[k]? = some c ∧ c.pending = g ∧ c.phase = .running

/-- The promise of refresh `g` is settled, or its timer is armed, or a capture that will settle
it is running. -/
def Served (s : State) (g : Nat) : Prop :=
  ∃ r : Refresh, s.refreshes[g]? = some r ∧
    (r.promise ≠ .pending ∨ r.timer = true ∨ CaptureRunning s g)

/-- Every call that returned the promise of a refresh is served. The remaining unsettled calls
still await their own `startStationLivestream`. -/
def NoneHanging (s : State) : Prop :=
  ∀ c g : Nat, s.calls[c]? = some (Call.waiting g) → Served s g

def Settling (s : State) (g : Nat) : Prop :=
  (∃ r : Refresh, s.refreshes[g]? = some r ∧ r.promise ≠ .pending) ∨ CaptureRunning s g

/-- When the `startStationLivestream` of a refresh fails, no other call has joined the refresh,
or its promise is settled or about to be settled by a running capture. -/
def FailsAlone (s : State) : Event → Prop
  | .snapshotStartSettled c ok => ok = false → ∀ g, s.calls[c]? = some (Call.starting g) →
      (∀ c' : Nat, s.calls[c']? ≠ some (Call.waiting g)) ∨ Settling s g
  | _ => True

structure Attended (s : State) : Prop where
  tracked : Tracked s
  waiting : NoneHanging s
  starting : ∀ c g : Nat, s.calls[c]? = some (Call.starting g) → Served s g

theorem attended_init : Attended init :=
  ⟨tracked_init, by simp [NoneHanging, init], by simp [init]⟩

theorem CaptureRunning.mono {s t : State} {g : Nat} (h : CaptureRunning s g)
    (hkeep : ∀ (k : Nat) (c : Capture), s.captures[k]? = some c → c.phase = .running →
      t.captures[k]? = some c) : CaptureRunning t g := by
  obtain ⟨k, c, hk, hg, hp⟩ := h
  exact ⟨k, c, hkeep k c hk hp, hg, hp⟩

theorem Served.congr {s t : State} {g : Nat} (hs : Served s g)
    (hr : t.refreshes = s.refreshes) (hc : t.captures = s.captures) : Served t g := by
  rwa [Served, CaptureRunning, hr, hc]

theorem Served.of_part {s t : State} {g : Nat} (hs : Served s g)
    (h : snapshotPart t = snapshotPart s) : Served t g := by
  simp only [snapshotPart, Prod.mk.injEq] at h
  exact hs.congr h.2.1 h.2.2.2

/-- Clearing the timer of a refresh keeps the others served, and itself once it is settled. -/
theorem Served.clearTimer {s : State} {g h : Nat} (hs : Served s g)
    (hset : h = g → Settling s g) : Served (clearTimer s h) g := by
  obtain ⟨r, hr, hor⟩ := hs
  refine ⟨_, clearTimer_get hr, ?_⟩
  by_cases he : h = g
  · rw [if_pos he]
    obtain ⟨x, hx, hxp⟩ | hrun := hset he
    · rw [hr] at hx
      cases hx
      exact .inl hxp
    · exact .inr (.inr hrun)
  · rw [if_neg he]
    exact hor

/-- Settling any promise keeps every refresh served. -/
theorem Served.settlePromise {s : State} {g : Nat} (hs : Served s g) (h : Nat) (o : Outcome) :
    Served (settlePromise s h o) g := by
  obtain ⟨r, hr, hor⟩ := hs
  refine ⟨_, settlePromise_get o hr, ?_⟩
  split_ifs
  · obtain hp | ht | hrun := hor
    · exact .inl (by rwa [settle_keeps o hp])
    · exact .inr (.inl (by simpa using ht))
    · exact .inr (.inr hrun)
  · exact hor

theorem served_of_settled {s : State} {g : Nat} {r : Refresh} (hr : s.refreshes[g]? = some r)
    {o : Outcome} (ho : o ≠ .pending) : Served (settlePromise s g o) g := by
  refine ⟨_, settlePromise_get o hr, .inl ?_⟩
  rw [if_pos rfl]
  exact settle_promise ho r

theorem Served.captureSettled {s : State} {g k : Nat} {c : Capture} (hs : Served s g)
    (hk : s.captures[k]? = some c) (ok : Bool) : Served (captureSettled s k c ok) g := by
  obtain ⟨r, hr, hor⟩ := hs
  refine ⟨_, settlePromise_get _ hr, ?_⟩
  by_cases he : c.pending = g
  · rw [if_pos he]
    exact .inl (settle_promise (by cases ok <;> simp) r)
  · rw [if_neg he]
    obtain hp | ht | ⟨j, x, hx, hxg, hxp⟩ := hor
    · exact .inl hp
    · exact .inr (.inl ht)
    · have hjk : k ≠ j := by
        rintro rfl
        rw [hk] at hx
        cases hx
        exact he hxg
      exact .inr (.inr ⟨j, x, by simp [Eufy.captureSettled, Eufy.settlePromise, hjk, hx], hxg, hxp⟩)

theorem Served.captureCleanup {s : State} {g k : Nat} {c : Capture} (ht : Tracked s)
    (hs : Served s g) (hk : s.captures[k]? = some c) (hp : c.phase = .settled) :
    Served (captureCleanup s k c) g := by
  have hmove : Served { s with captures := s.captures.set k { c with phase := .finished } } g := by
    obtain ⟨r, hr, hor⟩ := hs
    refine ⟨r, hr, ?_⟩
    obtain hp' | ht' | hrun := hor
    · exact .inl hp'
    · exact .inr (.inl ht')
    · refine .inr (.inr (hrun.mono fun j x hx hxp => ?_))
      have hjk : k ≠ j := by
        rintro rfl
        rw [hk] at hx
        cases hx
        simp [hp] at hxp
      simp [hjk, hx]
  have hclear := hmove.clearTimer (h := c.pending) fun he => by
    obtain ⟨r, hr, -, hrp⟩ := ht.captured k c hk
    exact .inl ⟨r, he ▸ hr, hrp (by simp [hp])⟩
  exact hclear.congr rfl rfl

theorem Served.livestreamStart {s : State} {g : Nat} (hs : Served s g) (sn : Serial) :
    Served (livestreamStart s sn) g := by
  unfold Eufy.livestreamStart
  split
  · obtain ⟨r, hr, hor⟩ := hs
    refine ⟨r, hr, hor.imp id (Or.imp id fun hrun => hrun.mono fun j x hx hxp => ?_)⟩
    exact getElem?_old hx
  · split
    · exact hs.congr rfl rfl
    · exact hs.congr rfl rfl

theorem Served.refresh {s : State} {g : Nat} (hs : Served s g) (sn : Serial) :
    Served (refreshSnapshot s sn) g := by
  unfold refreshSnapshot
  split_ifs
  · exact hs.congr rfl rfl
  · exact hs.congr rfl rfl
  · split
    · exact hs.congr rfl rfl
    · obtain ⟨r, hr, hor⟩ := hs
      exact ⟨r, getElem?_old hr, hor⟩

/-- A refresh stays served unless its own `startStationLivestream` fails too early. -/
theorem Served.step {s t : State} {e : Event} {g : Nat} (ht : Tracked s)
    (h : step s e = some t) (hs : Served s g)
    (hfail : ∀ c, e = .snapshotStartSettled c false → s.calls[c]? = some (Call.starting g) →
      Settling s g) : Served t g := by
  cases transition_of_step h with
  | refresh sn => exact hs.refresh sn
  | @snapshotStarted c g' r hc hr ok =>
    cases ok with
    | true => exact hs.congr rfl rfl
    | false =>
      have hclear := hs.clearTimer (h := g') fun he => hfail c rfl (he ▸ hc)
      exact hclear.congr rfl rfl
  | @snapshotTimer g' r hr harmed =>
    have hget := clearTimer_get (g := g') hr
    by_cases he : g' = g
    · subst he
      exact served_of_settled (s := stopStationLivestream
        (deletePending (Eufy.clearTimer s g') r.sn) r.sn) hget (by simp)
    · have hclear := hs.clearTimer (h := g') fun h => absurd h he
      have hstop : Served (stopStationLivestream
          (deletePending (Eufy.clearTimer s g') r.sn) r.sn) g := hclear.congr rfl rfl
      exact hstop.settlePromise g' .rejected
  | livestreamStart sn => exact hs.livestreamStart sn
  | captureSettled hk hp ok => exact hs.captureSettled hk ok
  | captureCleanup hk hp => exact hs.captureCleanup ht hk hp
  | _ => exact hs.of_part (snapshotPart_live (transition_of_step h) trivial)

theorem calls_of_part {s t : State} (h : snapshotPart t = snapshotPart s) :
    t.calls = s.calls :=
  congrArg (fun p => p.2.2.1) h

/-- Where the calls of the next state come from. -/
theorem calls_step {s t : State} {e : Event} (h : step s e = some t) (c : Nat) (x : Call)
    (hx : t.calls[c]? = some x) :
    s.calls[c]? = some x ∨ x = .settled ∨
    (∃ sn g, e = .refresh sn ∧ s.pendingSnapshots sn = some g ∧ x = .waiting g) ∨
    (∃ sn, t.refreshes = s.refreshes ++ [⟨sn, true, .pending⟩] ∧
      x = .starting s.refreshes.length) ∨
    (∃ g, s.calls[c]? = some (.starting g) ∧ e = .snapshotStartSettled c true ∧
      x = .waiting g) := by
  cases transition_of_step h with
  | refresh sn =>
    unfold refreshSnapshot at hx ⊢
    split_ifs at hx ⊢
    · obtain hx | ⟨-, rfl⟩ := getElem?_concat hx
      · exact .inl hx
      · exact .inr (.inl rfl)
    · obtain hx | ⟨-, rfl⟩ := getElem?_concat hx
      · exact .inl hx
      · exact .inr (.inl rfl)
    · split at hx
      · rename_i g hg
        obtain hx | ⟨-, rfl⟩ := getElem?_concat hx
        · exact .inl hx
        · exact .inr (.inr (.inl ⟨sn, g, rfl, hg, rfl⟩))
      · rename_i hg
        obtain hx | ⟨-, rfl⟩ := getElem?_concat hx
        · exact .inl hx
        · exact .inr (.inr (.inr (.inl ⟨sn, rfl, rfl⟩)))
  | @snapshotStarted c' g r hc hr ok =>
    cases ok with
    | true =>
      obtain ⟨rfl, rfl⟩ | ⟨-, hx⟩ := getElem?_replace hx
      · exact .inr (.inr (.inr (.inr ⟨g, hc, rfl, rfl⟩)))
      · exact .inl hx
    | false =>
      obtain ⟨-, rfl⟩ | ⟨-, hx⟩ := getElem?_replace hx
      · exact .inr (.inl rfl)
      · exact .inl hx
  | livestreamStart sn =>
    unfold livestreamStart at hx
    split at hx
    · exact .inl hx
    · split at hx <;> exact .inl hx
  | viewerConnects sn =>
    have hcalls := calls_of_part (snapshotPart_stopSession s sn)
    exact .inl (hcalls ▸ hx)
  | closes hv ho =>
    have hcalls := calls_of_part (snapshotPart_live (transition_of_step h) trivial)
    exact .inl (hcalls ▸ hx)
  | _ => exact .inl hx

/-- A caller whose call did not move still has a served refresh: only the caller whose own
start failed loses it, and that call is settled. -/
theorem Attended.keep {s t : State} {e : Event} (hs : Attended s) (h : step s e = some t)
    (hf : FailsAlone s e) {c g : Nat}
    (hc : s.calls[c]? = some (.waiting g) ∨ s.calls[c]? = some (.starting g))
    (hsame : t.calls[c]? = s.calls[c]?) : Served t g := by
  have hsrv : Served s g := hc.elim (hs.waiting c g) (hs.starting c g)
  refine hsrv.step hs.tracked h fun c' he hc' => ?_
  subst he
  obtain hnone | hset := hf rfl g hc'
  · obtain hc | hc := hc
    · exact absurd hc (hnone c)
    · -- the starter of `g` is unique, and its call has just been settled
      have hcc := hs.tracked.starter c c' g hc hc'
      subst hcc
      cases transition_of_step h with
      | snapshotStarted hc₂ hr =>
        have hlt : c < s.calls.length := (List.getElem?_eq_some_iff.mp hc).1
        rw [hc] at hsame
        simp [snapshotStarted, hlt, deletePending, clearTimer] at hsame
  · exact hset

theorem served_of_entry {s : State} (hs : Tracked s) {sn : Serial} {g : Nat}
    (hg : s.pendingSnapshots sn = some g) : Served s g := by
  obtain ⟨r, hr, -, ht⟩ := hs.entry sn g hg
  exact ⟨r, hr, .inr (.inl ht)⟩

theorem Attended.step {s t : State} {e : Event} (hs : Attended s) (h : step s e = some t)
    (hf : FailsAlone s e) : Attended t := by
  refine ⟨hs.tracked.step h, fun c g hc => ?_, fun c g hc => ?_⟩
  · obtain hold | hx | ⟨sn, g', he, hg', hx⟩ | ⟨sn, -, hx⟩ | ⟨g', hc', he, hx⟩ :=
      calls_step h c _ hc
    · exact hs.keep h hf (.inl hold) (hc.trans hold.symm)
    · cases hx
    · -- joined: the entry that was found has its timer armed
      cases hx
      exact (served_of_entry hs.tracked hg').step hs.tracked h fun _ he' => by simp [he] at he'
    · cases hx
    · -- the livestream was started: the caller goes on to await its own refresh
      cases hx
      exact (hs.starting c g hc').step hs.tracked h fun _ he' => by simp [he] at he'
  · obtain hold | hx | ⟨sn, g', -, -, hx⟩ | ⟨sn, hr, hx⟩ | ⟨g', -, -, hx⟩ :=
      calls_step h c _ hc
    · exact hs.keep h hf (.inr hold) (hc.trans hold.symm)
    · cases hx
    · cases hx
    · cases hx
      exact ⟨⟨sn, true, .pending⟩, by simp [hr], .inr (.inl rfl)⟩
    · cases hx

/-- A failed start that is not alone leaves a joined caller without anything to settle it. -/
theorem failsAlone_of_noneHanging {s t : State} {e : Event} (h : step s e = some t)
    (ht : NoneHanging t) : FailsAlone s e := by
  cases transition_of_step h with
  | @snapshotStarted c g r hc hr ok =>
    intro hok g' hc'
    rw [hc] at hc'
    cases hc'
    subst hok
    by_cases hset : Settling s g
    · exact .inr hset
    refine .inl fun c' hw => ?_
    have hne : c ≠ c' := by
      rintro rfl
      rw [hc] at hw
      cases hw
    have hw' : (snapshotStarted s c g r.sn false).calls[c']? = some (Call.waiting g) := by
      simp [snapshotStarted, deletePending, clearTimer, hne, hw]
    obtain ⟨x, hx, hor⟩ := ht c' g hw'
    have hx' : (clearTimer s g).refreshes[g]? = some x := hx
    rw [clearTimer_get hr, if_pos rfl] at hx'
    cases hx'
    obtain hp | htimer | hrun := hor
    · exact hset (.inl ⟨r, hr, hp⟩)
    · cases htimer
    · exact hset (.inr hrun)
  | _ => trivial

/-- No caller of `refreshSnapshot` is left hanging, along every run, exactly when no
`startStationLivestream` fails while another caller has joined its refresh. -/
theorem noneHanging_iff_failsAlone (es : List Event) :
    Along step (fun _ _ t => NoneHanging t) init es ↔
      Along step (fun s e _ => FailsAlone s e) init es := by
  refine along_iff ?_ ?_ attended_init es
  · intro s e t hs h
    exact ⟨failsAlone_of_noneHanging h, fun hf => (hs.step h hf).waiting⟩
  · intro s e t hs h hf
    exact hs.step h hf

/-- The start of the first caller fails after a second caller has joined: the second one then
awaits a promise whose timer has been cleared. -/
theorem failed_start_hangs :
    ∃ es s, run step init es = some s ∧ ¬ NoneHanging s := by
  refine ⟨[.cloud true, .refresh "T8", .refresh "T8", .snapshotStartSettled 0 false], _, rfl, ?_⟩
  intro h
  obtain ⟨r, hr, hor⟩ := h 1 0 rfl
  cases hr
  obtain hp | ht | ⟨k, c, hk, -⟩ := hor
  · exact hp rfl
  · cases ht
  · cases hk

end WyzeCams.Eufy
