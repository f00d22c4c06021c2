import WyzeCams.Capture.StreamFrame

/-! Which orders of events leave a promise of `captureStreamFrame` rejected without a handler at
the end of a turn. -/
namespace WyzeCams.StreamFrame
open Function EventMachine

/-- `ffmpegOutcome` is decided by the first `error` or `close` of ffmpeg, and it fails unless
the process closes after it has written output. -/
def frameFails : Bool → List Event → Bool
  | _, [] => false
  | _, .ffmpegError :: _ => true
  | stdout, .ffmpegClose :: _ => !stdout
  | _, .ffmpegData :: es => frameFails true es
  | stdout, _ :: es => frameFails stdout es

/-- The signaling fails with an error of the socket, a close with another code than 1000, or a
message that the peer connection does not accept, unless an answer was applied before. -/
def signalFails : List Event → Bool
  | [] => false
  | .wsError :: _ => true
  | .wsClose code :: es => code ≠ 1000 || signalFails es
  | .applied _ false :: _ => true
  | .applied .answer true :: _ => false
  | _ :: es => signalFails es

/-- The events of a turn and of those before it end in no failure that nobody awaits: when the
setup throws after ffmpeg was spawned, ffmpeg does not fail; otherwise the signaling does not
fail before the local description is set. -/
def Covered (setup : Setup) (pre : List Event) : Prop :=
  match setup with
  | .noFfmpeg => True
  | .noSignaling => frameFails false pre = false
  | .ready => signalFails pre = true → Event.localSettled true ∈ pre

def Status.ofBool (ok : Bool) : Status := if ok then .fulfilled else .rejected

def Promise.settle (p : Promise) (ok : Bool) : Promise :=
  if p.status = .pending then { p with status := .ofBool ok } else p

theorem settle_get {s : State} {n m : Name} {p : Promise} (hp : s.promises m = some p) (ok : Bool) :
    (settle s n ok).promises m = some (if n = m then p.settle ok else p) := by
  by_cases hnm : n = m
  · subst hnm
    unfold StreamFrame.settle
    split
    · rename_i handled h
      rw [hp, Option.some.injEq] at h
      subst h
      simp [Promise.settle, Status.ofBool]
    · rename_i h
      have hne : p.status ≠ .pending := by
        intro he
        exact h p.handled (by rw [hp, ← he])
      simp [Promise.settle, hne, hp]
  · have hmn : m ≠ n := fun he => hnm he.symm
    unfold StreamFrame.settle
    split
    · simp [hnm, hmn, hp]
    · simp [hnm, hp]

theorem race_get {s : State} {n : Name} {p : Promise} (hp : s.promises n = some p) (x : Phase) :
    (race s x).promises n = some (if n ∈ members x then { p with handled := true } else p) := by
  unfold race
  split_ifs with h <;> simp [h, hp]

@[simp] theorem settle_stdout (s : State) (n : Name) (ok : Bool) :
    (settle s n ok).stdout = s.stdout := by
  unfold StreamFrame.settle
  split <;> rfl

@[simp] theorem settle_handled (p : Promise) (ok : Bool) : (p.settle ok).handled = p.handled := by
  unfold Promise.settle
  split_ifs <;> rfl

def settles (s : State) : Event → Name → Option Bool
  | .ffmpegError, .ffmpegOutcome => some false
  | .ffmpegClose, .ffmpegOutcome => some s.stdout
  | .wsOpen, .openPromise => some true
  | .wsError, .openPromise => some false
  | .wsError, .remoteAnswered => some false
  | .wsClose code, .remoteAnswered => if code ≠ 1000 then some false else none
  | .applied _ false, .remoteAnswered => some false
  | .applied .answer true, .remoteAnswered => some true
  | .timer, .timeout => some false
  | _, _ => none

def attaches (s : State) (e : Event) (n : Name) : Prop :=
  e = .localSettled true ∧ n ∈ members .race2 ∨
    e = .resume ∧ s.phase = .race2 ∧ s.winner = some true ∧ n ∈ members .race3

/-- One event settles a promise as `settles` says, and gives it a handler as `attaches` says. -/
theorem promise_step {s t : State} {e : Event} (h : step s e = some t) {n : Name} {p : Promise}
    (hp : s.promises n = some p) : ∃ q, t.promises n = some q ∧
      q.status = ((settles s e n).elim p (p.settle ·)).status ∧
      (q.handled = true ↔ p.handled = true ∨ attaches s e n) := by
  have hsame : t.promises = s.promises → settles s e n = none → ¬ attaches s e n →
      ∃ q, t.promises n = some q ∧
        q.status = ((settles s e n).elim p (p.settle ·)).status ∧
        (q.handled = true ↔ p.handled = true ∨ attaches s e n) :=
    fun ht hn he => ⟨p, by rw [ht, hp], by rw [hn]; rfl, by simp [he]⟩
  cases e with
  | ffmpegData =>
    obtain ⟨-, rfl⟩ := of_guard h
    exact hsame rfl rfl (by simp [attaches])
  | ffmpegError =>
    obtain ⟨-, rfl⟩ := of_guard h
    refine ⟨_, settle_get hp false, ?_⟩
    cases n <;> simp [settles, attaches]
  | ffmpegClose =>
    obtain ⟨-, rfl⟩ := of_guard h
    refine ⟨_, settle_get hp s.stdout, ?_⟩
    cases n <;> simp [settles, attaches]
  | wsOpen =>
    obtain ⟨-, rfl⟩ := of_guard h
    refine ⟨_, settle_get hp true, ?_⟩
    cases n <;> simp [settles, attaches]
  | wsError =>
    obtain ⟨-, rfl⟩ := of_guard h
    refine ⟨_, settle_get (settle_get hp false) false, ?_⟩
    cases n <;> simp [settles, attaches]
  | wsClose code =>
    simp only [step] at h
    split_ifs at h with hc hcode
    · cases h
      have hu : { s with wsClosed := true }.promises n = some p := hp
      refine ⟨_, settle_get hu false, ?_⟩
      cases n <;> simp [settles, attaches, hcode]
    · cases h
      refine hsame rfl ?_ (by simp [attaches])
      cases n <;> simp [settles] at hcode ⊢
      exact hcode
  | message m =>
    obtain ⟨-, rfl⟩ := of_guard h
    exact hsame rfl rfl (by simp [attaches])
  | applied m ok =>
    simp only [step] at h
    split_ifs at h
    cases h
    have hu : { s with applying := update s.applying m (s.applying m - 1) }.promises n = some p :=
      hp
    cases ok with
    | false =>
      refine ⟨_, settle_get hu false, ?_⟩
      cases n <;> simp [settles, attaches]
    | true =>
      cases m with
      | answer =>
        refine ⟨_, settle_get hu true, ?_⟩
        cases n <;> simp [settles, attaches]
      | candidate => exact hsame rfl (by cases n <;> rfl) (by simp [attaches])
  | timer =>
    obtain ⟨-, rfl⟩ := of_guard h
    refine ⟨_, settle_get hp false, ?_⟩
    cases n <;> simp [settles, attaches]
  | offerSettled ok =>
    simp only [step] at h
    split_ifs at h <;> cases h <;> exact hsame rfl rfl (by simp [attaches])
  | localSettled ok =>
    simp only [step] at h
    split_ifs at h with hph hok
    · cases h
      subst hok
      refine ⟨_, race_get hp .race2, ?_⟩
      cases n <;> simp [settles, attaches, members]
    · cases h
      exact hsame rfl rfl (by simp [attaches, hok])
  | resume =>
    obtain ⟨ok, hw, h⟩ := Option.bind_eq_some_iff.mp h
    unfold resume at h
    split at h <;> rename_i hph <;> cases h
    · exact hsame rfl rfl (by simp [attaches, hph])
    · refine ⟨_, race_get hp .race3, ?_⟩
      cases n <;> simp [settles, attaches, members, hph, hw]
    · exact hsame rfl rfl (by simp [attaches, hph])
    · exact hsame rfl rfl (by simp [attaches, hw])
    · exact hsame rfl rfl (by simp [attaches, hph])
  | turnEnd =>
    cases h
    exact hsame rfl rfl (by simp [attaches])

theorem settle_pending {p : Promise} (h : p.status = .pending) (ok : Bool) :
    (p.settle ok).status = .ofBool ok := by
  simp [Promise.settle, h]

theorem settle_settled {p : Promise} (h : p.status ≠ .pending) (ok : Bool) : p.settle ok = p := by
  simp [Promise.settle, h]

/-- A promise that has settled stays as it is. -/
theorem status_run {s t : State} {es : List Event} (h : run step s es = some t) {n : Name}
    {p : Promise} (hp : s.promises n = some p) (hne : p.status ≠ .pending) :
    ∃ q, t.promises n = some q ∧ q.status = p.status := by
  induction es generalizing s p with
  | nil => cases h; exact ⟨p, hp, rfl⟩
  | cons e es ih =>
    obtain ⟨u, hu, hrun⟩ := Option.bind_eq_some_iff.mp h
    obtain ⟨q, hq, hst, -⟩ := promise_step hu hp
    have hsame : q.status = p.status := by
      rw [hst]
      cases settles s e n with
      | none => rfl
      | some ok => simp [settle_settled hne]
    obtain ⟨q', hq', hst'⟩ := ih hrun hq (by rw [hsame]; exact hne)
    exact ⟨q', hq', hst'.trans hsame⟩

/-- A pending promise is rejected by a run exactly when `fails` says so, where `fails` reads the
events one by one and stops at the first that settles the promise. -/
theorem rejected_run {n : Name} (fails : State → List Event → Bool)
    (hnil : ∀ s, fails s [] = false)
    (hcons : ∀ s e u es, step s e = some u →
      fails s (e :: es) = (settles s e n).elim (fails u es) (!·))
    {s t : State} {es : List Event} (h : run step s es = some t) {p : Promise}
    (hp : s.promises n = some p) (hpend : p.status = .pending) :
    ∃ q, t.promises n = some q ∧ (q.status = .rejected ↔ fails s es = true) := by
  induction es generalizing s p with
  | nil => cases h; exact ⟨p, hp, by simp [hpend, hnil]⟩
  | cons e es ih =>
    obtain ⟨u, hu, hrun⟩ := Option.bind_eq_some_iff.mp h
    obtain ⟨q, hq, hst, -⟩ := promise_step hu hp
    rw [hcons s e u es hu]
    cases hset : settles s e n with
    | none =>
      rw [hset] at hst
      exact ih hrun hq (hst.trans hpend)
    | some ok =>
      rw [hset, Option.elim_some, settle_pending hpend] at hst
      have hne : q.status ≠ .pending := by
        rw [hst]
        cases ok <;> simp [Status.ofBool]
      obtain ⟨q', hq', hst'⟩ := status_run hrun hq hne
      refine ⟨q', hq', ?_⟩
      rw [hst', hst]
      cases ok <;> simp [Status.ofBool]

theorem stdout_step {s t : State} {e : Event} (h : step s e = some t) :
    t.stdout = (s.stdout || decide (e = .ffmpegData)) := by
  cases e with
  | resume =>
    obtain ⟨ok, hw, h⟩ := Option.bind_eq_some_iff.mp h
    unfold resume at h
    split at h <;> cases h <;> simp [race]
  | applied m ok =>
    simp only [step] at h
    split_ifs at h
    cases h
    cases m <;> cases ok <;> simp
  | turnEnd => cases h; simp
  | localSettled ok =>
    simp only [step] at h
    split_ifs at h <;> cases h <;> simp [race]
  | _ =>
    simp only [step] at h
    split_ifs at h <;> cases h <;> simp

theorem frameFails_cons {s t : State} {e : Event} (h : step s e = some t) (es : List Event) :
    frameFails s.stdout (e :: es) =
      (settles s e .ffmpegOutcome).elim (frameFails t.stdout es) (!·) := by
  rw [stdout_step h]
  cases e <;> simp [frameFails, settles]

theorem signalFails_cons (s : State) (e : Event) (es : List Event) :
    signalFails (e :: es) = (settles s e .remoteAnswered).elim (signalFails es) (!·) := by
  cases e with
  | wsClose code => by_cases hc : code = 1000 <;> simp [signalFails, settles, hc]
  | applied m ok => cases m <;> cases ok <;> rfl
  | _ => rfl

theorem remoteAnswered_handled_run {s t : State} {es : List Event} (h : run step s es = some t)
    {p : Promise} (hp : s.promises .remoteAnswered = some p) :
    ∃ q, t.promises .remoteAnswered = some q ∧
      (q.handled = true ↔ p.handled = true ∨ Event.localSettled true ∈ es) := by
  induction es generalizing s p with
  | nil => cases h; exact ⟨p, hp, by simp⟩
  | cons e es ih =>
    obtain ⟨u, hu, hrun⟩ := Option.bind_eq_some_iff.mp h
    obtain ⟨q, hq, -, hans⟩ := promise_step hu hp
    obtain ⟨r, hr, hans'⟩ := ih hrun hq
    have hatt : attaches s e .remoteAnswered ↔ .localSettled true = e := by
      simp [attaches, members, eq_comm]
    exact ⟨r, hr, by rw [hans', hans, hatt, List.mem_cons, or_assoc]⟩

theorem handled_run {s t : State} {es : List Event} (h : run step s es = some t) {n : Name}
    {p : Promise} (hp : s.promises n = some p) (hh : p.handled = true) :
    ∃ q, t.promises n = some q ∧ q.handled = true := by
  induction es generalizing s p with
  | nil => cases h; exact ⟨p, hp, hh⟩
  | cons e es ih =>
    obtain ⟨u, hu, hrun⟩ := Option.bind_eq_some_iff.mp h
    obtain ⟨q, hq, -, hq'⟩ := promise_step hu hp
    exact ih hrun hq (hq'.mpr (.inl hh))

theorem settle_none {s : State} {n m : Name} (hm : s.promises m = none) (ok : Bool) :
    (settle s n ok).promises m = none := by
  unfold StreamFrame.settle
  split
  · rename_i handled h
    have hmn : m ≠ n := by
      rintro rfl
      simp [hm] at h
    simp [hmn, hm]
  · exact hm

theorem race_none {s : State} {n : Name} (hn : s.promises n = none) (x : Phase) :
    (race s x).promises n = none := by
  simp [race, hn]

/-- No event creates a promise. -/
theorem none_step {s t : State} {e : Event} (h : step s e = some t) {n : Name}
    (hn : s.promises n = none) : t.promises n = none := by
  cases e with
  | resume =>
    obtain ⟨ok, hw, h⟩ := Option.bind_eq_some_iff.mp h
    unfold resume at h
    split at h <;> cases h
    · exact hn
    · exact race_none hn .race3
    · exact hn
    · exact hn
    · exact hn
  | localSettled ok =>
    simp only [step] at h
    split_ifs at h <;> cases h
    · exact race_none hn .race2
    · exact hn
  | applied m ok =>
    simp only [step] at h
    split_ifs at h
    cases h
    have hu : { s with applying := update s.applying m (s.applying m - 1) }.promises n = none := hn
    cases m <;> cases ok
    · exact settle_none hu false
    · exact settle_none hu true
    · exact settle_none hu false
    · exact hu
  | wsClose code =>
    simp only [step] at h
    have hu : { s with wsClosed := true }.promises n = none := hn
    split_ifs at h <;> cases h
    · exact settle_none hu false
    · exact hu
  | wsError =>
    obtain ⟨-, rfl⟩ := of_guard h
    exact settle_none (settle_none hn false) false
  | turnEnd => cases h; exact hn
  | ffmpegError | ffmpegClose | wsOpen | timer =>
    simp only [step] at h
    split_ifs at h
    cases h
    exact settle_none hn _
  | ffmpegData | message | offerSettled =>
    simp only [step] at h
    split_ifs at h <;> cases h <;> exact hn

theorem none_run {s t : State} {es : List Event} (h : run step s es = some t) {n : Name}
    (hn : s.promises n = none) : t.promises n = none := by
  induction es generalizing s with
  | nil => cases h; exact hn
  | cons e es ih =>
    obtain ⟨u, hu, hrun⟩ := Option.bind_eq_some_iff.mp h
    exact ih hrun (none_step hu hn)

@[simp] theorem settle_phase (s : State) (n : Name) (ok : Bool) :
    (settle s n ok).phase = s.phase := by
  unfold StreamFrame.settle
  split <;> rfl

theorem settle_winner {s : State} (hp : s.phase = .left) (hw : s.winner = none) (n : Name)
    (ok : Bool) : (settle s n ok).winner = none := by
  unfold StreamFrame.settle
  split <;> simp [hp, hw, members]

/-- Once `captureStreamFrame` has left, no event gets it to race again. -/
theorem left_step {s t : State} {e : Event} (h : step s e = some t) (hp : s.phase = .left)
    (hw : s.winner = none) : t.phase = .left ∧ t.winner = none := by
  cases e with
  | resume => simp [step, hw] at h
  | offerSettled ok => simp [step, hp] at h
  | localSettled ok => simp [step, hp] at h
  | turnEnd => cases h; exact ⟨hp, hw⟩
  | applied m ok =>
    simp only [step] at h
    split_ifs at h
    cases h
    cases m <;> cases ok <;> simp [settle_winner, hp, hw]
  | _ =>
    simp only [step] at h
    split_ifs at h <;> cases h <;> simp [settle_winner, hp, hw]

/-- A promise without a handler gets none once `captureStreamFrame` has left. -/
theorem unhandled_run {s t : State} {es : List Event} (h : run step s es = some t)
    (hp : s.phase = .left) (hw : s.winner = none) {n : Name} {p : Promise}
    (hn : s.promises n = some p) (hh : p.handled = false) :
    ∃ q, t.promises n = some q ∧ q.handled = false := by
  induction es generalizing s p with
  | nil => cases h; exact ⟨p, hn, hh⟩
  | cons e es ih =>
    obtain ⟨u, hu, hrun⟩ := Option.bind_eq_some_iff.mp h
    obtain ⟨q, hq, -, hq'⟩ := promise_step hu hn
    obtain ⟨hp', hw'⟩ := left_step hu hp hw
    have hatt : ¬ attaches s e n := by
      rintro (⟨rfl, -⟩ | ⟨rfl, -, hw'', -⟩)
      · simp [step, hp] at hu
      · simp [hw] at hw''
    exact ih hrun hp' hw' hq (by simpa [hh, hatt] using hq')

/-- At the end of a turn no rejected promise is without a handler exactly when the events so far
are covered. -/
theorem noUnhandled_iff {setup : Setup} {t : State} {pre : List Event}
    (h : run step (init setup) pre = some t) : NoUnhandled t ↔ Covered setup pre := by
  cases setup with
  | noFfmpeg =>
    refine ⟨fun _ => trivial, fun _ n p hp => ?_⟩
    rw [none_run h rfl] at hp
    cases hp
  | noSignaling =>
    have hff : (init .noSignaling).promises .ffmpegOutcome = some ⟨.pending, false⟩ := rfl
    obtain ⟨q, hq, hst⟩ := rejected_run (fun s es => frameFails s.stdout es) (fun _ => rfl)
      (fun _ _ _ es hstep => frameFails_cons hstep es) h hff rfl
    obtain ⟨q', hq', hh⟩ := unhandled_run h rfl rfl hff rfl
    rw [hq] at hq'
    cases hq'
    constructor
    · intro hall
      have hnot : ¬ frameFails false pre = true := by
        intro hf
        have := hall .ffmpegOutcome q hq (hst.mpr hf)
        simp [hh] at this
      simpa [Covered] using hnot
    · intro hcov n p hp hrej
      cases n with
      | ffmpegOutcome =>
        rw [hq] at hp
        cases hp
        have hf : frameFails false pre = true := hst.mp hrej
        simp [Covered, hf] at hcov
      | _ =>
        rw [none_run h rfl] at hp
        cases hp
  | ready =>
    have hra : (init .ready).promises .remoteAnswered = some ⟨.pending, false⟩ := rfl
    obtain ⟨q, hq, hst⟩ := rejected_run (fun _ es => signalFails es) (fun _ => rfl)
      (fun s e _ es _ => signalFails_cons s e es) h hra rfl
    obtain ⟨q', hq', hh⟩ := remoteAnswered_handled_run h hra
    rw [hq] at hq'
    cases hq'
    constructor
    · intro hall hf
      simpa [hra] using hh.mp (hall .remoteAnswered q hq (hst.mpr hf))
    · intro hcov n p hp hrej
      by_cases hn : n = .remoteAnswered
      · subst hn
        rw [hq] at hp
        cases hp
        exact hh.mpr (.inr (hcov (hst.mp hrej)))
      · -- the first race has given the others a handler
        have hraced : (init .ready).promises n = some ⟨.pending, true⟩ := by
          cases n with
          | remoteAnswered => exact absurd rfl hn
          | _ => rfl
        obtain ⟨r, hr, hrh⟩ := handled_run h hraced rfl
        rw [hr] at hp
        cases hp
        exact hrh

/-- Along every order of events, every promise that has been rejected has a handler at the end
of the turn, exactly when at the end of each turn the events so far are covered. -/
theorem noUnhandled_along_iff (setup : Setup) (es : List Event) :
    Along step (fun s e _ => e = .turnEnd → NoUnhandled s) (init setup) es ↔
      ∀ pre s, pre ++ [.turnEnd] <+: es → run step (init setup) pre = some s →
        Covered setup pre :=
  along_at_iff (fun s => ⟨s, rfl⟩) fun _ _ hrun => noUnhandled_iff hrun

/-- The signaling socket fails before it opens: `remoteAnswered` is rejected in a turn that ends
long before the second race would give it a handler. -/
theorem failed_connection_unhandled :
    ¬ Along step (fun s e _ => e = .turnEnd → NoUnhandled s) (init .ready)
      [.wsError, .wsClose 1006, .resume, .turnEnd] := by
  intro h
  have hlast := along_iff_forall.mp h [.wsError, .wsClose 1006, .resume] .turnEnd _ _
    (List.prefix_refl _) rfl rfl rfl
  exact absurd (hlast .remoteAnswered ⟨.rejected, false⟩ rfl rfl) (by decide)

end WyzeCams.StreamFrame
