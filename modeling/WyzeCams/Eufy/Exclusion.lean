import WyzeCams.Eufy.Snapshots

/-! Snapshots against live viewers: when `eufy.stopStationLivestream(sn)` can be called while
`sessions` holds an entry for `sn`. -/
namespace WyzeCams.Eufy
open Function EventMachine Table

/-- No livestream has been stopped while a viewer's session was stored for the camera. -/
def Spared (s : State) : Prop := ∀ c ∈ s.stops, c.live = false

/-- A refresh of `sn` still has its timer armed, or a capture of `sn` has not finished. -/
def UnderWay (s : State) (sn : Serial) : Prop :=
  (∃ (g : Nat) (r : Refresh), s.refreshes[g]? = some r ∧ r.sn = sn ∧ r.timer = true) ∨
  (∃ (k : Nat) (c : Capture), s.captures[k]? = some c ∧ c.sn = sn ∧ c.phase ≠ .finished)

/-- A viewer registers only while no snapshot of its camera is under way. -/
def RegistersAlone (s : State) : Event → Prop
  | .stopSettled v => ∀ viewer, s.viewers[v]? = some viewer → ¬ UnderWay s viewer.sn
  | _ => True

structure Apart (s : State) : Prop where
  tracked : Tracked s
  spared : Spared s
  apart : ∀ sn, (s.sessions sn).isSome → ¬ UnderWay s sn

theorem apart_init : Apart init :=
  ⟨tracked_init, by simp [Spared, init], by simp [init]⟩

theorem UnderWay.congr {s t : State} (h : snapshotPart t = snapshotPart s) {sn : Serial}
    (hu : UnderWay t sn) : UnderWay s sn := by
  simp only [snapshotPart, Prod.mk.injEq] at h
  obtain ⟨-, hr, -, hc⟩ := h
  rwa [UnderWay, hr, hc] at hu

theorem UnderWay.of_clearTimer {s : State} {g : Nat} {sn : Serial}
    (hu : UnderWay (clearTimer s g) sn) : UnderWay s sn := by
  obtain ⟨h, r, hr, hrs, hrt⟩ | hc := hu
  · simp only [clearTimer, List.getElem?_modify, Option.map_eq_map, Option.map_eq_some_iff] at hr
    obtain ⟨x, hx, rfl⟩ := hr
    split_ifs at hrs hrt with he
    exact .inl ⟨h, x, hx, hrs, hrt⟩
  · exact .inr hc

theorem UnderWay.of_settle {s : State} {g : Nat} {o : Outcome} {sn : Serial}
    (hu : UnderWay (settlePromise s g o) sn) : UnderWay s sn := by
  obtain ⟨h, r, hr, hrs, hrt⟩ | hc := hu
  · simp only [settlePromise, List.getElem?_modify, Option.map_eq_map,
      Option.map_eq_some_iff] at hr
    obtain ⟨x, hx, rfl⟩ := hr
    refine .inl ⟨h, x, hx, ?_, ?_⟩
    · split_ifs at hrs <;> simpa using hrs
    · split_ifs at hrt <;> simpa using hrt
  · exact .inr hc

/-- A capture that moves on was under way before. -/
theorem UnderWay.of_setCapture {s : State} {k : Nat} {c : Capture} (c' : Capture)
    (hc : s.captures[k]? = some c) (hp : c.phase ≠ .finished) (hsn : c'.sn = c.sn) {sn : Serial}
    (hu : UnderWay { s with captures := s.captures.set k c' } sn) : UnderWay s sn := by
  obtain hr | ⟨j, x, hx, hxs, hxp⟩ := hu
  · exact .inl hr
  · obtain ⟨-, rfl⟩ | ⟨-, hx⟩ := getElem?_replace hx
    · exact .inr ⟨k, c, hc, hsn.symm.trans hxs, hp⟩
    · exact .inr ⟨j, x, hx, hxs, hxp⟩

theorem Spared.stop {s : State} (hs : Spared s) {sn : Serial} (hn : s.sessions sn = none) :
    Spared (stopStationLivestream s sn) := by
  intro c hc
  obtain rfl | hc := List.mem_cons.mp hc
  · simp [hn]
  · exact hs c hc

@[simp] theorem kill_stops (s : State) (c : Option Nat) : (kill s c).stops = s.stops := by
  cases c <;> rfl

/-- `stopSession` deletes the entry before it stops the livestream. -/
theorem Spared.stopSession {s : State} (hs : Spared s) (sn : Serial) :
    Spared (stopSession s sn) := by
  unfold Eufy.stopSession
  cases hx : s.sessions sn with
  | none => exact hs
  | some session =>
    have hk : Spared (kill { s with sessions := update s.sessions sn none } session.ffmpeg) := by
      intro c hc
      exact hs c (by simpa using hc)
    exact hk.stop (by simp)

/-- A step of the live-view code that registers nobody. -/
theorem Apart.live {s t : State} (hs : Apart s) (hsnap : snapshotPart t = snapshotPart s)
    (hsess : ∀ sn, (t.sessions sn).isSome → (s.sessions sn).isSome) (hspared : Spared t) :
    Apart t :=
  ⟨hs.tracked.congr hsnap, hspared, fun sn ht hu => hs.apart sn (hsess sn ht) (hu.congr hsnap)⟩

/-- A step of the snapshot code that starts nothing. -/
theorem Apart.snapshot {s t : State} (hs : Apart s) (ht : Tracked t)
    (hsess : t.sessions = s.sessions) (hunder : ∀ sn, UnderWay t sn → UnderWay s sn)
    (hspared : Spared t) : Apart t :=
  ⟨ht, hspared, fun sn hx hu => hs.apart sn (by rwa [hsess] at hx) (hunder sn hu)⟩

theorem isSome_of_update_none {s : State} {sn sn' : Serial}
    (h : (update s.sessions sn none sn').isSome) : (s.sessions sn').isSome := by
  by_cases he : sn' = sn
  · subst he
    simp at h
  · simpa [he] using h

/-- While a snapshot of `sn` is under way nobody is registered for `sn`. -/
theorem Apart.free {s : State} (hs : Apart s) {sn : Serial} (hu : UnderWay s sn) :
    s.sessions sn = none := by
  by_contra hne
  exact hs.apart sn (Option.isSome_iff_ne_none.mpr hne) hu

theorem Apart.refresh {s : State} (hs : Apart s) (sn : Serial) : Apart (refreshSnapshot s sn) := by
  have ht := hs.tracked.refresh sn
  refine ⟨ht, ?_, ?_⟩
  · unfold refreshSnapshot
    split_ifs
    · exact hs.spared
    · exact hs.spared
    · split <;> exact hs.spared
  · intro sn' hx hu
    rw [refreshSnapshot_sessions] at hx
    unfold refreshSnapshot at hu
    split_ifs at hu with h1 h2
    · exact hs.apart sn' hx hu
    · exact hs.apart sn' hx hu
    · split at hu
      · exact hs.apart sn' hx hu
      · obtain ⟨g, r, hr, hrs, hrt⟩ | hc := hu
        · obtain hr | ⟨-, rfl⟩ := getElem?_concat hr
          · exact hs.apart sn' hx (.inl ⟨g, r, hr, hrs, hrt⟩)
          · have he : sn = sn' := hrs
            exact h2 (by rwa [he])
        · exact hs.apart sn' hx (.inr hc)

theorem Apart.livestreamStart {s : State} (hs : Apart s) (sn : Serial) :
    Apart (livestreamStart s sn) := by
  unfold Eufy.livestreamStart
  cases hp : s.pendingSnapshots sn with
  | some g =>
    refine ⟨hs.tracked.capture hp, hs.spared, fun sn' hx hu => ?_⟩
    obtain hr | ⟨k, c, hk, hks, hkp⟩ := hu
    · exact hs.apart sn' hx (.inl hr)
    · obtain hk | ⟨-, rfl⟩ := getElem?_concat hk
      · exact hs.apart sn' hx (.inr ⟨k, c, hk, hks, hkp⟩)
      · -- the entry's refresh is under way, so the new capture starts nothing new
        obtain ⟨r, hr, hrs, hrt⟩ := hs.tracked.entry sn g hp
        exact hs.apart sn' hx (.inl ⟨g, r, hr, hrs.trans hks, hrt⟩)
  | none =>
    cases hx : s.sessions sn with
    | none => exact hs.live rfl (fun _ h => h) (hs.spared.stop hx)
    | some session =>
      refine hs.live rfl (fun sn' h => ?_) hs.spared
      by_cases he : sn' = sn
      · simp [he, hx]
      · simpa [startFfmpeg, he] using h

theorem Apart.registers {s : State} (hs : Apart s) {v : Nat} {viewer : Viewer}
    (hfree : ¬ UnderWay s viewer.sn) : Apart (registerSession s v viewer) := by
  refine ⟨hs.tracked.congr rfl, hs.spared, fun sn hx hu => ?_⟩
  have hu' : UnderWay s sn := hu.congr rfl
  by_cases he : sn = viewer.sn
  · exact hfree (he ▸ hu')
  · exact hs.apart sn (by simpa [registerSession, he] using hx) hu'

/-- What the timer, a failed start and the end of a capture do to a refresh. -/
theorem UnderWay.of_drop {s : State} {g : Nat} {sn : Serial} (sn' : Serial)
    (hu : UnderWay (deletePending (clearTimer s g) sn') sn) : UnderWay s sn := by
  have hc : UnderWay (clearTimer s g) sn := hu
  exact hc.of_clearTimer

theorem Apart.step {s t : State} {e : Event} (hs : Apart s) (h : step s e = some t)
    (hc : RegistersAlone s e) : Apart t := by
  have ht := hs.tracked.step h
  cases transition_of_step h with
  | viewerConnects sn =>
    refine hs.live (snapshotPart_stopSession s sn) (fun sn' hx => ?_)
      (hs.spared.stopSession sn : Spared (stopSession s sn))
    exact isSome_of_update_none (by simpa [startSession] using hx)
  | registers hv hp => exact hs.registers (hc _ hv)
  | connectFails hv hp => exact hs.live rfl (fun _ => isSome_of_update_none) hs.spared
  | startFails hv hp => exact hs.live rfl (fun _ => isSome_of_update_none) hs.spared
  | @closes v viewer hv ho =>
    have hset : Spared { s with
        viewers := s.viewers.set v { viewer with readyState := .CLOSED } } := hs.spared
    refine hs.live (snapshotPart_stopSession _ _) (fun sn' hx => ?_) (hset.stopSession viewer.sn)
    exact isSome_of_update_none (by simpa [viewerClosed] using hx)
  | refresh sn => exact hs.refresh sn
  | @snapshotStarted c g r hcall hr ok =>
    cases ok with
    | true => exact hs.snapshot ht rfl (fun _ hu => hu) hs.spared
    | false => exact hs.snapshot ht rfl (fun _ hu => UnderWay.of_drop r.sn hu) hs.spared
  | @snapshotTimer g r hr harmed =>
    have hfree : s.sessions r.sn = none := hs.free (.inl ⟨g, r, hr, rfl, harmed⟩)
    have hdrop : Spared (deletePending (clearTimer s g) r.sn) := hs.spared
    refine hs.snapshot ht rfl (fun _ hu => UnderWay.of_drop r.sn hu.of_settle) ?_
    exact hdrop.stop hfree
  | livestreamStart sn => exact hs.livestreamStart sn
  | @captureSettled k c hk hp ok =>
    refine hs.snapshot ht rfl (fun sn hu => ?_) hs.spared
    exact UnderWay.of_setCapture { c with phase := .settled } hk (by simp [hp]) rfl hu.of_settle
  | @captureCleanup k c hk hp =>
    have hfree : s.sessions c.sn = none := hs.free (.inr ⟨k, c, hk, rfl, by simp [hp]⟩)
    refine hs.snapshot ht rfl (fun sn hu => ?_) ?_
    · exact UnderWay.of_setCapture { c with phase := .finished } hk (by simp [hp]) rfl
        (UnderWay.of_drop c.sn hu)
    · exact Spared.stop hs.spared hfree
  | _ => exact hs.live rfl (fun _ h => h) hs.spared

theorem spared_of_registersAlone {es : List Event} {s : State} (hs : Apart s)
    (hc : Along step (fun s e _ => RegistersAlone s e) s es) :
    Along step (fun _ _ t => Spared t) s es :=
  along_of_along (Q := fun s e _ => RegistersAlone s e)
    (fun _ _ _ hi h hq => have ht := hi.step h hq; ⟨ht.spared, ht⟩) hs es hc

def EndsSnapshot : Event → Prop
  | .snapshotTimer _ | .captureSettled .. | .captureCleanup _ => True
  | _ => False

theorem timer_stops {s : State} {g : Nat} {r : Refresh} (hr : s.refreshes[g]? = some r)
    (harmed : r.timer = true) (hx : (s.sessions r.sn).isSome) :
    ¬ Along step (fun _ _ t => Spared t) s [.snapshotTimer g] := by
  have hstep : step s (.snapshotTimer g) = some (snapshotTimer s g r.sn) := by
    simp [step, hr, harmed]
  rw [along_cons hstep]
  rintro ⟨hs, -⟩
  have hlive := hs ⟨r.sn, (s.sessions r.sn).isSome⟩ List.mem_cons_self
  simp [hx] at hlive

theorem cleanup_stops {s : State} {k : Nat} {c : Capture} (hk : s.captures[k]? = some c)
    (hp : c.phase = .settled) (hx : (s.sessions c.sn).isSome) :
    ¬ Along step (fun _ _ t => Spared t) s [.captureCleanup k] := by
  have hstep : step s (.captureCleanup k) = some (captureCleanup s k c) := by
    simp [step, hk, hp]
  rw [along_cons hstep]
  rintro ⟨hs, -⟩
  have hlive := hs ⟨c.sn, (s.sessions c.sn).isSome⟩ List.mem_cons_self
  simp [hx] at hlive

theorem capture_stops {s : State} {k : Nat} {c : Capture} (hk : s.captures[k]? = some c)
    (hp : c.phase = .running) (hx : (s.sessions c.sn).isSome) :
    ¬ Along step (fun _ _ t => Spared t) s [.captureSettled k true, .captureCleanup k] := by
  have hstep : step s (.captureSettled k true) = some (captureSettled s k c true) := by
    simp [step, hk, hp]
  have hlt : k < s.captures.length := (List.getElem?_eq_some_iff.mp hk).1
  have hk' : (captureSettled s k c true).captures[k]? = some { c with phase := .settled } := by
    simp [captureSettled, settlePromise, hlt]
  rw [along_cons hstep]
  rintro ⟨-, h⟩
  exact cleanup_stops hk' rfl hx h

/-- A viewer that registers while a snapshot is under way has its livestream stopped by the
events with which that snapshot ends. -/
theorem stopped_after_register {s t : State} {v : Nat} {viewer : Viewer}
    (hv : s.viewers[v]? = some viewer) (h : step s (.stopSettled v) = some t)
    (hu : UnderWay s viewer.sn) :
    ∃ es, (∀ e ∈ es, EndsSnapshot e) ∧ ¬ Along step (fun _ _ t => Spared t) t es := by
  cases transition_of_step h with
  | registers hv' hp =>
    rw [hv] at hv'
    cases hv'
    have hx : ((registerSession s v viewer).sessions viewer.sn).isSome := by
      simp [registerSession]
    obtain ⟨g, r, hr, hrs, hrt⟩ | ⟨k, c, hk, hks, hkp⟩ := hu
    · rw [← hrs] at hx
      exact ⟨[.snapshotTimer g], by simp [EndsSnapshot], timer_stops hr hrt hx⟩
    · rw [← hks] at hx
      cases hph : c.phase with
      | running =>
        exact ⟨[.captureSettled k true, .captureCleanup k], by simp [EndsSnapshot],
          capture_stops hk hph hx⟩
      | settled => exact ⟨[.captureCleanup k], by simp [EndsSnapshot], cleanup_stops hk hph hx⟩
      | finished => exact absurd hph hkp

/-- Along every run in which viewers register only while no snapshot is under way, no livestream of
a stored session is stopped. -/
theorem spared_along {es : List Event}
    (h : Along step (fun s e _ => RegistersAlone s e) init es) :
    Along step (fun _ _ t => Spared t) init es :=
  spared_of_registersAlone apart_init h

/-- Viewers register only while no snapshot is under way exactly when no end of the pending
snapshots, at any point of the run, stops a stored session's livestream. -/
theorem spared_iff_registersAlone (es : List Event) :
    (∀ pre ends, pre <+: es → (∀ e ∈ ends, EndsSnapshot e) →
      Along step (fun _ _ t => Spared t) init (pre ++ ends)) ↔
    Along step (fun s e _ => RegistersAlone s e) init es := by
  constructor
  · intro h
    by_contra hbreak
    obtain ⟨pre, e, s, t, hpre, halong, hrun, hstep, hb⟩ := exists_first_break hbreak
    have hs : Apart s := inv_of_run (Q := fun s e _ => RegistersAlone s e)
      (fun _ _ _ hi h hq => hi.step h hq) apart_init halong hrun
    cases e with
    | stopSettled v =>
      simp only [RegistersAlone, not_forall, not_not] at hb
      obtain ⟨viewer, hv, hu⟩ := hb
      obtain ⟨ends, hends, hstop⟩ := stopped_after_register hv hstep hu
      have hall := h (pre ++ [.stopSettled v]) ends hpre hends
      have hreach : run step init (pre ++ [.stopSettled v]) = some t := by
        simp [run_append, hrun, run, hstep]
      exact hstop ((along_append.mp hall).2 t hreach)
    | _ => exact hb trivial
  · intro h pre ends hpre hends
    have hquiet : ∀ s, Along step (fun s e _ => RegistersAlone s e) s ends := by
      refine along_of_forall fun e he s t => ?_
      have := hends e he
      cases e <;> trivial
    obtain ⟨rest, rfl⟩ := hpre
    have hpreOk := (along_append.mp h).1
    exact spared_along (along_append.mpr ⟨hpreOk, fun t _ => hquiet t⟩)

instance (s : State) : Decidable (Spared s) :=
  inferInstanceAs (Decidable (∀ c ∈ s.stops, c.live = false))

/-- A viewer connects while a snapshot waits for its livestream; the start event serves the
snapshot, whose end stops the livestream of the registered viewer. -/
theorem capture_stops_viewer :
    ¬ Along step (fun _ _ t => Spared t) init
      [.cloud true, .refresh "T8010", .snapshotStartSettled 0 true, .viewerConnects "T8010",
       .stopSettled 0, .connectSettled 0 true, .livestreamStart "T8010", .captureSettled 0 true,
       .captureCleanup 0] := by
  decide

end WyzeCams.Eufy
