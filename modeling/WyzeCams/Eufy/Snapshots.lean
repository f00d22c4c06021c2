import WyzeCams.Eufy.Live
import WyzeCams.Lib.Table

/-! The bookkeeping of snapshot refreshes that every run keeps: which entries, captures and
callers belong to which refresh. -/
namespace WyzeCams.Eufy
open Function EventMachine Table

def snapshotPart (s : State) :
    (Serial → Option Nat) × List Refresh × List Call × List Capture :=
  (s.pendingSnapshots, s.refreshes, s.calls, s.captures)

@[simp] theorem snapshotPart_stopStationLivestream (s : State) (sn : Serial) :
    snapshotPart (stopStationLivestream s sn) = snapshotPart s := rfl

@[simp] theorem snapshotPart_stopSession (s : State) (sn : Serial) :
    snapshotPart (stopSession s sn) = snapshotPart s := by
  unfold stopSession
  cases s.sessions sn with
  | none => rfl
  | some session => cases h : session.ffmpeg <;> simp [kill, h] <;> rfl

/-- The events handled by the live-view code leave the snapshot part alone. -/
theorem snapshotPart_live {s t : State} {e : Event} (h : Transition s e t)
    (he : match e with
      | .refresh _ | .snapshotStartSettled .. | .snapshotTimer _ | .livestreamStart _
      | .captureSettled .. | .captureCleanup _ => False
      | _ => True) : snapshotPart t = snapshotPart s := by
  cases h with
  | viewerConnects sn => exact snapshotPart_stopSession s sn
  | closes hv ho => exact snapshotPart_stopSession _ _
  | refresh | snapshotStarted | snapshotTimer | livestreamStart | captureSettled
  | captureCleanup => exact he.elim
  | _ => rfl

theorem clearTimer_get {s : State} {g h : Nat} {r : Refresh} (hr : s.refreshes[h]? = some r) :
    (clearTimer s g).refreshes[h]? = some (if g = h then { r with timer := false } else r) := by
  simp [clearTimer, List.getElem?_modify, hr]

theorem settlePromise_get {s : State} {g h : Nat} {r : Refresh} (o : Outcome)
    (hr : s.refreshes[h]? = some r) :
    (settlePromise s g o).refreshes[h]? = some (if g = h then r.settle o else r) := by
  simp [settlePromise, List.getElem?_modify, hr]

@[simp] theorem settle_sn (r : Refresh) (o : Outcome) : (r.settle o).sn = r.sn := by
  unfold Refresh.settle
  split_ifs <;> rfl

@[simp] theorem settle_timer (r : Refresh) (o : Outcome) : (r.settle o).timer = r.timer := by
  unfold Refresh.settle
  split_ifs <;> rfl

theorem settle_promise {o : Outcome} (ho : o ≠ .pending) (r : Refresh) :
    (r.settle o).promise ≠ .pending := by
  unfold Refresh.settle
  split_ifs with h
  · exact ho
  · exact h

theorem settle_keeps {r : Refresh} (o : Outcome) (h : r.promise ≠ .pending) : r.settle o = r := by
  simp [Refresh.settle, h]

/-- `entry`: an entry of `pendingSnapshots` belongs to a refresh of its camera whose timer is
armed. `captured`: a capture belongs to a refresh of its camera, whose promise it has settled
once it is past running. `starter`: a refresh has one caller that awaits its livestream. -/
structure Tracked (s : State) : Prop where
  entry : ∀ sn g, s.pendingSnapshots sn = some g →
    ∃ r : Refresh, s.refreshes[g]? = some r ∧ r.sn = sn ∧ r.timer = true
  captured : ∀ (k : Nat) (c : Capture), s.captures[k]? = some c →
    ∃ r : Refresh, s.refreshes[c.pending]? = some r ∧ r.sn = c.sn ∧
      (c.phase ≠ .running → r.promise ≠ .pending)
  known : ∀ (c g : Nat), s.calls[c]? = some (Call.starting g) → g < s.refreshes.length
  starter : ∀ (c c' g : Nat), s.calls[c]? = some (Call.starting g) →
    s.calls[c']? = some (Call.starting g) → c = c'

theorem tracked_init : Tracked init := by
  constructor <;> simp [init]

theorem Tracked.congr {s t : State} (hs : Tracked s) (h : snapshotPart t = snapshotPart s) :
    Tracked t := by
  simp only [snapshotPart, Prod.mk.injEq] at h
  obtain ⟨hp, hr, hc, hk⟩ := h
  exact ⟨by rw [hp, hr]; exact hs.entry, by rw [hr, hk]; exact hs.captured,
    by rw [hc, hr]; exact hs.known, by rw [hc]; exact hs.starter⟩

theorem Tracked.stop {s : State} (hs : Tracked s) (sn : Serial) :
    Tracked (stopStationLivestream s sn) :=
  hs.congr rfl

/-- A refresh is dropped: its timer is cleared and the entry of its camera deleted. -/
theorem Tracked.drop {s : State} (hs : Tracked s) {g : Nat} {r : Refresh}
    (hr : s.refreshes[g]? = some r) : Tracked (deletePending (clearTimer s g) r.sn) := by
  constructor
  · intro sn h hp
    have hne : sn ≠ r.sn := by
      rintro rfl
      simp [deletePending] at hp
    obtain ⟨x, hx, hxs, hxt⟩ := hs.entry sn h (by simpa [deletePending, clearTimer, hne] using hp)
    have hgh : g ≠ h := by
      rintro rfl
      rw [hr] at hx
      cases hx
      exact hne hxs.symm
    exact ⟨x, by rw [deletePending, clearTimer_get hx, if_neg hgh], hxs, hxt⟩
  · intro k c hk
    obtain ⟨x, hx, hxs, hxp⟩ := hs.captured k c hk
    refine ⟨_, clearTimer_get hx, ?_, ?_⟩ <;> split_ifs <;> assumption
  · intro c h hc
    simpa [deletePending, clearTimer] using hs.known c h hc
  · exact hs.starter

theorem Tracked.settle {s : State} (hs : Tracked s) (g : Nat) (o : Outcome) :
    Tracked (settlePromise s g o) := by
  constructor
  · intro sn h hp
    obtain ⟨x, hx, hxs, hxt⟩ := hs.entry sn h hp
    refine ⟨_, settlePromise_get o hx, ?_, ?_⟩ <;> split_ifs <;> simp [hxs, hxt]
  · intro k c hk
    obtain ⟨x, hx, hxs, hxp⟩ := hs.captured k c hk
    refine ⟨_, settlePromise_get o hx, ?_, fun hph => ?_⟩
    · split_ifs <;> simp [hxs]
    · rw [settle_keeps o (hxp hph), ite_self]
      exact hxp hph
  · intro c h hc
    simpa [settlePromise] using hs.known c h hc
  · exact hs.starter

/-- A call that does not await a livestream takes its place in `calls`. -/
theorem Tracked.setCall {s : State} (hs : Tracked s) (c : Nat) {x : Call}
    (hx : ∀ g, x ≠ .starting g) : Tracked { s with calls := s.calls.set c x } := by
  have hold : ∀ c' g : Nat, (s.calls.set c x)[c']? = some (Call.starting g) →
      s.calls[c']? = some (Call.starting g) := by
    intro c' g h
    obtain ⟨-, h⟩ | ⟨-, h⟩ := getElem?_replace h
    · exact absurd h.symm (hx g)
    · exact h
  exact ⟨hs.entry, hs.captured, fun c' g h => hs.known c' g (hold c' g h),
    fun c₁ c₂ g h₁ h₂ => hs.starter c₁ c₂ g (hold c₁ g h₁) (hold c₂ g h₂)⟩

theorem Tracked.addCall {s : State} (hs : Tracked s) {x : Call} (hx : ∀ g, x ≠ .starting g) :
    Tracked { s with calls := s.calls ++ [x] } := by
  have hold : ∀ c' g : Nat, (s.calls ++ [x])[c']? = some (Call.starting g) →
      s.calls[c']? = some (Call.starting g) := by
    intro c' g h
    obtain h | ⟨-, h⟩ := getElem?_concat h
    · exact h
    · exact absurd h.symm (hx g)
  exact ⟨hs.entry, hs.captured, fun c' g h => hs.known c' g (hold c' g h),
    fun c₁ c₂ g h₁ h₂ => hs.starter c₁ c₂ g (hold c₁ g h₁) (hold c₂ g h₂)⟩

/-- `refreshSnapshot` that finds no entry opens a refresh with an armed timer. -/
theorem Tracked.open {s : State} (hs : Tracked s) (sn : Serial) :
    Tracked { s with
      refreshes := s.refreshes ++ [⟨sn, true, .pending⟩]
      pendingSnapshots := update s.pendingSnapshots sn (some s.refreshes.length)
      calls := s.calls ++ [.starting s.refreshes.length] } := by
  have hkeep : ∀ (g : Nat) (r : Refresh), s.refreshes[g]? = some r →
      (s.refreshes ++ [⟨sn, true, .pending⟩])[g]? = some r := by
    exact fun g r hr => getElem?_old hr
  constructor
  · intro sn' g hp
    by_cases he : sn' = sn
    · subst he
      simp only [update_self, Option.some.injEq] at hp
      exact ⟨⟨sn', true, .pending⟩, by simp [← hp], rfl, rfl⟩
    · obtain ⟨r, hr, hrs, hrt⟩ := hs.entry sn' g (by simpa [he] using hp)
      exact ⟨r, hkeep g r hr, hrs, hrt⟩
  · intro k c hk
    obtain ⟨r, hr, hrest⟩ := hs.captured k c hk
    exact ⟨r, hkeep _ r hr, hrest⟩
  · intro c g hc
    simp only [List.length_append, List.length_singleton]
    obtain hc | ⟨-, hc⟩ := getElem?_concat hc
    · have := hs.known c g hc
      omega
    · cases hc
      omega
  · intro c c' g hc hc'
    -- a call awaiting the new refresh is the new call, since older ones know older refreshes
    obtain hc | ⟨hl, hc⟩ := getElem?_concat hc <;> obtain hc' | ⟨hl', hc'⟩ := getElem?_concat hc'
    · exact hs.starter c c' g hc hc'
    · cases hc'
      exact absurd (hs.known c _ hc) (Nat.lt_irrefl _)
    · cases hc
      exact absurd (hs.known c' _ hc') (Nat.lt_irrefl _)
    · omega

theorem Tracked.refresh {s : State} (hs : Tracked s) (sn : Serial) :
    Tracked (refreshSnapshot s sn) := by
  unfold refreshSnapshot
  split_ifs
  · exact hs.addCall (by simp)
  · exact hs.addCall (by simp)
  · split
    · exact hs.addCall (by simp)
    · exact hs.open sn

theorem Tracked.capture {s : State} (hs : Tracked s) {sn : Serial} {g : Nat}
    (hg : s.pendingSnapshots sn = some g) :
    Tracked { s with captures := s.captures ++ [⟨sn, g, .running⟩] } := by
  refine ⟨hs.entry, fun k c hk => ?_, hs.known, hs.starter⟩
  obtain hk | ⟨-, rfl⟩ := getElem?_concat hk
  · exact hs.captured k c hk
  · obtain ⟨r, hr, hrs, -⟩ := hs.entry sn g hg
    exact ⟨r, hr, hrs, by simp⟩

theorem Tracked.captureSettled {s : State} (hs : Tracked s) {k : Nat} {c : Capture}
    (hc : s.captures[k]? = some c) (ok : Bool) : Tracked (captureSettled s k c ok) := by
  have hset := hs.settle c.pending (if ok then .resolved else .rejected)
  refine ⟨hset.entry, fun k' c' hk' => ?_, hset.known, hset.starter⟩
  obtain ⟨rfl, rfl⟩ | ⟨-, hk⟩ := getElem?_replace hk'
  · obtain ⟨r, hr, hrs, -⟩ := hs.captured k c hc
    refine ⟨_, settlePromise_get _ hr, by simp [hrs], fun _ => ?_⟩
    rw [if_pos rfl]
    exact settle_promise (by cases ok <;> simp) r
  · exact hset.captured k' c' hk

theorem Tracked.captureFinished {s : State} (hs : Tracked s) {k : Nat} {c : Capture}
    (hc : s.captures[k]? = some c) (hp : c.phase = .settled) :
    Tracked { s with captures := s.captures.set k { c with phase := .finished } } := by
  refine ⟨hs.entry, fun k' c' hk' => ?_, hs.known, hs.starter⟩
  obtain ⟨rfl, rfl⟩ | ⟨-, hk⟩ := getElem?_replace hk'
  · obtain ⟨r, hr, hrs, hrp⟩ := hs.captured k c hc
    exact ⟨r, hr, hrs, fun _ => hrp (by simp [hp])⟩
  · exact hs.captured k' c' hk

theorem Tracked.step {s t : State} {e : Event} (hs : Tracked s) (h : step s e = some t) :
    Tracked t := by
  cases transition_of_step h with
  | refresh sn => exact hs.refresh sn
  | snapshotStarted hc hr ok =>
    cases ok with
    | true => exact hs.setCall _ (by simp)
    | false => exact (hs.drop hr).setCall _ (by simp)
  | snapshotTimer hr ht => exact ((hs.drop hr).stop _).settle _ _
  | livestreamStart sn =>
    unfold livestreamStart
    split
    · rename_i g hg
      exact hs.capture hg
    · split
      · exact hs.stop sn
      · exact hs.congr rfl
  | captureSettled hc hp ok => exact hs.captureSettled hc ok
  | @captureCleanup _ c hc hp =>
    obtain ⟨r, hr, hrs, -⟩ := hs.captured _ _ hc
    have hdrop := (hs.captureFinished hc hp).drop hr
    rw [hrs] at hdrop
    exact hdrop.stop c.sn
  | _ => exact hs.congr (snapshotPart_live (transition_of_step h) trivial)

end WyzeCams.Eufy
