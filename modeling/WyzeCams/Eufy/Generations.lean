import WyzeCams.Eufy.Snapshots

/-! Refreshes of one camera that follow each other: which of them an entry of `pendingSnapshots`
belongs to, and whose events end it. -/
namespace WyzeCams.Eufy
open Function EventMachine Table

/-- The events that end refresh `g`: its own timer, the failure of its own start, and the end of
one of its own captures. -/
def EndsRefresh (s : State) (g : Nat) : Event → Prop
  | .snapshotTimer g' => g' = g
  | .snapshotStartSettled c ok => ok = false ∧ s.calls[c]? = some (Call.starting g)
  | .captureCleanup k => ∃ c : Capture, s.captures[k]? = some c ∧ c.pending = g
  | _ => False

/-- An entry goes only with an event of its own refresh. -/
def KeepsEntry (s : State) (e : Event) (t : State) : Prop :=
  ∀ sn g, s.pendingSnapshots sn = some g → t.pendingSnapshots sn ≠ some g → EndsRefresh s g e

/-- The end of a capture neither deletes the entry of another refresh of the camera nor stops the
livestream which that refresh has requested. -/
def SparesOther (s : State) (e : Event) (t : State) : Prop :=
  ∀ (k : Nat) (c : Capture) (g : Nat), e = .captureCleanup k → s.captures[k]? = some c →
    s.pendingSnapshots c.sn = some g → g ≠ c.pending →
      t.pendingSnapshots c.sn = some g ∧ t.stops = s.stops

/-- When the start of a refresh fails or a capture of it ends, the entry of the camera belongs to
this refresh or is absent. -/
def OwnRefresh (s : State) : Event → Prop
  | .snapshotStartSettled c ok => ok = false → ∀ (g g' : Nat) (r : Refresh),
      s.calls[c]? = some (Call.starting g) → s.refreshes[g]? = some r →
        s.pendingSnapshots r.sn = some g' → g' = g
  | .captureCleanup k => ∀ (c : Capture) (g' : Nat), s.captures[k]? = some c →
      s.pendingSnapshots c.sn = some g' → g' = c.pending
  | _ => True

/-- A refresh whose timer is armed has the entry of its camera. -/
structure Single (s : State) : Prop where
  tracked : Tracked s
  armed : ∀ (g : Nat) (r : Refresh), s.refreshes[g]? = some r → r.timer = true →
    s.pendingSnapshots r.sn = some g

theorem single_init : Single init :=
  ⟨tracked_init, by simp [init]⟩

theorem clearTimer_armed {s : State} {g h : Nat} {r : Refresh}
    (hr : (clearTimer s g).refreshes[h]? = some r) (ht : r.timer = true) :
    g ≠ h ∧ s.refreshes[h]? = some r := by
  simp only [clearTimer, List.getElem?_modify, Option.map_eq_map, Option.map_eq_some_iff] at hr
  obtain ⟨x, hx, rfl⟩ := hr
  split_ifs at ht with he
  rw [if_neg he]
  exact ⟨he, hx⟩

theorem settlePromise_armed {s : State} {g h : Nat} {o : Outcome} {r : Refresh}
    (hr : (settlePromise s g o).refreshes[h]? = some r) (ht : r.timer = true) :
    ∃ x : Refresh, s.refreshes[h]? = some x ∧ x.sn = r.sn ∧ x.timer = true := by
  simp only [settlePromise, List.getElem?_modify, Option.map_eq_map, Option.map_eq_some_iff] at hr
  obtain ⟨x, hx, rfl⟩ := hr
  refine ⟨x, hx, ?_, ?_⟩
  · split_ifs <;> simp
  · split_ifs at ht <;> simpa using ht

/-- The timers that are armed after a refresh was dropped still have their entries, when the
entry that was deleted belonged to that refresh. -/
theorem armed_drop {s : State} (hs : Single s) {g : Nat} {sn : Serial}
    (hown : ∀ g', s.pendingSnapshots sn = some g' → g' = g) {h : Nat} {r : Refresh}
    (hr : (clearTimer s g).refreshes[h]? = some r) (ht : r.timer = true) :
    (deletePending (clearTimer s g) sn).pendingSnapshots r.sn = some h := by
  obtain ⟨hne, hr⟩ := clearTimer_armed hr ht
  have hentry := hs.armed h r hr ht
  have hsn : r.sn ≠ sn := by
    intro he
    rw [he] at hentry
    exact hne (hown h hentry).symm
  rw [deletePending, clearTimer]
  dsimp only
  rw [update_of_ne hsn, hentry]

theorem Single.own_timer {s : State} (hs : Single s) {g : Nat} {r : Refresh}
    (hr : s.refreshes[g]? = some r) (ht : r.timer = true) (g' : Nat)
    (hg : s.pendingSnapshots r.sn = some g') : g' = g := by
  have hentry := hs.armed g r hr ht
  rw [hg] at hentry
  exact Option.some.inj hentry

theorem armed_refresh {s : State} (hs : Single s) (sn : Serial) {h : Nat} {r : Refresh}
    (hr : (refreshSnapshot s sn).refreshes[h]? = some r) (ht : r.timer = true) :
    (refreshSnapshot s sn).pendingSnapshots r.sn = some h := by
  unfold refreshSnapshot at hr ⊢
  split_ifs at hr ⊢
  · exact hs.armed h r hr ht
  · exact hs.armed h r hr ht
  · split at hr
    · exact hs.armed h r hr ht
    · rename_i hp
      dsimp only at hr ⊢
      obtain hr | ⟨hlen, rfl⟩ := getElem?_concat hr
      · have hentry := hs.armed h r hr ht
        have hne : r.sn ≠ sn := by
          intro he
          rw [he, hp] at hentry
          cases hentry
        rw [update_of_ne hne, hentry]
      · rw [update_self, hlen]

theorem armed_of_part {s t : State} (hs : Single s) (h : snapshotPart t = snapshotPart s) {g : Nat}
    {r : Refresh} (hr : t.refreshes[g]? = some r) (ht : r.timer = true) :
    t.pendingSnapshots r.sn = some g := by
  simp only [snapshotPart, Prod.mk.injEq] at h
  rw [h.2.1] at hr
  rw [h.1]
  exact hs.armed g r hr ht

theorem Single.step {s t : State} {e : Event} (hs : Single s) (h : step s e = some t)
    (hc : OwnRefresh s e) : Single t := by
  refine ⟨hs.tracked.step h, fun g r hr ht => ?_⟩
  cases transition_of_step h with
  | refresh sn => exact armed_refresh hs sn hr ht
  | @snapshotStarted c g' r' hcall hr' ok =>
    cases ok with
    | true => exact hs.armed g r hr ht
    | false => exact armed_drop hs (fun h hh => hc rfl g' h r' hcall hr' hh) hr ht
  | @snapshotTimer g' r' hr' harmed =>
    obtain ⟨x, hx, hxs, hxt⟩ := settlePromise_armed hr ht
    rw [← hxs]
    exact armed_drop hs (hs.own_timer hr' harmed) hx hxt
  | livestreamStart sn =>
    unfold livestreamStart at hr ⊢
    split at hr
    · exact hs.armed g r hr ht
    · split at hr <;> exact hs.armed g r hr ht
  | @captureSettled k c hk hp ok =>
    obtain ⟨x, hx, hxs, hxt⟩ := settlePromise_armed hr ht
    rw [← hxs]
    exact hs.armed g x hx hxt
  | @captureCleanup k c hk hp => exact armed_drop hs (fun h hh => hc c h hk hh) hr ht
  | _ => exact armed_of_part hs (snapshotPart_live (transition_of_step h) trivial) hr ht

/-- Deleting the entry of `sn` takes nothing from any refresh but `g` exactly when the entry
belongs to `g` or is absent. -/
theorem delete_iff {f : Serial → Option Nat} {sn : Serial} {g : Nat} :
    (∀ sn' g', f sn' = some g' → update f sn none sn' ≠ some g' → g' = g) ↔
      ∀ g', f sn = some g' → g' = g := by
  constructor
  · intro h g' hg
    exact h sn g' hg (by simp)
  · intro h sn' g' hg hne
    by_cases he : sn' = sn
    · rw [he] at hg
      exact h g' hg
    · rw [update_of_ne he] at hne
      exact absurd hg hne

theorem keepsEntry_of_same {s t : State} {e : Event}
    (h : t.pendingSnapshots = s.pendingSnapshots) : KeepsEntry s e t := by
  intro sn g hg hne
  rw [h] at hne
  exact absurd hg hne

theorem keepsEntry_refresh (s : State) (sn : Serial) (e : Event) :
    KeepsEntry s e (refreshSnapshot s sn) := by
  unfold refreshSnapshot
  split_ifs
  · exact keepsEntry_of_same rfl
  · exact keepsEntry_of_same rfl
  · split
    · exact keepsEntry_of_same rfl
    · rename_i hp
      intro sn' g hg hne
      by_cases he : sn' = sn
      · rw [he, hp] at hg
        cases hg
      · exact absurd hg (by simpa [he] using hne)

theorem starting_unique {s : State} {c g : Nat} (hc : s.calls[c]? = some (Call.starting g))
    (g' : Nat) : s.calls[c]? = some (Call.starting g') ↔ g' = g := by
  rw [hc, Option.some.injEq, Call.starting.injEq]
  exact eq_comm

/-- One event leaves the generations apart exactly when it meets `OwnRefresh`. -/
theorem apart_iff {s t : State} {e : Event} (hs : Single s) (h : step s e = some t) :
    KeepsEntry s e t ∧ SparesOther s e t ↔ OwnRefresh s e := by
  cases transition_of_step h with
  | @snapshotStarted c g r hcall hr ok =>
    have hother : ∀ t', SparesOther s (.snapshotStartSettled c ok) t' := by
      intro t' k x g' he
      cases he
    cases ok with
    | true => exact iff_of_true ⟨keepsEntry_of_same rfl, hother _⟩ fun h => by cases h
    | false =>
      have hends : ∀ g', EndsRefresh s g' (.snapshotStartSettled c false) ↔ g' = g := fun g' =>
        (and_iff_right rfl).trans (starting_unique hcall g')
      have hkeeps : KeepsEntry s (.snapshotStartSettled c false)
        (snapshotStarted s c g r.sn false) ↔
          ∀ g', s.pendingSnapshots r.sn = some g' → g' = g := by
        simp only [KeepsEntry, hends]
        exact delete_iff
      rw [and_iff_left (hother _), hkeeps]
      constructor
      · intro hown _ g₁ g' r₁ hc₁ hr₁ hg'
        rw [(starting_unique hcall g₁).mp hc₁] at hr₁ ⊢
        rw [hr] at hr₁
        cases hr₁
        exact hown g' hg'
      · exact fun hown g' hg' => hown rfl g g' r hcall hr hg'
  | @snapshotTimer g r hr harmed =>
    refine iff_of_true ⟨?_, fun k x g' he => by cases he⟩ trivial
    exact fun sn g' hg' hne => (delete_iff.mpr (hs.own_timer hr harmed) sn g' hg' hne).symm
  | @captureCleanup k c hk hp =>
    have hends : ∀ g', EndsRefresh s g' (.captureCleanup k) ↔ g' = c.pending := by
      intro g'
      constructor
      · rintro ⟨x, hx, rfl⟩
        rw [hk] at hx
        cases hx
        rfl
      · exact fun he => ⟨c, hk, he.symm⟩
    have hkeeps : KeepsEntry s (.captureCleanup k) (captureCleanup s k c) ↔
        ∀ g', s.pendingSnapshots c.sn = some g' → g' = c.pending := by
      simp only [KeepsEntry, hends]
      exact delete_iff
    rw [hkeeps]
    constructor
    · rintro ⟨hown, -⟩ x g' hx hg'
      rw [hk] at hx
      cases hx
      exact hown g' hg'
    · intro hown
      refine ⟨fun g' hg' => hown c g' hk hg', fun k' x g' he hx hg' hne => ?_⟩
      cases he
      exact absurd (hown x g' hx hg') hne
  | refresh sn =>
    exact iff_of_true ⟨keepsEntry_refresh s sn _, fun k x g' he => by cases he⟩ trivial
  | livestreamStart sn =>
    refine iff_of_true ⟨?_, fun k x g' he => by cases he⟩ trivial
    unfold livestreamStart
    split
    · exact keepsEntry_of_same rfl
    · split <;> exact keepsEntry_of_same rfl
  | captureSettled hk hp ok =>
    exact iff_of_true ⟨keepsEntry_of_same rfl, fun k x g' he => by cases he⟩ trivial
  | _ =>
    have hpart := snapshotPart_live (transition_of_step h) trivial
    refine iff_of_true ⟨keepsEntry_of_same (congrArg Prod.fst hpart), fun k x g' he => ?_⟩ trivial
    cases he

/-- Along every order of events the refreshes of a camera do not interfere exactly when each
failed start and each end of a capture finds the entry of its own refresh, or none. -/
theorem generations_along_iff (es : List Event) :
    Along step (fun s e t => KeepsEntry s e t ∧ SparesOther s e t) init es ↔
      Along step (fun s e _ => OwnRefresh s e) init es := by
  refine along_iff ?_ ?_ single_init es
  · exact fun s e t hs h => apart_iff hs h
  · exact fun s e t hs h hc => hs.step h hc

def lateCapture : List Event :=
  [.cloud true, .refresh "T8010", .snapshotStartSettled 0 true, .livestreamStart "T8010",
   .snapshotTimer 0, .refresh "T8010", .snapshotStartSettled 1 true, .captureSettled 0 true]

/-- The end of the first capture deletes the entry of the second refresh. -/
theorem late_capture_interferes :
    ¬ Along step (fun s e t => KeepsEntry s e t ∧ SparesOther s e t) init
      (lateCapture ++ [.captureCleanup 0]) := by
  intro h
  have hlast := along_last rfl rfl h
  obtain ⟨c, hc, hpending⟩ := hlast.1 "T8010" 1 (by decide) (by decide)
  cases hc
  cases hpending

end WyzeCams.Eufy
