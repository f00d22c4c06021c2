import Mathlib.Data.List.Perm.Subperm
import WyzeCams.Browser.Alerts

/-! Which stored events `pollEvents` passes to `handleEvent`. -/
namespace WyzeCams.Alerts
open EventMachine Table

/-- The ids of stored events are distinct, `passed` holds stored events with distinct ids, and
`eventsSince` is the time that `startAlerts` set or that of an event passed since. -/
structure Ledger (s : State) : Prop where
  ids : ∀ e ∈ s.stored, ∀ f ∈ s.stored, e.id = f.id → e = f
  seen : s.seenEvents = s.passed.map (·.id)
  nodup : s.seenEvents.Nodup
  known : ∀ e ∈ s.passed, e ∈ s.stored
  mark : s.eventsSince = s.start ∨ ∃ f ∈ s.passed, f.time = s.eventsSince
  live : s.alertsOn = true → 0 < s.eventsSince

/-- What a poll carries: its `since` is a time that `startAlerts` set or that of an event passed
before, and its page is an answer of the event API. -/
def Poll.Sound (poll : Poll) (stored : List CameraEvent) : Prop :=
  0 < poll.since ∧
  (poll.since = poll.start ∨ ∃ f ∈ poll.passed, f.time = poll.since) ∧
  ∀ old page, poll.phase = .served old page →
    (∀ e ∈ old, e ∈ stored) ∧ IsNewest old poll.since eventCount page

structure Consistent (s : State) : Prop where
  ledger : Ledger s
  polls : ∀ poll ∈ s.polls, poll.Sound s.stored

theorem consistent_init (now : Nat) : Consistent (init now) :=
  ⟨by constructor <;> simp [init], by simp [init]⟩

theorem mem_respond {page : List CameraEvent} {since : Nat} {e : CameraEvent} :
    e ∈ respond page since ↔ e ∈ page ∧ since < e.time := by
  simp [respond]

theorem mem_oldestFirst {events : List CameraEvent} {e : CameraEvent} :
    e ∈ oldestFirst events ↔ e ∈ events := by
  simp [oldestFirst]

@[simp] theorem deliver_stored (s : State) (events : List CameraEvent) :
    (deliver s events).stored = s.stored := by
  induction events generalizing s with
  | nil => rfl
  | cons ev events ih =>
    unfold deliver
    split_ifs
    · exact ih s
    · exact ih (handle s ev)

@[simp] theorem deliver_polls (s : State) (events : List CameraEvent) :
    (deliver s events).polls = s.polls := by
  induction events generalizing s with
  | nil => rfl
  | cons ev events ih =>
    unfold deliver
    split_ifs
    · exact ih s
    · exact ih (handle s ev)

theorem seen_of_seen {s : State} {id : String} (h : id ∈ s.seenEvents)
    (events : List CameraEvent) : id ∈ (deliver s events).seenEvents := by
  induction events generalizing s with
  | nil => exact h
  | cons ev events ih =>
    unfold deliver
    split_ifs
    · exact ih h
    · exact ih (List.mem_cons_of_mem _ h)

/-- The loop leaves every event of the response seen. -/
theorem seen_of_mem {s : State} {e : CameraEvent} {events : List CameraEvent} (h : e ∈ events) :
    e.id ∈ (deliver s events).seenEvents := by
  induction events generalizing s with
  | nil => simp at h
  | cons ev events ih =>
    unfold deliver
    obtain rfl | h := List.mem_cons.mp h
    · split_ifs with hs
      · exact seen_of_seen hs events
      · exact seen_of_seen (by simp [handle]) events
    · split_ifs
      · exact ih h
      · exact ih h

theorem Ledger.handle {s : State} (hs : Ledger s) {ev : CameraEvent} (hev : ev ∈ s.stored)
    (hnew : ev.id ∉ s.seenEvents) : Ledger (handle s ev) := by
  refine ⟨hs.ids, ?_, List.nodup_cons.mpr ⟨hnew, hs.nodup⟩, ?_, ?_, fun hon => ?_⟩
  · simp [Alerts.handle, hs.seen]
  · intro e he
    obtain rfl | he := List.mem_cons.mp he
    · exact hev
    · exact hs.known e he
  · by_cases hlt : s.eventsSince < ev.time
    · exact .inr ⟨ev, by simp [Alerts.handle], by simp [Alerts.handle, hlt]⟩
    · simp only [Alerts.handle, if_neg hlt]
      obtain hm | ⟨f, hf, hft⟩ := hs.mark
      · exact .inl hm
      · exact .inr ⟨f, List.mem_cons_of_mem _ hf, hft⟩
  · have hpos := hs.live hon
    simp only [Alerts.handle]
    split_ifs <;> omega

theorem Ledger.deliver {s : State} (hs : Ledger s) {events : List CameraEvent}
    (hev : ∀ e ∈ events, e ∈ s.stored) : Ledger (deliver s events) := by
  induction events generalizing s with
  | nil => exact hs
  | cons ev events ih =>
    have hrest : ∀ e ∈ events, e ∈ s.stored := fun e he => hev e (List.mem_cons_of_mem _ he)
    unfold Alerts.deliver
    split_ifs with h
    · exact ih hs hrest
    · exact ih (hs.handle (hev ev List.mem_cons_self) h) hrest

/-- An event that has been seen has been passed to `handleEvent` exactly once. -/
theorem Ledger.count_passed {s : State} (hs : Ledger s) {e : CameraEvent} (he : e ∈ s.stored)
    (h : e.id ∈ s.seenEvents) : s.passed.count e = 1 := by
  rw [hs.seen] at h
  obtain ⟨f, hf, hid⟩ := List.mem_map.mp h
  have hfe : f = e := hs.ids f (hs.known f hf) e he hid
  have hnodup : s.passed.Nodup := by
    have := hs.nodup
    rw [hs.seen] at this
    exact this.of_map
  exact List.count_eq_one_of_mem hnodup (hfe ▸ hf)

/-- Every call of `handleEvent` so far was for another event. -/
theorem Ledger.count_le_one {s : State} (hs : Ledger s) (e : CameraEvent) :
    s.passed.count e ≤ 1 := by
  have hnodup : s.passed.Nodup := by
    have := hs.nodup
    rw [hs.seen] at this
    exact this.of_map
  exact List.nodup_iff_count_le_one.mp hnodup e

/-- An event of the window that is left out of the page leaves room for none: as many others at
least as new as it were there. -/
theorem IsNewest.length_newer {stored page : List CameraEvent} {b count : Nat} {e : CameraEvent}
    (h : IsNewest stored b count page) (he : e ∈ stored) (hb : b ≤ e.time) (hpage : e ∉ page) :
    count ≤ (stored.filter fun f => f ≠ e ∧ e.time ≤ f.time).length := by
  obtain ⟨hnodup, hwin, hlen, hnew⟩ := h
  have hsub : page.Subperm (stored.filter fun f => f ≠ e ∧ e.time ≤ f.time) := by
    refine hnodup.subperm fun f hf => ?_
    have hne : f ≠ e := by
      rintro rfl
      exact hpage hf
    simp [(hwin f hf).1, hne, hnew e he hb hpage f hf]
  have hwindow : page.Subperm (stored.filter fun f => b ≤ f.time) :=
    hnodup.subperm fun f hf => by simp [hwin f hf]
  have hcount : page.length = count := by
    by_contra hne
    have hle : (stored.filter fun f => b ≤ f.time).length ≤ page.length := by omega
    exact hpage ((hwindow.perm_of_length_le hle).mem_iff.mpr (by simp [he, hb]))
  exact hcount ▸ hsub.length_le

theorem Poll.Sound.mono {poll : Poll} {stored stored' : List CameraEvent}
    (h : poll.Sound stored) (hsub : ∀ e ∈ stored, e ∈ stored') : poll.Sound stored' := by
  obtain ⟨hpos, hsince, hserved⟩ := h
  refine ⟨hpos, hsince, fun old page hp => ?_⟩
  obtain ⟨hold, hpage⟩ := hserved old page hp
  exact ⟨fun e he => hsub e (hold e he), hpage⟩

theorem Consistent.setPoll {s : State} (hs : Consistent s) (p : Nat) {poll : Poll}
    (h : poll.Sound s.stored) : Consistent { s with polls := s.polls.set p poll } := by
  obtain ⟨⟨hids, hseen, hnodup, hknown, hmark, hlive⟩, hpolls⟩ := hs
  refine ⟨⟨hids, hseen, hnodup, hknown, hmark, hlive⟩, fun x hx => ?_⟩
  obtain hx | rfl := List.mem_or_eq_of_mem_set hx
  · exact hpolls x hx
  · exact h

theorem Consistent.pollEvents {s : State} (hs : Consistent s) (hon : s.alertsOn = true) :
    Consistent (pollEvents s) := by
  obtain ⟨⟨hids, hseen, hnodup, hknown, hmark, hlive⟩, hpolls⟩ := hs
  refine ⟨⟨hids, hseen, hnodup, hknown, hmark, hlive⟩, fun x hx => ?_⟩
  obtain hx | hx := List.mem_append.mp hx
  · exact hpolls x hx
  · rw [List.mem_singleton.mp hx]
    exact ⟨hlive hon, hmark, by simp⟩

theorem Consistent.startAlerts {s : State} (hs : Consistent s) {now : Nat} (hnow : now ≠ 0) :
    Consistent (startAlerts s now) := by
  unfold Alerts.startAlerts
  split_ifs with hon
  · exact hs
  · obtain ⟨⟨hids, hseen, hnodup, hknown, -, -⟩, hpolls⟩ := hs
    have hset : Consistent { s with alertsOn := true, start := now, eventsSince := now } :=
      ⟨⟨hids, hseen, hnodup, hknown, .inl rfl, fun _ => Nat.pos_of_ne_zero hnow⟩, hpolls⟩
    exact hset.pollEvents rfl

theorem Consistent.deliver {s : State} (hs : Consistent s) {events : List CameraEvent}
    (hev : ∀ e ∈ events, e ∈ s.stored) : Consistent (deliver s events) :=
  ⟨hs.ledger.deliver hev, by simpa using hs.polls⟩

theorem beginTime_of_pos {since : Nat} (h : 0 < since) (now : Nat) :
    beginTime since now = since := by
  simp [beginTime, Nat.pos_iff_ne_zero.mp h]

/-- The events that a served poll goes through are stored. -/
theorem stored_of_response {s : State} {poll : Poll} {old page : List CameraEvent}
    (h : poll.Sound s.stored) (hp : poll.phase = .served old page) {e : CameraEvent}
    (he : e ∈ oldestFirst (respond page poll.since)) : e ∈ s.stored := by
  obtain ⟨hold, -, hwin, -⟩ := h.2.2 old page hp
  have hpage := (mem_respond.mp (mem_oldestFirst.mp he)).1
  exact hold e (hwin e hpage).1

theorem Consistent.step {s t : State} {e : Event} (hs : Consistent s) (h : step s e = some t) :
    Consistent t := by
  cases e with
  | arrives ev =>
    simp only [Alerts.step] at h
    split_ifs at h with hid
    cases h
    have hsub : ∀ e ∈ s.stored, e ∈ ev :: s.stored := fun e he => List.mem_cons_of_mem _ he
    obtain ⟨⟨hids, hseen, hnodup, hknown, hmark, hlive⟩, hpolls⟩ := hs
    refine ⟨⟨fun e he f hf hef => ?_, hseen, hnodup, fun e he => hsub e (hknown e he), hmark,
      hlive⟩, fun poll hpoll => (hpolls poll hpoll).mono hsub⟩
    obtain rfl | he' := List.mem_cons.mp he <;> obtain rfl | hf' := List.mem_cons.mp hf
    · rfl
    · exact absurd ⟨f, hf', hef.symm⟩ hid
    · exact absurd ⟨e, he', hef⟩ hid
    · exact hids e he' f hf' hef
  | startAlerts now =>
    simp only [Alerts.step] at h
    split_ifs at h with hnow
    cases h
    exact hs.startAlerts hnow
  | stopAlerts =>
    cases h
    obtain ⟨⟨hids, hseen, hnodup, hknown, hmark, -⟩, hpolls⟩ := hs
    exact ⟨⟨hids, hseen, hnodup, hknown, hmark, by simp⟩, hpolls⟩
  | tick =>
    simp only [Alerts.step] at h
    split_ifs at h with hon
    cases h
    exact hs.pollEvents hon
  | serve p now page =>
    obtain ⟨poll, hp, h⟩ := Option.bind_eq_some_iff.mp h
    split_ifs at h with hpage
    cases h
    obtain ⟨hpos, hsince, -⟩ := hs.polls poll (List.mem_of_getElem? hp)
    refine hs.setPoll p ⟨hpos, hsince, fun old page' hph => ?_⟩
    cases hph
    exact ⟨fun e he => he, beginTime_of_pos hpos now ▸ hpage.2⟩
  | fail p =>
    obtain ⟨poll, hp, h⟩ := Option.bind_eq_some_iff.mp h
    split_ifs at h with hph
    cases h
    obtain ⟨hpos, hsince, -⟩ := hs.polls poll (List.mem_of_getElem? hp)
    exact hs.setPoll p ⟨hpos, hsince, by simp⟩
  | complete p thrownAt =>
    obtain ⟨poll, hp, h⟩ := Option.bind_eq_some_iff.mp h
    have hsound := hs.polls poll (List.mem_of_getElem? hp)
    split at h
    · rename_i old page hph
      cases h
      have hsettled : ({ poll with phase := .settled } : Poll).Sound s.stored :=
        ⟨hsound.1, hsound.2.1, by simp⟩
      refine (hs.setPoll p hsettled).deliver fun e he => stored_of_response hsound hph ?_
      cases thrownAt with
      | none => exact he
      | some n => exact List.mem_of_mem_take he
    · cases h

/-- A completed poll: `pollEvents` came to the end of its loop. -/
def Completes (s : State) (e : Event) (poll : Poll) (old page : List CameraEvent) : Prop :=
  ∃ p, e = .complete p none ∧ s.polls[p]? = some poll ∧ poll.phase = .served old page

/-- Exactly-once delivery: after a completed poll every event that was stored when it was served
and is newer than `start` has been passed once. -/
def ExactlyOnce (s : State) (e : Event) (t : State) : Prop :=
  ∀ poll old page, Completes s e poll old page → ∀ ev ∈ old, poll.start < ev.time →
    t.passed.count ev = 1

/-- No event is passed twice, and a stored event that a completed poll leaves out is not newer
than one passed before the poll was sent, or is outnumbered in the page. -/
def OnceUnlessPassedOver (s : State) (e : Event) (t : State) : Prop :=
  (∀ ev, t.passed.count ev ≤ 1) ∧
  ∀ poll old page, Completes s e poll old page → ∀ ev ∈ old, poll.start < ev.time →
    t.passed.count ev = 1 ∨ (∃ f ∈ poll.passed, ev.time ≤ f.time) ∨
      eventCount ≤ (old.filter fun f => f ≠ ev ∧ ev.time ≤ f.time).length

theorem onceUnlessPassedOver {s t : State} {e : Event} (hs : Consistent s)
    (h : step s e = some t) : OnceUnlessPassedOver s e t := by
  have ht := hs.step h
  refine ⟨ht.ledger.count_le_one, ?_⟩
  rintro poll old page ⟨p, rfl, hp, hph⟩ ev hev hstart
  obtain ⟨hpos, hsince, hserved⟩ := hs.polls poll (List.mem_of_getElem? hp)
  obtain ⟨hold, hpage⟩ := hserved old page hph
  by_cases hle : ev.time ≤ poll.since
  · obtain heq | ⟨f, hf, hft⟩ := hsince
    · omega
    · exact .inr (.inl ⟨f, hf, by omega⟩)
  by_cases hin : ev ∈ page
  · left
    simp only [step, hp, Option.bind_eq_bind, Option.bind_some, hph, Option.some.injEq] at h
    subst h
    refine ht.ledger.count_passed (by simpa using hold ev hev) (seen_of_mem ?_)
    exact mem_oldestFirst.mpr (mem_respond.mpr ⟨hin, by omega⟩)
  · exact .inr (.inr (hpage.length_newer hev (by omega) hin))

/-- Along every run no event is passed to `handleEvent` twice, and a completed poll leaves out
only stored events that were passed over. -/
theorem onceUnlessPassedOver_along (now : Nat) (es : List Event) :
    Along step OnceUnlessPassedOver (init now) es := by
  refine along_of_inv ?_ (consistent_init now) es
  intro s e t hs h
  exact ⟨onceUnlessPassedOver hs h, hs.step h⟩

def lateRun : List Event :=
  [.startAlerts 100, .arrives ⟨"motion", 300⟩, .serve 0 300 [⟨"motion", 300⟩], .complete 0 none,
    .arrives ⟨"person", 200⟩, .tick, .serve 1 310 [⟨"motion", 300⟩]]

/-- An event that is stored after a newer one has been passed is never passed. -/
theorem late_event_not_passed :
    ¬ Along step ExactlyOnce (init 1) (lateRun ++ [.complete 1 none]) := by
  intro h
  have hlast := along_last rfl rfl h
  have hcount := hlast _ _ _ ⟨1, rfl, rfl, rfl⟩ ⟨"person", 200⟩ (by decide) (by decide)
  exact absurd hcount (by decide)

end WyzeCams.Alerts
