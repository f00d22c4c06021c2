import WyzeCams.Api.Backoff

/-! The waits of any number of calls of `maybeLogin` on one object. While one of them is in the loop
of `waitForDebounceClearance`, the others may lengthen its wait. -/
namespace WyzeCams.Api.DebounceWait
open Async EventMachine
open Backoff (InRange)
open Turns (Outside outside)

inductive Phase where
  | idle
  /-- The token file has been read. -/
  | loaded
  /-- The call goes on without a wait. -/
  | away
  /-- The call is in the loop, and so many sleeps are over. -/
  | awake (sleeps : Nat)
  /-- So many sleeps have begun, the last of which is not over. -/
  | asleep (sleeps : Nat)
  /-- The wait has ended after so many sleeps. -/
  | ended (sleeps : Nat)

/-- The wait begins where a call finds no token after its look into the file, and the debounce not
cleared. It has ended when the call that awaits it is about to go on. -/
def Phase.note (s : State) : Phase → Item sig → Phase
  | .idle, .answer (.readFile _) _ => .loaded
  | .loaded, .answer _ _ =>
    if s.access_token.truthy || isDebounceCleared s s.now then .away else .awake 0
  | .awake k, .ask (.sleep _) => .asleep (k + 1)
  | .awake k, .ask .tick => .ended k
  | .asleep k, .answer _ _ => .awake k
  | p, _ => p

abbrev observer : Observer sig := ⟨Phase, fun _ => .idle, fun _ s => Phase.note s⟩

/-- Between two turns a call in the loop is asleep, for the 150th time at most. -/
def Phase.fine : Phase → Prop
  | .awake _ => False
  | .asleep k => k ≤ 150
  | .ended k => k ≤ 150
  | _ => True

def Phase.settled : Phase → Prop
  | .away => True
  | .ended _ => True
  | _ => False

theorem note_of_settled {p : Phase} (hp : p.settled) (s : State) (x : Item sig) :
    p.note s x = p := by
  cases p with
  | away => rfl
  | ended k => rfl
  | _ => exact absurd hp id

/-- What a turn does. The bound on the sleeps rests on the debounce that the turn has found. -/
structure Waits (s : State) (p : Phase) (t : State) (q : Phase) : Prop where
  range : InRange s → InRange t
  fine : InRange s → p.fine → q.fine

abbrev waits : Deed observer := fun _ s p t q => Waits s p t q

abbrev anyone : Role waits.monitor := waits.anyone

theorem waits_refl (n : Nat) (s : State) (p : Phase) : waits n s p s p := ⟨id, fun _ => id⟩

def Sound : Assn waits.monitor := fun s g => waits.monitor.inv s g

/-- The call has been resumed, and has done nothing since; `F` held of it while it was suspended. -/
def Resumed (F : Phase → Prop) (op : Op) (a : op.Ans) : Assn waits.monitor := fun s g =>
  s = g.state ∧ F g.before ∧ g.seen = Phase.note s g.before (.answer op a)

variable {P : Assn waits.monitor} {α : Type}

theorem leads_resumed (F : Phase → Prop) {op : Op}
    (h : ∀ s g, P s g → Sound s (waits.monitor.note g (.ask op)) ∧
      F (waits.monitor.note g (.ask op)).seen) :
    Leads anyone P op (fun s g => Sound s g ∧ F g.seen) (Resumed F op) := by
  have hleads := waits.leads F h
  refine ⟨hleads.steady, hleads.ask, fun a s g hs ha => ⟨trivial, ?_⟩⟩
  obtain ⟨-, rfl, hbefore, hseen⟩ := hleads.answer a s g hs ha
  exact ⟨rfl, hbefore, hseen⟩

theorem note_of_same {g : waits.monitor.Ghost} {x : Item sig}
    (h : Phase.note g.state g.seen x = g.seen) : waits.monitor.note g x = g := by
  show { g with seen := Phase.note g.state g.seen x } = g
  rw [h]

def Settled : Assn waits.monitor := fun s g => Sound s g ∧ Phase.settled g.seen

theorem settled_of_resumed {op : Op} {a : op.Ans} {s : State} {g : waits.monitor.Ghost}
    (h : Resumed Phase.settled op a s g) : Settled s g := by
  obtain ⟨rfl, hsettled, hseen⟩ := h
  rw [note_of_settled hsettled] at hseen
  refine ⟨?_, by rw [hseen]; exact hsettled⟩
  show Waits g.state g.before g.state g.seen
  rw [hseen]
  exact waits_refl g.turn _ _

theorem Settled.note {s : State} {g : waits.monitor.Ghost} (h : Settled s g) (x : Item sig) :
    Settled s (waits.monitor.note g x) := by
  rw [note_of_same (note_of_settled h.2 g.state x)]
  exact h

theorem survives_settled (op : Op) : Survives anyone Settled op := by
  have h := @leads_resumed Settled Phase.settled op fun s g hs => hs.note (.ask op)
  exact ⟨h.steady, h.ask, fun a s g hs ha =>
    ⟨trivial, settled_of_resumed (h.answer a s g hs ha).2⟩⟩

theorem Settled.update {s t : State} {g : waits.monitor.Ghost} (h : Settled s g)
    (ht : InRange s → InRange t) : Settled t g :=
  ⟨⟨fun hs => ht (h.1.range hs), h.1.fine⟩, h.2⟩

/-- The rest of a login leaves the debounce alone. -/
theorem closed_settled : Closed anyone Settled where
  steady := (survives_settled .tick).steady
  stops _ _ _ := trivial
  calm op _ := survives_settled op
  credential op _ := survives_settled op
  marked _ _ := ⟨fun _ _ hs => ⟨trivial, hs.note _⟩, fun _ _ hs => ⟨trivial, hs.note _⟩⟩
  clear _ _ hs := ⟨trivial, hs.update id⟩
  store _ _ _ _ hs := ⟨trivial, trivial, (hs.note _).update id⟩
  file := ⟨fun _ _ => survives_settled _, fun _ _ _ hs => ⟨trivial, hs.update id⟩⟩

theorem keeps_note (m : Mark) : Keeps anyone anyone Settled (note m) :=
  Triple.note fun _ _ hs => ⟨trivial, hs.note _⟩

theorem keeps_login (cfg : Config) (fuel : Nat) :
    Keeps anyone anyone Settled (login cfg fuel) :=
  closed_settled.keeps_login (fun m _ => keeps_note m) cfg fuel

theorem keeps_tryLogin (cfg : Config) (fuel now : Nat) :
    Keeps anyone anyone Settled (tryLogin cfg fuel now) := by
  rw [tryLogin]
  refine Keeps.bind (Triple.modify fun s g hs => ⟨trivial, hs.update id⟩) fun _ => ?_
  exact keeps_awaitCall closed_settled.calm (keeps_login cfg fuel)

theorem keeps_resetDebounceIfNeeded (now : Nat) :
    Keeps anyone anyone Settled (resetDebounceIfNeeded now) := by
  refine Triple.modify fun s g hs => ⟨trivial, hs.update fun hrange => ?_⟩
  split_ifs
  · exact ⟨Nat.le_refl 1000, show 1000 ≤ 300000 from by decide⟩
  · exact hrange

/-- The debounce is doubled up to its cap. -/
theorem inRange_doubled {s : State} (h : InRange s) (now : Nat) :
    InRange { s with
      lastLoginAttempt := now
      loginAttemptDebounceMilliseconds :=
        min (s.loginAttemptDebounceMilliseconds * 2) (5 * 60 * 1000) } := by
  obtain ⟨hlow, hhigh⟩ := h
  constructor
  · show 1000 ≤ min (s.loginAttemptDebounceMilliseconds * 2) (5 * 60 * 1000)
    omega
  · exact Nat.min_le_right _ _

theorem keeps_updateDebounceAndLogin (cfg : Config) (fuel now : Nat) :
    Keeps anyone anyone Settled (updateDebounceAndLogin cfg fuel now) := by
  rw [updateDebounceAndLogin]
  refine Keeps.bind (Triple.modify fun s g hs => ⟨trivial, hs.update fun h => ?_⟩) fun _ => ?_
  · exact inRange_doubled h now
  · exact keeps_awaitCall closed_settled.calm (keeps_login cfg fuel)

theorem triple_launch (cfg : Config) (fuel now : Nat) :
    Triple anyone anyone Settled (updateDebounceAndLogin cfg fuel now).launch fun _ => Sound :=
  triple_launchLogin (Triple.weaken (fun _ _ hs => hs) (fun _ _ _ hs => hs.1)
    (keeps_updateDebounceAndLogin cfg fuel now))

def Awake (k : Nat) : Assn waits.monitor := fun s g =>
  g.seen = .awake k ∧ (InRange g.state → InRange s) ∧
    (InRange g.state → Phase.fine g.before → k ≤ 150)

theorem awake_of_resumed {k : Nat} {a : Unit} {s : State} {g : waits.monitor.Ghost}
    (h : Resumed (· = .asleep k) (.sleep 2000) a s g) : Awake k s g := by
  obtain ⟨rfl, hbefore, hseen⟩ := h
  rw [hbefore] at hseen
  refine ⟨hseen, id, fun _ hfine => ?_⟩
  rw [hbefore] at hfine
  exact hfine

/-- A call that is awake after `k` sleeps has waited `2 * k` seconds, and so sleeps on for the 150th
time at most. -/
theorem Awake.sleeps {k : Nat} {s : State} {g : waits.monitor.Ghost} (h : Awake k s g)
    (hwait : 2000 * k < s.loginAttemptDebounceMilliseconds) :
    Sound s (waits.monitor.note g (.ask (.sleep 2000))) ∧
      (waits.monitor.note g (.ask (.sleep 2000))).seen = .asleep (k + 1) := by
  obtain ⟨hseen, hrange, -⟩ := h
  have hnote : (waits.monitor.note g (.ask (.sleep 2000))).seen = .asleep (k + 1) := by
    show Phase.note g.state g.seen _ = _
    rw [hseen]
    rfl
  refine ⟨⟨hrange, fun hs _ => ?_⟩, hnote⟩
  rw [hnote]
  have hcap := (hrange hs).2
  show k + 1 ≤ 150
  omega

/-- The wait that is awaited has ended. -/
theorem Awake.returns {k : Nat} {s : State} {g : waits.monitor.Ghost} (h : Awake k s g) :
    Sound s (waits.monitor.note g (.ask .tick)) ∧
      Phase.settled (waits.monitor.note g (.ask .tick)).seen := by
  obtain ⟨hseen, hrange, hk⟩ := h
  have hnote : (waits.monitor.note g (.ask .tick)).seen = .ended k := by
    show Phase.note g.state g.seen _ = _
    rw [hseen]
    rfl
  refine ⟨⟨hrange, fun hs hfine => ?_⟩, ?_⟩
  · rw [hnote]
    exact hk hs hfine
  · rw [hnote]
    trivial

/-- The loop does not run out of fuel: it ends awake, before its 151st sleep. -/
theorem triple_waitForDebounceClearance {fuel k : Nat} (hfuel : 150 < fuel + k) :
    Triple anyone anyone (Awake k) (waitForDebounceClearance fuel (2000 * k)) fun r s g =>
      r = .ok () ∧ ∃ n, Awake n s g := by
  induction fuel generalizing k with
  | zero =>
    refine ⟨fun s g hs => ⟨trivial, hs.2.1, fun hrange hfine => ?_⟩⟩
    have hk := hs.2.2 hrange hfine
    omega
  | succ fuel ih =>
    have hdone : ∀ n, Triple anyone anyone (Awake n) (pure () : Method Unit) fun r s g =>
        r = .ok () ∧ ∃ n, Awake n s g := fun n => Triple.ret fun s g hs => ⟨rfl, n, hs⟩
    rw [waitForDebounceClearance]
    refine Triple.get_bind fun t => ?_
    by_cases hwait : 2000 * k < t.loginAttemptDebounceMilliseconds
    · rw [if_pos hwait]
      have hsleep := @leads_resumed (fun s g => s = t ∧ Awake k s g) (· = .asleep (k + 1))
        (.sleep 2000) fun s g hs => hs.2.sleeps (hs.1 ▸ hwait)
      refine Triple.ask_bind hsleep fun a => Triple.get_bind fun t' => ?_
      refine Triple.weaken (P := Awake (k + 1)) (fun s g hs => awake_of_resumed hs.2)
        (fun _ _ _ hs => hs) ?_
      split_ifs
      · exact hdone (k + 1)
      · exact ih (by omega)
    · rw [if_neg hwait]
      exact Triple.weaken (fun _ _ hs => hs.2) (fun _ _ _ hs => hs) (hdone k)

theorem triple_awaitWait {fuel : Nat} (hfuel : 150 < fuel) :
    Triple anyone anyone (Awake 0) (awaitCall (waitForDebounceClearance fuel 0)) fun r s g =>
      r = .ok () ∧ Settled s g := by
  refine Triple.awaited (K := fun r s g => r = .ok () ∧ Sound s g ∧ Phase.settled g.seen)
    (fun r => ?_) (triple_waitForDebounceClearance (k := 0) hfuel)
  have htick := @leads_resumed (fun s g => ∃ n, Awake n s g) Phase.settled .tick
    fun s g hs => hs.choose_spec.returns
  refine ⟨⟨fun s g hs => hs.2.1, fun s g t i hs hi hr => ?_⟩, fun s g hs => ?_,
    fun a s g hs ha => ?_⟩
  · exact ⟨hs.1, htick.steady.stable s g t i hs.2 hi hr⟩
  · obtain ⟨hall, hguar, hask⟩ := htick.ask s g hs.2
    exact ⟨hall, hguar, hs.1, hask⟩
  · exact ⟨trivial, hs.1, settled_of_resumed (htick.answer a s g hs.2 ha).2⟩

def afterLoading : Except Err Unit → Phase
  | .ok _ => .loaded
  | .error _ => .idle

theorem triple_loadPersistedTokens (cfg : Config) :
    Triple anyone anyone (fun s g => Sound s g ∧ g.seen = .idle) (loadPersistedTokens cfg)
      fun r s g => Sound s g ∧ g.seen = afterLoading r := by
  rw [loadPersistedTokens]
  cases cfg.tokenPath with
  | error e => exact Triple.raise fun s g hs => hs
  | ok path =>
    have hread := @leads_resumed (fun s g => Sound s g ∧ g.seen = .idle) (· = .idle)
      (.readFile path) fun s g hs => by
        rw [note_of_same (by rw [hs.2]; rfl)]
        exact hs
    refine Triple.ask_bind hread fun (content : Option Value) => ?_
    have hloaded : ∀ s (g : waits.monitor.Ghost),
        Resumed (· = .idle) (.readFile path) content s g → Sound s g ∧ g.seen = .loaded := by
      rintro s g ⟨rfl, hbefore, hseen⟩
      rw [hbefore] at hseen
      refine ⟨⟨id, fun _ _ => ?_⟩, hseen⟩
      rw [hseen]
      trivial
    cases content with
    | none => exact Triple.ret hloaded
    | some data =>
      dsimp only
      split_ifs
      · refine Triple.modify fun s g hs => ⟨trivial, ?_⟩
        obtain ⟨hs, hseen⟩ := hloaded s g hs
        exact ⟨⟨hs.range, hs.fine⟩, hseen⟩
      · exact Triple.ret hloaded

/-- The call that awaits the look into the file goes on without a wait, at the head of the loop, or
with an exception. -/
theorem triple_awaitLoad (cfg : Config) :
    Triple anyone anyone (fun s g => Sound s g ∧ g.seen = .idle)
      (awaitCall (loadPersistedTokens cfg)) fun r => Resumed (· = afterLoading r) .tick () := by
  refine Triple.awaited (fun r => leads_resumed (· = afterLoading r) fun s g hs => ?_)
    (triple_loadPersistedTokens cfg)
  rw [note_of_same (by rw [hs.2]; cases r <;> rfl)]
  exact hs

theorem triple_loginUnlessToken (cfg : Config) {fuel : Nat} (hfuel : 150 < fuel) :
    Triple anyone anyone (Resumed (· = .loaded) .tick ()) (loginUnlessToken cfg fuel)
      fun _ => Sound := by
  have hsettled : ∀ s (g : waits.monitor.Ghost), Resumed (· = .loaded) .tick () s g →
      (s.access_token.truthy || isDebounceCleared s s.now) = true → Settled s g := by
    rintro s g ⟨rfl, hbefore, hseen⟩ haway
    have hphase : g.seen = .away := by
      rw [hseen, hbefore]
      exact if_pos haway
    rw [Settled, hphase]
    refine ⟨⟨id, fun _ _ => ?_⟩, trivial⟩
    rw [hphase]
    trivial
  rw [loginUnlessToken]
  refine Triple.get_bind fun t => ?_
  split_ifs with htoken hcleared
  · refine Triple.ret ?_
    rintro s g ⟨rfl, hs⟩
    exact (hsettled s g hs (by rw [htoken]; rfl)).1
  · refine Triple.weaken (P := Settled) ?_ (fun _ _ _ hs => hs.1)
      (Keeps.bind (keeps_resetDebounceIfNeeded t.now) fun _ =>
        keeps_awaitCall closed_settled.calm (keeps_tryLogin cfg fuel t.now))
    rintro s g ⟨rfl, hs⟩
    exact hsettled s g hs (by rw [hcleared, Bool.or_true])
  · refine Triple.weaken (P := Awake 0) ?_ (fun _ _ _ hs => hs)
      (Triple.bind (triple_awaitWait hfuel) (fun _ => ?_) fun _ _ _ hs => absurd hs.1 error_ne_ok)
    · rintro s g ⟨rfl, rfl, hbefore, hseen⟩
      refine ⟨?_, id, fun _ _ => Nat.zero_le 150⟩
      rw [hseen, hbefore]
      exact if_neg (by rw [Bool.or_eq_true, not_or]; exact ⟨htoken, hcleared⟩)
    · refine Triple.get_bind fun t' => Triple.weaken (P := Settled) (fun s g hs => hs.2.2)
        (fun _ _ _ hs => hs) ?_
      split_ifs
      · exact Triple.ret fun s g hs => hs.1
      · exact Triple.note_bind (fun s g hs => ⟨trivial, hs.note _⟩) (triple_launch cfg fuel t.now)

theorem triple_maybeLogin (cfg : Config) {fuel : Nat} (hfuel : 150 < fuel) :
    Triple anyone anyone (fun s g => Sound s g ∧ g.seen = .idle) (maybeLogin cfg fuel)
      fun _ => Sound := by
  rw [maybeLogin]
  refine Triple.get_bind fun t => Triple.weaken
    (P := fun s g => Sound s g ∧ g.seen = .idle) (fun s g hs => hs.2) (fun _ _ _ hs => hs) ?_
  split_ifs
  · exact Triple.ret fun s g hs => hs.1
  · refine Triple.bind (triple_awaitLoad cfg) (fun _ => triple_loginUnlessToken cfg hfuel) ?_
    rintro e s g ⟨rfl, hbefore, hseen⟩
    rw [hbefore] at hseen
    refine ⟨id, fun _ _ => ?_⟩
    rw [hseen]
    trivial

theorem does_maybeLogin (cfg : Config) {fuel : Nat} (hfuel : 150 < fuel) :
    waits.Does (fun _ => True) (maybeLogin cfg fuel) := by
  intro n s
  refine wp_mono (fun _ _ _ hs => ⟨hs, trivial⟩) ((triple_maybeLogin cfg hfuel).holds s _ ?_)
  exact ⟨waits_refl n s _, rfl⟩

abbrev LoginTurn := Turn sig Unit Outside

abbrev step (cfg : Config) (fuel : Nat) : Crowd observer → LoginTurn → Option (Crowd observer) :=
  Crowd.step (fun _ => maybeLogin cfg fuel) outside

/-- What holds of the calls between two turns. A call in the background has its wait behind it. -/
structure Bounded (c : Crowd observer) : Prop where
  sound : c.Sound waits fun _ => True
  range : InRange c.state
  fine : ∀ (i : Nat) (call : Call observer), c.calls[i]? = some call → call.detached = false →
    Phase.fine call.seen

theorem bounded_step {cfg : Config} {fuel : Nat} (hfuel : 150 < fuel) {c d : Crowd observer}
    {e : LoginTurn} (hc : Bounded c) (h : step cfg fuel c e = some d) : Bounded d := by
  obtain ⟨hsound, hrange, hfine⟩ := hc
  obtain ⟨hturn, hsound'⟩ := deed_step waits_refl (fun _ => does_maybeLogin cfg hfuel) hsound h
  refine ⟨hsound', ?_, fun i call hcall hown => ?_⟩
  · cases e with
    | outside o =>
      obtain ⟨s, hs, rfl⟩ := Option.map_eq_some_iff.mp h
      exact hrange.outside hs
    | start k => exact (hturn _ rfl).range hrange
    | resume i f => exact (hturn i rfl).range hrange
  · obtain hold | ⟨hactor, hbefore⟩ := own_of_step h hcall hown
    · exact hfine i call hold hown
    · have hdeed := (hturn i hactor).fine hrange
      rw [seen_of_getElem? hcall] at hdeed
      apply hdeed
      cases hold : c.calls[i]? with
      | none =>
        rw [Crowd.seen, hold]
        trivial
      | some old =>
        rw [seen_of_getElem? hold]
        exact hfine i old hold (hbefore old hold)

theorem bounded_of_reachable {cfg : Config} {fuel : Nat} (hfuel : 150 < fuel) {now : Nat}
    {tokenFile : Option Value} {c : Crowd observer}
    (h : Reachable (step cfg fuel) (Crowd.start (init now tokenFile)) c) : Bounded c := by
  refine inv_of_reachable (fun _ _ _ hc hstep => bounded_step hfuel hc hstep)
    ⟨sound_empty _, ?_, ?_⟩ h
  · exact ⟨Nat.le_refl 1000, show 1000 ≤ 300000 from by decide⟩
  · exact fun i call hcall => nomatch hcall

def Phase.next (k : Nat) (p : Phase) : Prop := p = .awake k ∨ p = .asleep (k + 1) ∨ p = .ended k

theorem next_of_ask {k : Nat} (s : State) {p : Phase} (op : Op) (h : p.next k) :
    (p.note s (.ask op)).next k := by
  rcases h with rfl | rfl | rfl
  · cases op with
    | sleep ms => exact .inr (.inl rfl)
    | tick => exact .inr (.inr rfl)
    | _ => exact .inl rfl
  · exact .inr (.inl rfl)
  · exact .inr (.inr rfl)

theorem next_of_mark {k : Nat} (s : State) {p : Phase} (m : Mark) (h : p.next k) :
    (p.note s (.mark m)).next k := by
  rcases h with rfl | rfl | rfl
  · exact .inl rfl
  · exact .inr (.inl rfl)
  · exact .inr (.inr rfl)

/-- In its next turn a call that was asleep sleeps once more, or its wait has ended. -/
theorem next_of_resume {cfg : Config} {fuel : Nat} {c d : Crowd observer} {i k : Nat}
    {call : Call observer} {f : ∀ op : Op, op.Ans} (hcall : c.calls[i]? = some call)
    (hasleep : call.seen = .asleep k) (h : step cfg fuel c (.resume i f) = some d) :
    ∃ call' : Call observer, d.calls[i]? = some call' ∧ call'.detached = call.detached ∧
      Phase.next k call'.seen := by
  obtain ⟨l, b, op, rest, hold, hacted⟩ := acted_of_resume h
  rw [hcall] at hold
  cases hold
  have hawake : Phase.next k (observer.note c.turn c.state l (.answer op (f op))) := by
    rw [show l = .asleep k from hasleep]
    exact .inl rfl
  exact ⟨_, hacted.own, rfl, @seen_segment _ _ observer (Phase.next k)
    (fun _ s _ op hl => next_of_ask s op hl) (fun _ s _ m hl => next_of_mark s m hl) _ _ _ _ _
    hawake⟩

/-- In every state that the calls can reach the debounce is between one second and five minutes. No
call has slept more than 150 times in its wait; each time that it is woken it begins another sleep,
or its wait has ended. -/
theorem waits_end (cfg : Config) {fuel : Nat} (hfuel : 150 < fuel) {now : Nat}
    {tokenFile : Option Value} {c : Crowd observer}
    (h : Reachable (step cfg fuel) (Crowd.start (init now tokenFile)) c) :
    InRange c.state ∧ ∀ (i : Nat) (call : Call observer), c.calls[i]? = some call →
      call.detached = false → Phase.fine call.seen ∧ ∀ k, call.seen = .asleep k → ∀ f d,
        step cfg fuel c (.resume i f) = some d →
          k < 150 ∧ d.seen i = .asleep (k + 1) ∨ d.seen i = .ended k := by
  have hc := bounded_of_reachable hfuel h
  refine ⟨hc.range, fun i call hcall hown => ⟨hc.fine i call hcall hown, ?_⟩⟩
  intro k hasleep f d hstep
  obtain ⟨call', hcall', hown', hnext⟩ := next_of_resume hcall hasleep hstep
  have hfine := (bounded_step hfuel hc hstep).fine i call' hcall' (hown'.trans hown)
  rw [seen_of_getElem? hcall']
  rcases hnext with hnext | hnext | hnext
  · rw [hnext] at hfine
    exact absurd hfine id
  · rw [hnext] at hfine
    exact .inl ⟨hfine, hnext⟩
  · exact .inr hnext

def earlyCall : List LoginTurn :=
  .start () :: List.replicate 2 (.resume 0 (reply (.failed ⟨"Error", []⟩)))

theorem waits_end_early : ∃ c, Reachable (step config 151) (Crowd.start (init 500 none)) c ∧
    c.seen 0 = .asleep 1 ∧ InRange c.state := by
  have hrun : ∃ c, run (step config 151) (Crowd.start (init 500 none)) earlyCall = some c ∧
      c.seen 0 = .asleep 1 := ⟨_, rfl, rfl⟩
  obtain ⟨c, hc, hasleep⟩ := hrun
  exact ⟨c, ⟨earlyCall, hc⟩, hasleep, (waits_end config (by decide) ⟨earlyCall, hc⟩).1⟩

end WyzeCams.Api.DebounceWait
