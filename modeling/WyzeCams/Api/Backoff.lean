import WyzeCams.Api.Debounce

/-! How the debounce grows with the logins of any number of calls of `maybeLogin` on one object. -/
namespace WyzeCams.Api.Backoff
open Async EventMachine
open Turns (Outside outside)

/-- What is remembered of a call: how many logins it has begun, and whether it has waited for the
debounce before. -/
structure Ledger where
  logins : Nat
  waited : Bool

def Ledger.note (l : Ledger) : Item sig → Ledger
  | .mark .loginStarted => { l with logins := l.logins + 1 }
  | .mark .notAwaited => { l with waited := true }
  | _ => l

abbrev observer : Observer sig := ⟨Ledger, fun _ => ⟨0, false⟩, fun _ _ => Ledger.note⟩

def resetDebounce (s : State) : Nat :=
  if s.now - s.lastLoginAttempt > 12 * 60 * 60 * 1000 then 1000
  else s.loginAttemptDebounceMilliseconds

inductive Growth (s : State) (l : Ledger) (t : State) (m : Ledger) : Prop where
  | none (hlogins : m.logins = l.logins)
      (hdebounce : t.loginAttemptDebounceMilliseconds = s.loginAttemptDebounceMilliseconds)
  | cleared (hlogins : m.logins = l.logins + 1) (hwaited : m.waited = false)
      (hdebounce : t.loginAttemptDebounceMilliseconds = resetDebounce s)
  | doubled (hlogins : m.logins = l.logins + 1) (hwaited : m.waited = true)
      (hdebounce : t.loginAttemptDebounceMilliseconds =
        min (s.loginAttemptDebounceMilliseconds * 2) (5 * 60 * 1000))

structure Grows (s : State) (l : Ledger) (t : State) (m : Ledger) : Prop where
  now : t.now = s.now
  growth : Growth s l t m

abbrev grows : Deed observer := fun _ s l t m => Grows s l t m

abbrev anyone : Role grows.monitor := grows.anyone

theorem grows_refl (n : Nat) (s : State) (l : Ledger) : grows n s l s l := ⟨rfl, .none rfl rfl⟩

/-- Nothing but the clock, the debounce and the ledger matters. -/
theorem Grows.congr {s t t' : State} {l m m' : Ledger} (h : Grows s l t m) (hnow : t'.now = t.now)
    (hdebounce : t'.loginAttemptDebounceMilliseconds = t.loginAttemptDebounceMilliseconds)
    (hm : m' = m) : Grows s l t' m' := by
  refine ⟨hnow.trans h.now, ?_⟩
  subst hm
  cases h.growth with
  | none hlogins hd => exact .none hlogins (hdebounce.trans hd)
  | cleared hlogins hwaited hd => exact .cleared hlogins hwaited (hdebounce.trans hd)
  | doubled hlogins hwaited hd => exact .doubled hlogins hwaited (hdebounce.trans hd)

def Sound : Assn grows.monitor := fun s g => grows.monitor.inv s g

def Quiet : Assn grows.monitor := fun s g => Sound s g ∧ g.seen.waited = false

def Fresh : Assn grows.monitor := fun s g => s = g.state ∧ g.seen = g.before

theorem sound_of_fresh {s : State} {g : grows.monitor.Ghost} (h : Fresh s g) : Sound s g := by
  obtain ⟨rfl, hseen⟩ := h
  show Grows g.state g.before g.state g.seen
  rw [hseen]
  exact grows_refl g.turn _ _

/-- After an answer a call goes on in a new turn; what it remembers of itself stays. -/
theorem leads_fresh (F : Ledger → Prop) (op : Op) :
    Leads anyone (fun s g => Sound s g ∧ F g.seen) op (fun s g => Sound s g ∧ F g.seen)
      fun _ s g => Fresh s g ∧ F g.seen := by
  have h := @Deed.leads _ _ grows (fun s g => Sound s g ∧ F g.seen) op F fun _ _ hs => hs
  refine ⟨h.steady, h.ask, fun a s g hs ha => ⟨trivial, ?_⟩⟩
  obtain ⟨-, rfl, hbefore, hseen⟩ := h.answer a s g hs ha
  exact ⟨⟨rfl, hseen⟩, by rw [hseen]; exact hbefore⟩

theorem survives (F : Ledger → Prop) (op : Op) :
    Survives anyone (fun s g => Sound s g ∧ F g.seen) op := by
  have h := leads_fresh F op
  exact ⟨h.steady, h.ask, fun a s g hs ha =>
    ⟨trivial, sound_of_fresh (h.answer a s g hs ha).2.1, (h.answer a s g hs ha).2.2⟩⟩

theorem survives_sound (op : Op) : Survives anyone Sound op := by
  have h := survives (fun _ => True) op
  exact ⟨⟨fun s g hs => hs, fun s g t i hs hi _ => hi⟩, fun s g hs => ⟨trivial, trivial, hs⟩,
    fun a s g hs ha => ⟨trivial, (h.answer a s g ⟨hs, trivial⟩ ha).2.1⟩⟩

/-- The rest of a login leaves the debounce alone. -/
theorem closed_sound : Closed anyone Sound where
  steady := ⟨fun _ _ hs => hs, fun _ _ _ _ _ hi _ => hi⟩
  stops _ _ _ := trivial
  calm op _ := survives_sound op
  credential op _ := survives_sound op
  marked _ _ := ⟨fun _ _ hs => ⟨trivial, hs⟩, fun _ _ hs => ⟨trivial, hs⟩⟩
  clear _ _ hs := ⟨trivial, hs.congr rfl rfl rfl⟩
  store _ _ _ _ hs := ⟨trivial, trivial, hs.congr rfl rfl rfl⟩
  file := ⟨fun _ _ => survives_sound _, fun _ _ _ hs => ⟨trivial, hs.congr rfl rfl rfl⟩⟩

def Poised : Assn grows.monitor := fun s g => Sound s (grows.monitor.note g (.mark .loginStarted))

theorem triple_login (cfg : Config) (fuel : Nat) :
    Triple anyone anyone Poised (login cfg fuel) fun _ => Sound := by
  rw [login]
  refine Triple.note_bind (R := Sound) (fun s g hs => ⟨trivial, hs⟩) ?_
  refine Keeps.tryCatch (closed_sound.keeps_loginAttempt cfg fuel) fun e => ?_
  refine Keeps.bind (Triple.note fun s g hs => ⟨trivial, hs⟩) fun _ => keeps_raise e

def Cleared : Assn grows.monitor := fun s g =>
  s.now = g.state.now ∧ s.loginAttemptDebounceMilliseconds = resetDebounce g.state ∧
    g.seen = g.before ∧ g.seen.waited = false

theorem triple_tryLogin (cfg : Config) (fuel now : Nat) :
    Triple anyone anyone Cleared (tryLogin cfg fuel now) fun _ => Sound := by
  rw [tryLogin]
  refine Triple.modify_bind (R := Poised) ?_
    (triple_awaitCall (fun _ => closed_sound.calm) (triple_login cfg fuel))
  rintro s g ⟨hnow, hdebounce, hseen, hwaited⟩
  refine ⟨trivial, hnow, .cleared ?_ hwaited hdebounce⟩
  show g.seen.logins + 1 = g.before.logins + 1
  rw [hseen]

def Waited : Assn grows.monitor := fun s g =>
  s = g.state ∧ g.seen.logins = g.before.logins ∧ g.seen.waited = true

theorem triple_updateDebounceAndLogin (cfg : Config) (fuel now : Nat) :
    Triple anyone anyone Waited (updateDebounceAndLogin cfg fuel now) fun _ => Sound := by
  rw [updateDebounceAndLogin]
  refine Triple.modify_bind (R := Poised) ?_
    (triple_awaitCall (fun _ => closed_sound.calm) (triple_login cfg fuel))
  rintro s g ⟨rfl, hlogins, hwaited⟩
  exact ⟨trivial, rfl, .doubled (congrArg Nat.succ hlogins) hwaited rfl⟩

theorem triple_launch (cfg : Config) (fuel now : Nat) :
    Triple anyone anyone Waited (updateDebounceAndLogin cfg fuel now).launch fun _ => Sound :=
  triple_launchLogin (triple_updateDebounceAndLogin cfg fuel now)

theorem triple_loadPersistedTokens (cfg : Config) :
    Triple anyone anyone Quiet (loadPersistedTokens cfg) fun _ => Quiet := by
  rw [loadPersistedTokens]
  cases cfg.tokenPath with
  | error e => exact keeps_raise e
  | ok path =>
    have hread := leads_fresh (fun l => l.waited = false) (.readFile path)
    refine Triple.ask_bind hread fun (content : Option Value) => ?_
    have hquiet : ∀ s (g : grows.monitor.Ghost), Fresh s g ∧ g.seen.waited = false → Quiet s g :=
      fun s g hs => ⟨sound_of_fresh hs.1, hs.2⟩
    cases content with
    | none => exact Triple.ret hquiet
    | some data =>
      dsimp only
      split_ifs
      · refine Triple.modify fun s g hs => ⟨trivial, ?_, hs.2⟩
        exact (hquiet s g hs).1.congr rfl rfl rfl
      · exact Triple.ret hquiet

/-- Whatever a call did before, its caller goes on in a turn of its own. -/
theorem fresh_awaitCall {α : Type} {P : Assn grows.monitor} {p : Method α}
    (h : Triple anyone anyone P p fun _ => Quiet) :
    Triple anyone anyone P (awaitCall p) fun _ s g => Fresh s g ∧ g.seen.waited = false :=
  Triple.awaited (fun _ => leads_fresh (fun l => l.waited = false) .tick) h

theorem triple_loginUnlessToken (cfg : Config) (fuel : Nat) :
    Triple anyone anyone (fun s g => Fresh s g ∧ g.seen.waited = false)
      (loginUnlessToken cfg fuel) fun _ => Sound := by
  rw [loginUnlessToken]
  refine Triple.get_bind fun t => ?_
  split_ifs with htoken hcleared
  · exact Triple.ret fun s g hs => sound_of_fresh hs.2.1
  · refine Triple.modify_bind (R := Cleared) ?_
      (triple_awaitCall (fun _ => closed_sound.calm) (triple_tryLogin cfg fuel t.now))
    rintro s g ⟨rfl, ⟨rfl, hseen⟩, hwaited⟩
    refine ⟨trivial, ?_, ?_, hseen, hwaited⟩
    · split_ifs <;> rfl
    · rw [resetDebounce]
      split_ifs <;> rfl
  · have hwait : Keeps anyone anyone Quiet (waitForDebounceClearance fuel 0) :=
      keeps_waitForDebounceClearance (fun op _ => survives (fun l => l.waited = false) op)
        (fun s g hs => ⟨trivial, hs.1⟩) fuel 0
    refine Triple.bind (fresh_awaitCall (Triple.weaken (fun s g hs =>
      ⟨sound_of_fresh hs.2.1, hs.2.2⟩) (fun _ _ _ hs => hs) hwait)) (fun _ => ?_)
      fun _ s g hs => sound_of_fresh hs.1
    refine Triple.get_bind fun t' => ?_
    split_ifs with htoken'
    · exact Triple.ret fun s g hs => sound_of_fresh hs.2.1
    · refine Triple.note_bind (R := Waited) ?_ (triple_launch cfg fuel t.now)
      rintro s g ⟨-, ⟨rfl, hseen⟩, -⟩
      refine ⟨trivial, rfl, ?_, rfl⟩
      show g.seen.logins = g.before.logins
      rw [hseen]

theorem triple_maybeLogin (cfg : Config) (fuel : Nat) :
    Triple anyone anyone Quiet (maybeLogin cfg fuel) fun _ => Sound := by
  rw [maybeLogin]
  refine Triple.get_bind fun t => ?_
  split_ifs with htoken
  · exact Triple.ret fun s g hs => hs.2.1
  · refine Triple.bind (fresh_awaitCall (Triple.weaken (fun s g hs => hs.2) (fun _ _ _ hs => hs)
      (triple_loadPersistedTokens cfg))) (fun _ => triple_loginUnlessToken cfg fuel)
      fun _ s g hs => sound_of_fresh hs.1

theorem does_maybeLogin (cfg : Config) (fuel : Nat) :
    grows.Does (fun _ => True) (maybeLogin cfg fuel) := by
  intro n s
  exact wp_mono (fun _ _ _ hs => ⟨hs, trivial⟩)
    ((triple_maybeLogin cfg fuel).holds s _ ⟨grows_refl n s _, rfl⟩)

abbrev LoginTurn := Turn sig Unit Outside

def logsIn (c : Crowd observer) (e : LoginTurn) (d : Crowd observer) : Bool :=
  match c.actor e with
  | some i => (c.seen i).logins < (d.seen i).logins
  | none => false

def waited (c : Crowd observer) (e : LoginTurn) (d : Crowd observer) : Bool :=
  match c.actor e with
  | some i => (d.seen i).waited
  | none => false

def lastLogin (last : Option Nat) (c : Crowd observer) (e : LoginTurn) (d : Crowd observer) :
    Option Nat :=
  if logsIn c e d then some d.state.now else last

abbrev Logins := Crowd observer × Option Nat

def loginStep (cfg : Config) (fuel : Nat) : Logins → LoginTurn → Option Logins :=
  watch (Crowd.step (fun _ => maybeLogin cfg fuel) outside) lastLogin

def startLogins (s : State) : Logins := (Crowd.start s, none)

/-- A login begins less than twelve hours after the one before. -/
def Again (p : Logins) (e : LoginTurn) (q : Logins) : Prop :=
  logsIn p.1 e q.1 = true ∧ ∃ last, p.2 = some last ∧ q.1.state.now < last + 12 * 60 * 60 * 1000

/-- Such a login doubles the debounce, up to the cap. A login that fails does nothing more to it. -/
def Doubles (p : Logins) (e : LoginTurn) (q : Logins) : Prop :=
  Again p e q → min (2 * p.1.state.loginAttemptDebounceMilliseconds) 300000 ≤
    q.1.state.loginAttemptDebounceMilliseconds

/-- Such a login follows a wait, or the debounce is at its cap already and is not reset. -/
def Held (p : Logins) (e : LoginTurn) (q : Logins) : Prop :=
  Again p e q → waited p.1 e q.1 = true ∨
    p.1.state.loginAttemptDebounceMilliseconds = 300000 ∧
      p.1.state.now ≤ p.1.state.lastLoginAttempt + 12 * 60 * 60 * 1000

def InRange (s : State) : Prop :=
  1000 ≤ s.loginAttemptDebounceMilliseconds ∧ s.loginAttemptDebounceMilliseconds ≤ 300000

theorem Grows.inRange {s t : State} {l m : Ledger} (h : Grows s l t m) (hs : InRange s) :
    InRange t := by
  obtain ⟨hlow, hhigh⟩ := hs
  rw [InRange]
  cases h.growth with
  | none _ hd => omega
  | cleared _ _ hd =>
    rw [resetDebounce] at hd
    split_ifs at hd <;> omega
  | doubled _ _ hd => omega

theorem doubles_iff {c d : Crowd observer} {last : Option Nat} {e : LoginTurn} {i : Nat}
    (hi : c.actor e = some i) (hs : InRange c.state)
    (h : Grows c.state (c.seen i) d.state (d.seen i)) {last' : Option Nat} :
    Doubles (c, last) e (d, last') ↔ Held (c, last) e (d, last') := by
  obtain ⟨hlow, hhigh⟩ := hs
  refine forall_congr' fun hagain => ?_
  have hlogs : (c.seen i).logins < (d.seen i).logins := by
    have hyes := hagain.1
    simp only [logsIn, hi, decide_eq_true_iff] at hyes
    exact hyes
  have hwaits : waited c e d = (d.seen i).waited := by rw [waited, hi]
  rw [hwaits]
  dsimp only
  cases h.growth with
  | none hlogins _ => omega
  | cleared _ hwaited hd =>
    rw [hwaited, hd, resetDebounce]
    split_ifs <;> simp <;> omega
  | doubled _ hwaited hd =>
    rw [hwaited, hd]
    simp
    omega

theorem not_again_outside {c d : Crowd observer} {last last' : Option Nat} {o : Outside} :
    ¬ Again (c, last) (.outside o) (d, last') := by
  rintro ⟨hlogs, -⟩
  exact Bool.noConfusion hlogs

theorem InRange.outside {s t : State} (hs : InRange s) {o : Outside} (h : outside o s = some t) :
    InRange t := by
  cases o <;> cases h <;> exact hs

/-- The run rule for two properties of a login that agree while the debounce is in its range. -/
theorem along_of_agree {P Q : Logins → LoginTurn → Logins → Prop} (cfg : Config) (fuel : Nat)
    (hcall : ∀ c d last e i last', c.actor e = some i → InRange c.state →
      Grows c.state (c.seen i) d.state (d.seen i) → Q (c, last) e (d, last') →
        P (c, last) e (d, last'))
    (hout : ∀ c d last o last', P (c, last) (.outside o) (d, last')) {s : State} (hs : InRange s)
    (es : List LoginTurn) (h : Along (loginStep cfg fuel) Q (startLogins s) es) :
    Along (loginStep cfg fuel) P (startLogins s) es :=
  along_watch (I := fun c _ => InRange c.state) grows_refl (fun _ => does_maybeLogin cfg fuel)
    (fun c last e d i hc _ hi hturn _ hq =>
      ⟨hcall c d last e i _ hi hc hturn hq, hturn.inRange hc⟩)
    (fun c last o _ d hc ho hd => ⟨hout c d last o _, by rw [hd]; exact hc.outside ho⟩) hs es h

/-- Along every run of calls, one after the other or not, the logins double the debounce exactly
when each login within twelve hours of the last one follows a wait, or comes with the debounce at
its cap and not reset. -/
theorem doubles_along_iff (cfg : Config) (fuel now : Nat) (tokenFile : Option Value)
    (es : List LoginTurn) :
    Along (loginStep cfg fuel) Doubles (startLogins (init now tokenFile)) es ↔
      Along (loginStep cfg fuel) Held (startLogins (init now tokenFile)) es := by
  have hs : InRange (init now tokenFile) :=
    ⟨Nat.le_refl 1000, show 1000 ≤ 300000 from by decide⟩
  constructor
  · refine along_of_agree cfg fuel
      (fun c d last e i last' hi hc h => (doubles_iff hi hc h).mp) ?_ hs
      es
    exact fun c d last o last' h => absurd h not_again_outside
  · refine along_of_agree cfg fuel (fun c d last e i last' hi hc h => (doubles_iff hi hc h).mpr) ?_
      hs es
    exact fun c d last o last' h => absurd h not_again_outside

def failure : ∀ op : Op, op.Ans := reply (.failed ⟨"Error", []⟩)

def slowPoll : List LoginTurn :=
  .start () :: List.replicate 6 (.resume 0 failure) ++
    [.outside (.later 5000), .start (), .resume 1 failure]

/-- The debounce of one second is found cleared, and stays as it is; the second login fails, too. -/
theorem slow_poll_keeps_debounce :
    ¬ Along (loginStep config 5) Doubles (startLogins (init 100000000 none))
      (slowPoll ++ [.resume 1 failure] ++ List.replicate 4 (.resume 1 failure)) := by
  intro h
  have hlast := along_last rfl rfl (along_append.mp h).1
  exact absurd (hlast ⟨rfl, 100000000, rfl, by decide⟩) (by decide)

end WyzeCams.Api.Backoff
