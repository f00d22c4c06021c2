import WyzeCams.Lib.Machine
import WyzeCams.Lib.Table
import WyzeCams.Lib.Timers

/-! `EufyStreamSession` of `cam-frontend/public/viewer.html` and `StreamSession` of
`eufy/public/viewer.html`: one session, with the players and the auto-stop timers it makes. -/
namespace WyzeCams.EufyStream
open EventMachine Table Timer

/-- The page the session belongs to: the combined viewer or the standalone Eufy one. -/
inductive Viewer where
  | combined | standalone
  deriving DecidableEq, Repr

/-- What there is of `mpegts.js` when `start` looks: the script may not be loaded. -/
inductive Mpegts where
  | missing | unsupported | supported
  deriving DecidableEq, Repr

/-- What `start` meets: `creates` says whether `createPlayer` returns, `plays` whether what it
then calls on the player does. -/
structure Page where
  mpegts : Mpegts
  creates : Bool
  plays : Bool
  deriving DecidableEq, Repr

inductive StartedBy where
  | user | autoCapture
  deriving DecidableEq, Repr

inductive StoppedBy where
  | user | start | timer
  deriving DecidableEq, Repr

structure Player where
  startedBy : StartedBy
  stoppedBy : Option StoppedBy
  deriving DecidableEq, Repr

structure State where
  player : Option Nat
  autoStarted : Bool
  autoStopTimer : Option Nat
  players : List Player
  timers : Timers Nat
  deriving DecidableEq, Repr

def init : State := ⟨none, false, none, [], []⟩

inductive Ended where
  | returned | threw
  deriving DecidableEq, Repr

def Player.stop (who : StoppedBy) (p : Player) : Player := { p with stoppedBy := some who }

def stop (s : State) (who : StoppedBy) : State :=
  { s with
    timers := clearHandle s.timers s.autoStopTimer
    autoStopTimer := none
    autoStarted := false
    players := match s.player with
      | some p => s.players.modify p (Player.stop who)
      | none => s.players
    player := none }

/-- `start` once `mpegts.isSupported()` has said yes. -/
def startPlayer (s : State) (page : Page) (who : StartedBy) : State × Ended :=
  let s := stop s .start
  if page.creates = false then (s, .threw)
  else
    let s := { s with player := some s.players.length, players := s.players ++ [⟨who, none⟩] }
    (s, if page.plays then .returned else .threw)

/-- The standalone viewer does not look for the script: without it `mpegts` is not defined. -/
def start (v : Viewer) (s : State) (page : Page) (who : StartedBy) : State × Ended :=
  match v, page.mpegts with
  | .combined, .missing => (s, .returned)
  | .standalone, .missing => (s, .threw)
  | _, .unsupported => (s, .returned)
  | _, .supported => startPlayer s page who

/-- `autoCapture` once it has a player, or has tried to start one. -/
def armAutoStop (s : State) (ms : Nat) : State :=
  let s := { s with autoStarted := true }
  let timers := clearHandle s.timers s.autoStopTimer
  { s with timers := set timers ms, autoStopTimer := some timers.length }

def autoCapture (v : Viewer) (s : State) (page : Page) (ms : Nat) : State :=
  if s.player ≠ none ∧ s.autoStarted = false then s
  else
    match if s.player = none then start v s page .autoCapture else (s, .returned) with
    | (s, .threw) => s
    | (s, .returned) => armAutoStop s ms

inductive Event where
  | start (page : Page)
  | stop
  | autoCapture (page : Page) (ms : Nat)
  | timer (k : Nat)
  deriving DecidableEq, Repr

/-- A timer fires when it is armed, and then no more. -/
def step (v : Viewer) (s : State) : Event → Option State
  | .start page => some (start v s page .user).1
  | .stop => some (stop s .user)
  | .autoCapture page ms => some (autoCapture v s page ms)
  | .timer k =>
    match s.timers[k]? with
    | some (some _) => some (stop { s with timers := clear s.timers k } .timer)
    | _ => none

def Player.Spared (p : Player) : Prop := p.startedBy = .user → p.stoppedBy ≠ some .timer

/-- What a manual start is promised. -/
structure Law (s : State) : Prop where
  single : ∀ k l a b, Armed s.timers k a → Armed s.timers l b → k = l
  autoStarted : ∀ k a, Armed s.timers k a → s.autoStarted = true
  spared : ∀ p ∈ s.players, p.Spared

/-- An armed timer is the one the session remembers, and belongs to a stream that started by
itself; so does the player while `autoStarted` says so. -/
structure Attended (s : State) : Prop where
  remembered : ∀ k a, Armed s.timers k a → s.autoStopTimer = some k ∧ s.autoStarted = true
  player : ∀ p, s.player = some p → ∃ who, s.players[p]? = some ⟨who, none⟩ ∧
    (s.autoStarted = true → who = .autoCapture)
  spared : ∀ (i : Nat) p, s.players[i]? = some p → p.Spared

theorem attended_init : Attended init where
  remembered := fun _ _ h => absurd h not_armed_nil
  player := fun p h => by cases h
  spared := fun i p h => by cases h

theorem Attended.law {s : State} (h : Attended s) : Law s where
  single := fun k l a b hk hl =>
    Option.some.inj ((h.remembered k a hk).1.symm.trans (h.remembered l b hl).1)
  autoStarted := fun k a hk => (h.remembered k a hk).2
  spared := fun p hp => by
    obtain ⟨i, hi⟩ := List.mem_iff_getElem?.mp hp
    exact h.spared i p hi

/-- `stop` keeps a player that the user started from being stopped by a timer: a timer is armed
only while the player is not one of these. -/
theorem Attended.stop {s : State} {who : StoppedBy} (h : Attended s)
    (hwho : who = .timer → s.autoStarted = true) : Attended (stop s who) where
  remembered := fun k a hk => by
    have hk := armed_clearHandle.mp hk
    exact absurd (h.remembered k a hk.2).1 hk.1
  player := fun p hp => by cases hp
  spared := by
    unfold EufyStream.stop
    cases hplayer : s.player with
    | none => exact h.spared
    | some p =>
      obtain ⟨starter, hp, hauto⟩ := h.player p hplayer
      intro i q hq
      rcases getElem?_modified hq with ⟨r, hr, rfl, rfl⟩ | ⟨-, hold⟩
      · cases hp.symm.trans hr
        intro huser htimer
        rw [hauto (hwho (Option.some.inj htimer))] at huser
        cases huser
      · exact h.spared i q hold

structure Idle (s : State) : Prop where
  player : s.player = none
  autoStarted : s.autoStarted = false
  unarmed : ∀ k a, ¬ Armed s.timers k a

theorem Attended.idle {s : State} {who : StoppedBy} (h : Attended s) :
    Idle (EufyStream.stop s who) where
  player := rfl
  autoStarted := rfl
  unarmed := fun k a hk => by
    have hk := armed_clearHandle.mp hk
    exact hk.1 (h.remembered k a hk.2).1

/-- A new player, once the session has been stopped. -/
theorem Attended.add {s : State} (h : Attended s) (hidle : Idle s) (who : StartedBy) :
    Attended { s with player := some s.players.length, players := s.players ++ [⟨who, none⟩] } where
  remembered := h.remembered
  player := fun p hp => by
    cases hp
    exact ⟨who, by simp, fun ha => by rw [hidle.autoStarted] at ha; cases ha⟩
  spared := fun i p hp => by
    rcases getElem?_concat hp with hold | ⟨-, rfl⟩
    · exact h.spared i p hold
    · intro _ ht
      cases ht

theorem Attended.startPlayer {s : State} (h : Attended s) (page : Page) (who : StartedBy) :
    Attended (startPlayer s page who).1 := by
  have hstop : Attended (EufyStream.stop s .start) := h.stop fun ht => by cases ht
  unfold EufyStream.startPlayer
  by_cases hc : page.creates = false
  · rw [if_pos hc]
    exact hstop
  · rw [if_neg hc]
    exact hstop.add h.idle who

theorem Attended.start {v : Viewer} {s : State} (h : Attended s) (page : Page) (who : StartedBy) :
    Attended (start v s page who).1 := by
  unfold EufyStream.start
  split
  · exact h
  · exact h
  · exact h
  · exact h.startPlayer page who

/-- The player, if there is one, was started by `autoCapture`. -/
def Auto (s : State) : Prop := ∀ p, s.player = some p → s.players[p]? = some ⟨.autoCapture, none⟩

theorem Attended.auto {s : State} (h : Attended s) (hauto : s.autoStarted = true) : Auto s := by
  intro p hp
  obtain ⟨who, hget, hwho⟩ := h.player p hp
  rw [hget, hwho hauto]

theorem auto_of_none {s : State} (h : s.player = none) : Auto s := by
  intro p hp
  rw [h] at hp
  cases hp

theorem auto_startPlayer (s : State) (page : Page) :
    Auto (startPlayer s page .autoCapture).1 := by
  unfold startPlayer
  by_cases hc : page.creates = false
  · rw [if_pos hc]
    exact auto_of_none rfl
  · rw [if_neg hc]
    intro p hp
    cases hp
    simp

theorem auto_start {v : Viewer} {s : State} (h : s.player = none) (page : Page) :
    Auto (start v s page .autoCapture).1 := by
  unfold start
  split
  · exact auto_of_none h
  · exact auto_of_none h
  · exact auto_of_none h
  · exact auto_startPlayer s page

theorem Attended.armAutoStop {s : State} (h : Attended s) (hauto : Auto s) (ms : Nat) :
    Attended (armAutoStop s ms) where
  remembered := fun k a hk => by
    refine ⟨?_, rfl⟩
    rcases armed_set.mp hk with hold | ⟨rfl, -⟩
    · have hold := armed_clearHandle.mp hold
      exact absurd (h.remembered k a hold.2).1 hold.1
    · rfl
  player := fun p hp => ⟨.autoCapture, hauto p hp, fun _ => rfl⟩
  spared := h.spared

theorem Attended.autoCapture {v : Viewer} {s : State} (h : Attended s) (page : Page) (ms : Nat) :
    Attended (autoCapture v s page ms) := by
  unfold EufyStream.autoCapture
  split_ifs with hmanual hnone
  · exact h
  · have hstart := h.start (v := v) page .autoCapture
    have hauto := auto_start (v := v) hnone page
    cases hr : EufyStream.start v s page .autoCapture with
    | mk t ended =>
      rw [hr] at hstart hauto
      cases ended with
      | returned => exact hstart.armAutoStop hauto ms
      | threw => exact hstart
  · have hauto : s.autoStarted = true := by
      by_contra hc
      exact hmanual ⟨hnone, by simpa using hc⟩
    exact h.armAutoStop (h.auto hauto) ms

theorem Attended.step {v : Viewer} {s t : State} {e : Event} (h : Attended s)
    (hstep : step v s e = some t) : Attended t := by
  cases e with
  | start page =>
    cases hstep
    exact h.start page .user
  | stop =>
    cases hstep
    exact h.stop fun ht => by cases ht
  | autoCapture page ms =>
    cases hstep
    exact h.autoCapture page ms
  | timer k =>
    cases hk : s.timers[k]? with
    | none => simp [EufyStream.step, hk] at hstep
    | some o =>
      cases o with
      | none => simp [EufyStream.step, hk] at hstep
      | some a =>
        simp only [EufyStream.step, hk, Option.some_inj] at hstep
        rw [← hstep]
        have hfired : Attended { s with timers := clear s.timers k } := {
          remembered := fun l b hl => h.remembered l b (armed_clear.mp hl).2
          player := h.player
          spared := h.spared }
        exact hfired.stop fun _ => (h.remembered k a hk).2

/-- A stream that the user started is never stopped by itself, in either viewer, whatever the
order of clicks, detections and timers. -/
theorem law_of_reachable (v : Viewer) {s : State} (h : Reachable (step v) init s) : Law s :=
  (inv_of_reachable (fun _ _ _ hi hs => hi.step hs) attended_init h).law

def replaced : List Event :=
  let page : Page := ⟨.supported, true, true⟩
  [.autoCapture page 30000, .start page]

theorem law_of_reachable_replaced : ∃ s, run (step .combined) init replaced = some s ∧ Law s :=
  ⟨_, rfl, law_of_reachable .combined ⟨replaced, rfl⟩⟩

end WyzeCams.EufyStream
