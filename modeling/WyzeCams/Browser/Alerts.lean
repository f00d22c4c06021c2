import Mathlib.Data.List.Sort
import WyzeCams.Lib.Machine
import WyzeCams.Lib.Table

/-! Browser alerts: `startAlerts` and `pollEvents` of `cam-frontend/public/viewer.html` over
`GET /api/events` of `cam-frontend/server.js` and `getEventList` of `src/index.js`. -/
namespace WyzeCams.Alerts
open EventMachine Table

/-- A stored camera event, as far as polling reads it: `event_id` and `event_ts`. -/
structure CameraEvent where
  id : String
  time : Nat
  deriving DecidableEq, Repr

/-- What the event API answers: `count` events of the window that starts at `beginTime`, none
of them older than an event of the window that is left out. -/
def IsNewest (stored : List CameraEvent) (beginTime count : Nat) (page : List CameraEvent) : Prop :=
  page.Nodup ∧ (∀ e ∈ page, e ∈ stored ∧ beginTime ≤ e.time) ∧
    page.length = min count (stored.filter fun e => beginTime ≤ e.time).length ∧
    ∀ e ∈ stored, beginTime ≤ e.time → e ∉ page → ∀ f ∈ page, e.time ≤ f.time

instance (stored : List CameraEvent) (beginTime count : Nat) (page : List CameraEvent) :
    Decidable (IsNewest stored beginTime count page) := by
  unfold IsNewest
  infer_instance

/-- `begin_time` of `getEventList`: `options.beginTime || now - 60 * 60 * 1000`. -/
def beginTime (since now : Nat) : Nat := if since = 0 then now - 60 * 60 * 1000 else since

/-- `count` of the request that `GET /api/events` makes. -/
def eventCount : Nat := 50

def respond (page : List CameraEvent) (since : Nat) : List CameraEvent :=
  (page.filter fun e => since < e.time).insertionSort fun a b => b.time ≤ a.time

/-- The order in which `pollEvents` goes through a response. -/
def oldestFirst (events : List CameraEvent) : List CameraEvent :=
  events.insertionSort fun a b => a.time ≤ b.time

inductive Phase where
  | requested
  | served (stored page : List CameraEvent)
  | settled
  deriving DecidableEq, Repr

/-- One run of `pollEvents`. `start` and `passed` record the `eventsSince` that `startAlerts` set
and the events already handled when the poll was sent. -/
structure Poll where
  since : Nat
  start : Nat
  passed : List CameraEvent
  phase : Phase
  deriving DecidableEq, Repr

/-- `passed` lists the calls of `handleEvent`, the latest first. -/
structure State where
  stored : List CameraEvent
  alertsOn : Bool
  start : Nat
  eventsSince : Nat
  seenEvents : List String
  passed : List CameraEvent
  polls : List Poll
  deriving DecidableEq, Repr

def init (now : Nat) : State := ⟨[], false, now, now, [], [], []⟩

def pollEvents (s : State) : State :=
  { s with polls := s.polls ++ [⟨s.eventsSince, s.start, s.passed, .requested⟩] }

def startAlerts (s : State) (now : Nat) : State :=
  if s.alertsOn then s
  else pollEvents { s with alertsOn := true, start := now, eventsSince := now }

/-- An event of the response that has not been seen. -/
def handle (s : State) (ev : CameraEvent) : State :=
  { s with
    seenEvents := ev.id :: s.seenEvents
    eventsSince := if s.eventsSince < ev.time then ev.time else s.eventsSince
    passed := ev :: s.passed }

/-- The loop of `pollEvents`. -/
def deliver (s : State) : List CameraEvent → State
  | [] => s
  | ev :: events => if ev.id ∈ s.seenEvents then deliver s events else deliver (handle s ev) events

inductive Event where
  | arrives (ev : CameraEvent)
  | startAlerts (now : Nat)
  | stopAlerts
  | tick
  | serve (p now : Nat) (page : List CameraEvent)
  | fail (p : Nat)
  | complete (p : Nat) (thrownAt : Option Nat)
  deriving DecidableEq, Repr

/-- `thrownAt` is the number of events after which `handleEvent` has thrown, if it has. -/
def step (s : State) : Event → Option State
  | .arrives ev =>
    if ∃ e ∈ s.stored, e.id = ev.id then none else some { s with stored := ev :: s.stored }
  | .startAlerts now => if now = 0 then none else some (startAlerts s now)
  | .stopAlerts => some { s with alertsOn := false }
  | .tick => if s.alertsOn then some (pollEvents s) else none
  | .serve p now page => do
    let poll ← s.polls[p]?
    if poll.phase = .requested ∧ IsNewest s.stored (beginTime poll.since now) eventCount page then
      some { s with polls := s.polls.set p { poll with phase := .served s.stored page } }
    else none
  | .fail p => do
    let poll ← s.polls[p]?
    if poll.phase = .settled then none
    else some { s with polls := s.polls.set p { poll with phase := .settled } }
  | .complete p thrownAt => do
    let poll ← s.polls[p]?
    match poll.phase with
    | .served _ page =>
      let events := oldestFirst (respond page poll.since)
      let s := { s with polls := s.polls.set p { poll with phase := .settled } }
      some (deliver s (match thrownAt with
        | none => events
        | some n => events.take n))
    | _ => none

end WyzeCams.Alerts
