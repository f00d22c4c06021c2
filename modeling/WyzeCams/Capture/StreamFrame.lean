import Mathlib.Logic.Function.Basic
import WyzeCams.Lib.Machine

/-! `captureStreamFrame` of `src/cameraStreamCapture.js`: the promises it creates, the three
races it awaits, and the callbacks that settle them. One event is one callback or one
continuation; `turnEnd` marks the end of an event-loop turn. -/
namespace WyzeCams.StreamFrame
open Function

inductive Name where
  | ffmpegOutcome | remoteAnswered | openPromise | timeout
  deriving DecidableEq, Repr

inductive Status where
  | pending | fulfilled | rejected
  deriving DecidableEq, Repr

structure Promise where
  status : Status
  handled : Bool
  deriving DecidableEq, Repr

/-- The await at which `captureStreamFrame` is suspended; `left` once `cleanup` has run. -/
inductive Phase where
  | race1 | offering | describing | race2 | race3 | left
  deriving DecidableEq, Repr

/-- How the code between `_pickFreeUdpPort` and the first race ends: it throws before
`ffmpegOutcome` exists, or after that (`new RTCPeerConnection`, `new WebSocket`), or it
reaches the race. -/
inductive Setup where
  | noFfmpeg | noSignaling | ready
  deriving DecidableEq, Repr

inductive Message where
  | answer | candidate
  deriving DecidableEq, Repr

/-- `winner` is what the promise that decides the current race settled with. -/
structure State where
  phase : Phase
  winner : Option Bool
  promises : Name → Option Promise
  stdout : Bool
  wsClosed : Bool
  applying : Message → Nat

/-- The promises of the race that a phase awaits, in the order of the array. -/
def members : Phase → List Name
  | .race1 => [.openPromise, .ffmpegOutcome, .timeout]
  | .race2 => [.remoteAnswered, .ffmpegOutcome, .timeout]
  | .race3 => [.ffmpegOutcome, .timeout]
  | _ => []

def Promise.outcome (p : Promise) : Option Bool :=
  match p.status with
  | .pending => none
  | .fulfilled => some true
  | .rejected => some false

/-- `await Promise.race(members)`: every member gets a handler, and the first one that has
already settled wins. -/
def race (s : State) (phase : Phase) : State :=
  { s with
    phase := phase
    promises := fun n =>
      if n ∈ members phase then (s.promises n).map fun p => { p with handled := true }
      else s.promises n
    winner := (members phase).findSome? fun n => (s.promises n).bind Promise.outcome }

/-- The `resolve` or `reject` of a promise; the first call settles it. -/
def settle (s : State) (n : Name) (ok : Bool) : State :=
  match s.promises n with
  | some ⟨.pending, handled⟩ =>
    { s with
      promises := update s.promises n (some ⟨if ok then .fulfilled else .rejected, handled⟩)
      winner := if s.winner = none ∧ n ∈ members s.phase then some ok else s.winner }
  | _ => s

def created : Setup → Name → Option Promise
  | .noFfmpeg, _ => none
  | .noSignaling, .ffmpegOutcome => some ⟨.pending, false⟩
  | .noSignaling, _ => none
  | .ready, _ => some ⟨.pending, false⟩

def init (setup : Setup) : State :=
  let s : State := ⟨.left, none, created setup, false, false, fun _ => 0⟩
  if setup = .ready then race s .race1 else s

inductive Event where
  | ffmpegData
  | ffmpegError
  | ffmpegClose
  | wsOpen
  | wsError
  | wsClose (code : Nat)
  | message (m : Message)
  | applied (m : Message) (ok : Bool)
  | timer
  | offerSettled (ok : Bool)
  | localSettled (ok : Bool)
  | resume
  | turnEnd
  deriving DecidableEq, Repr

/-- The continuation of a race: `resume` runs it once the race is decided. -/
def resume (s : State) (ok : Bool) : Option State :=
  match s.phase, ok with
  | .race1, true => some { s with phase := .offering, winner := none }
  | .race2, true => some (race s .race3)
  | .race1, false | .race2, false | .race3, _ => some { s with phase := .left, winner := none }
  | _, _ => none

def step (s : State) : Event → Option State
  | .ffmpegData =>
    if (s.promises .ffmpegOutcome).isSome then some { s with stdout := true } else none
  | .ffmpegError =>
    if (s.promises .ffmpegOutcome).isSome then some (settle s .ffmpegOutcome false) else none
  | .ffmpegClose =>
    if (s.promises .ffmpegOutcome).isSome then some (settle s .ffmpegOutcome s.stdout) else none
  | .wsOpen =>
    if (s.promises .remoteAnswered).isSome then some (settle s .openPromise true) else none
  | .wsError =>
    if (s.promises .remoteAnswered).isSome then
      some (settle (settle s .remoteAnswered false) .openPromise false)
    else none
  | .wsClose code =>
    if (s.promises .remoteAnswered).isSome ∧ s.wsClosed = false then
      let s := { s with wsClosed := true }
      some (if code ≠ 1000 then settle s .remoteAnswered false else s)
    else none
  | .message m =>
    if (s.promises .remoteAnswered).isSome then
      some { s with applying := update s.applying m (s.applying m + 1) }
    else none
  | .applied m ok =>
    if s.applying m = 0 then none
    else
      let s := { s with applying := update s.applying m (s.applying m - 1) }
      some (match m, ok with
        | _, false => settle s .remoteAnswered false
        | .answer, true => settle s .remoteAnswered true
        | .candidate, true => s)
  | .timer =>
    if (s.promises .timeout).isSome then some (settle s .timeout false) else none
  | .offerSettled ok =>
    if s.phase = .offering then some { s with phase := if ok then .describing else .left }
    else none
  | .localSettled ok =>
    if s.phase = .describing then some (if ok then race s .race2 else { s with phase := .left })
    else none
  | .resume => s.winner.bind (resume s)
  | .turnEnd => some s

/-- No promise is rejected without a handler. -/
def NoUnhandled (s : State) : Prop :=
  ∀ n p, s.promises n = some p → p.status = .rejected → p.handled = true

end WyzeCams.StreamFrame
