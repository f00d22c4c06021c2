import Mathlib.Logic.Function.Basic
import WyzeCams.Lib.Machine

/-! Live view and on-demand snapshots of `eufy/server.js`. One event is one callback or one
continuation of the server: everything between two awaits happens in one step. Viewers,
snapshot refreshes, captures and FFmpeg children are numbered in the order of creation, so
a larger number is a later one. -/
namespace WyzeCams.Eufy
open Function

abbrev Serial := String

/-- `ws.readyState`, as far as the server compares it with `ws.OPEN`. -/
inductive ReadyState where
  | OPEN | CLOSING | CLOSED
  deriving DecidableEq, Repr

/-- The await at which a viewer's `startSession` is suspended. -/
inductive StartPhase where
  | stopping | connecting | starting | returned
  deriving DecidableEq, Repr

structure Viewer where
  sn : Serial
  readyState : ReadyState
  phase : StartPhase
  deriving DecidableEq, Repr

/-- The value kept in `sessions`; `ws` is the number of the viewer that owns the socket. -/
structure Session where
  ws : Nat
  ffmpeg : Option Nat
  deriving DecidableEq, Repr

inductive Child where
  | running | exited | killed
  deriving DecidableEq, Repr

inductive Outcome where
  | pending | resolved | rejected
  deriving DecidableEq, Repr

/-- What `refreshSnapshot` puts into `pendingSnapshots`: the armed 15 s timer and the promise
that all callers of this refresh share. -/
structure Refresh where
  sn : Serial
  timer : Bool
  promise : Outcome
  deriving DecidableEq, Repr

/-- One call of `refreshSnapshot`: awaiting `startStationLivestream` for its own refresh,
returning the promise of a refresh, or settled. -/
inductive Call where
  | starting (g : Nat)
  | waiting (g : Nat)
  | settled
  deriving DecidableEq, Repr

inductive CapturePhase where
  | running | settled | finished
  deriving DecidableEq, Repr

/-- A `captureSnapshotFromStream` chain, holding the entry that its handler closed over. -/
structure Capture where
  sn : Serial
  pending : Nat
  phase : CapturePhase
  deriving DecidableEq, Repr

/-- A call of `eufy.stopStationLivestream(sn)` and whether `sessions.has(sn)` at that moment. -/
structure StopCall where
  sn : Serial
  live : Bool
  deriving DecidableEq, Repr

structure State where
  connected : Bool
  sessions : Serial → Option Session
  viewers : List Viewer
  children : List Child
  pendingSnapshots : Serial → Option Nat
  refreshes : List Refresh
  calls : List Call
  captures : List Capture
  stops : List StopCall

def init : State :=
  ⟨false, fun _ => none, [], [], fun _ => none, [], [], [], []⟩

def stopStationLivestream (s : State) (sn : Serial) : State :=
  { s with stops := ⟨sn, (s.sessions sn).isSome⟩ :: s.stops }

def kill (s : State) : Option Nat → State
  | none => s
  | some c => { s with children := s.children.set c .killed }

/-- `stopSession` up to its await. -/
def stopSession (s : State) (sn : Serial) : State :=
  match s.sessions sn with
  | none => s
  | some session =>
    let s := { s with sessions := update s.sessions sn none }
    stopStationLivestream (kill s session.ffmpeg) sn

/-- The upgrade handler: `startSession` runs up to `await stopSession(sn)`. -/
def startSession (s : State) (sn : Serial) : State :=
  let s := stopSession s sn
  { s with viewers := s.viewers ++ [⟨sn, .OPEN, .stopping⟩] }

/-- `startSession` after `await stopSession(sn)`: register, then call `eufy.connect()`. -/
def registerSession (s : State) (v : Nat) (viewer : Viewer) : State :=
  { s with
    sessions := update s.sessions viewer.sn (some ⟨v, none⟩)
    viewers := s.viewers.set v { viewer with phase := .connecting } }

/-- The `catch` of `startSession`; `ws.close()` takes an open socket out of `OPEN`. -/
def startFailed (s : State) (v : Nat) (viewer : Viewer) : State :=
  let readyState := if viewer.readyState = .OPEN then .CLOSING else viewer.readyState
  { s with
    sessions := update s.sessions viewer.sn none
    viewers := s.viewers.set v { viewer with readyState := readyState, phase := .returned } }

def viewerClosed (s : State) (v : Nat) (viewer : Viewer) : State :=
  stopSession { s with viewers := s.viewers.set v { viewer with readyState := .CLOSED } } viewer.sn

/-- `refreshSnapshot` up to `await eufy.startStationLivestream(sn)`. -/
def refreshSnapshot (s : State) (sn : Serial) : State :=
  if s.connected = false then { s with calls := s.calls ++ [.settled] }
  else if (s.sessions sn).isSome then { s with calls := s.calls ++ [.settled] }
  else match s.pendingSnapshots sn with
    | some g => { s with calls := s.calls ++ [.waiting g] }
    | none =>
      { s with
        refreshes := s.refreshes ++ [⟨sn, true, .pending⟩]
        pendingSnapshots := update s.pendingSnapshots sn (some s.refreshes.length)
        calls := s.calls ++ [.starting s.refreshes.length] }

/-- A promise is settled by the first `resolve` or `reject`. -/
def Refresh.settle (r : Refresh) (o : Outcome) : Refresh :=
  if r.promise = .pending then { r with promise := o } else r

def settlePromise (s : State) (g : Nat) (o : Outcome) : State :=
  { s with refreshes := s.refreshes.modify g fun r => r.settle o }

def clearTimer (s : State) (g : Nat) : State :=
  { s with refreshes := s.refreshes.modify g fun r => { r with timer := false } }

def deletePending (s : State) (sn : Serial) : State :=
  { s with pendingSnapshots := update s.pendingSnapshots sn none }

/-- `refreshSnapshot` after its await: return the promise, or clear up and rethrow. -/
def snapshotStarted (s : State) (c g : Nat) (sn : Serial) (ok : Bool) : State :=
  if ok then { s with calls := s.calls.set c (.waiting g) }
  else
    let s := deletePending (clearTimer s g) sn
    { s with calls := s.calls.set c .settled }

/-- The callback of the 15 s timer. -/
def snapshotTimer (s : State) (g : Nat) (sn : Serial) : State :=
  settlePromise (stopStationLivestream (deletePending (clearTimer s g) sn) sn) g .rejected

def startFfmpeg (s : State) (sn : Serial) (session : Session) : State :=
  { s with
    sessions := update s.sessions sn (some { session with ffmpeg := some s.children.length })
    children := s.children ++ [.running] }

def livestreamStart (s : State) (sn : Serial) : State :=
  match s.pendingSnapshots sn with
  | some g => { s with captures := s.captures ++ [⟨sn, g, .running⟩] }
  | none => match s.sessions sn with
    | none => stopStationLivestream s sn
    | some session => startFfmpeg s sn session

/-- `then` and `catch` of the capture chain. -/
def captureSettled (s : State) (k : Nat) (c : Capture) (ok : Bool) : State :=
  let s := { s with captures := s.captures.set k { c with phase := .settled } }
  settlePromise s c.pending (if ok then .resolved else .rejected)

/-- `finally` of the capture chain. -/
def captureCleanup (s : State) (k : Nat) (c : Capture) : State :=
  let s := { s with captures := s.captures.set k { c with phase := .finished } }
  stopStationLivestream (deletePending (clearTimer s c.pending) c.sn) c.sn

inductive Event where
  | cloud (connected : Bool)
  | viewerConnects (sn : Serial)
  | stopSettled (v : Nat)
  | connectSettled (v : Nat) (ok : Bool)
  | startSettled (v : Nat) (ok : Bool)
  | peerCloses (v : Nat)
  | viewerClosed (v : Nat)
  | refresh (sn : Serial)
  | snapshotStartSettled (c : Nat) (ok : Bool)
  | snapshotTimer (g : Nat)
  | livestreamStart (sn : Serial)
  | captureSettled (k : Nat) (ok : Bool)
  | captureCleanup (k : Nat)
  | ffmpegExit (c : Nat)
  deriving DecidableEq, Repr

def step (s : State) : Event → Option State
  | .cloud b => some { s with connected := b }
  | .viewerConnects sn => some (startSession s sn)
  | .stopSettled v => do
    let viewer ← s.viewers[v]?
    if viewer.phase = .stopping then some (registerSession s v viewer) else none
  | .connectSettled v ok => do
    let viewer ← s.viewers[v]?
    if viewer.phase = .connecting then
      if ok then some { s with viewers := s.viewers.set v { viewer with phase := .starting } }
      else some (startFailed s v viewer)
    else none
  | .startSettled v ok => do
    let viewer ← s.viewers[v]?
    if viewer.phase = .starting then
      if ok then some { s with viewers := s.viewers.set v { viewer with phase := .returned } }
      else some (startFailed s v viewer)
    else none
  | .peerCloses v => do
    let viewer ← s.viewers[v]?
    if viewer.readyState = .OPEN then
      some { s with viewers := s.viewers.set v { viewer with readyState := .CLOSING } }
    else none
  | .viewerClosed v => do
    let viewer ← s.viewers[v]?
    if viewer.readyState = .CLOSED then none else some (viewerClosed s v viewer)
  | .refresh sn => some (refreshSnapshot s sn)
  | .snapshotStartSettled c ok =>
    match s.calls[c]? with
    | some (.starting g) => do
      let r ← s.refreshes[g]?
      some (snapshotStarted s c g r.sn ok)
    | _ => none
  | .snapshotTimer g => do
    let r ← s.refreshes[g]?
    if r.timer then some (snapshotTimer s g r.sn) else none
  | .livestreamStart sn => some (livestreamStart s sn)
  | .captureSettled k ok => do
    let c ← s.captures[k]?
    if c.phase = .running then some (captureSettled s k c ok) else none
  | .captureCleanup k => do
    let c ← s.captures[k]?
    if c.phase = .settled then some (captureCleanup s k c) else none
  | .ffmpegExit c => do
    let child ← s.children[c]?
    if child = .running then some { s with children := s.children.set c .exited } else none

inductive Transition (s : State) : Event → State → Prop where
  | cloud (b : Bool) : Transition s (.cloud b) { s with connected := b }
  | viewerConnects (sn : Serial) : Transition s (.viewerConnects sn) (startSession s sn)
  | registers {v : Nat} {viewer : Viewer} (hv : s.viewers[v]? = some viewer)
      (hp : viewer.phase = .stopping) :
      Transition s (.stopSettled v) (registerSession s v viewer)
  | connects {v : Nat} {viewer : Viewer} (hv : s.viewers[v]? = some viewer)
      (hp : viewer.phase = .connecting) :
      Transition s (.connectSettled v true)
        { s with viewers := s.viewers.set v { viewer with phase := .starting } }
  | connectFails {v : Nat} {viewer : Viewer} (hv : s.viewers[v]? = some viewer)
      (hp : viewer.phase = .connecting) :
      Transition s (.connectSettled v false) (startFailed s v viewer)
  | starts {v : Nat} {viewer : Viewer} (hv : s.viewers[v]? = some viewer)
      (hp : viewer.phase = .starting) :
      Transition s (.startSettled v true)
        { s with viewers := s.viewers.set v { viewer with phase := .returned } }
  | startFails {v : Nat} {viewer : Viewer} (hv : s.viewers[v]? = some viewer)
      (hp : viewer.phase = .starting) :
      Transition s (.startSettled v false) (startFailed s v viewer)
  | peerCloses {v : Nat} {viewer : Viewer} (hv : s.viewers[v]? = some viewer)
      (ho : viewer.readyState = .OPEN) :
      Transition s (.peerCloses v)
        { s with viewers := s.viewers.set v { viewer with readyState := .CLOSING } }
  | closes {v : Nat} {viewer : Viewer} (hv : s.viewers[v]? = some viewer)
      (ho : viewer.readyState ≠ .CLOSED) :
      Transition s (.viewerClosed v) (viewerClosed s v viewer)
  | refresh (sn : Serial) : Transition s (.refresh sn) (refreshSnapshot s sn)
  | snapshotStarted {c g : Nat} {r : Refresh} (hc : s.calls[c]? = some (.starting g))
      (hr : s.refreshes[g]? = some r) (ok : Bool) :
      Transition s (.snapshotStartSettled c ok) (snapshotStarted s c g r.sn ok)
  | snapshotTimer {g : Nat} {r : Refresh} (hr : s.refreshes[g]? = some r)
      (ht : r.timer = true) : Transition s (.snapshotTimer g) (snapshotTimer s g r.sn)
  | livestreamStart (sn : Serial) : Transition s (.livestreamStart sn) (livestreamStart s sn)
  | captureSettled {k : Nat} {c : Capture} (hc : s.captures[k]? = some c)
      (hp : c.phase = .running) (ok : Bool) :
      Transition s (.captureSettled k ok) (captureSettled s k c ok)
  | captureCleanup {k : Nat} {c : Capture} (hc : s.captures[k]? = some c)
      (hp : c.phase = .settled) : Transition s (.captureCleanup k) (captureCleanup s k c)
  | ffmpegExit {c : Nat} (hc : s.children[c]? = some .running) :
      Transition s (.ffmpegExit c) { s with children := s.children.set c .exited }

theorem transition_of_step {s t : State} {e : Event} (h : step s e = some t) :
    Transition s e t := by
  cases e with
  | cloud b => cases h; exact .cloud b
  | viewerConnects sn => cases h; exact .viewerConnects sn
  | stopSettled v =>
    obtain ⟨viewer, hv, h⟩ := Option.bind_eq_some_iff.mp h
    split_ifs at h with hp
    cases h
    exact .registers hv hp
  | connectSettled v ok =>
    obtain ⟨viewer, hv, h⟩ := Option.bind_eq_some_iff.mp h
    cases ok <;> simp only [Bool.false_eq_true, if_true, if_false] at h <;>
      split_ifs at h with hp <;> cases h
    · exact .connectFails hv hp
    · exact .connects hv hp
  | startSettled v ok =>
    obtain ⟨viewer, hv, h⟩ := Option.bind_eq_some_iff.mp h
    cases ok <;> simp only [Bool.false_eq_true, if_true, if_false] at h <;>
      split_ifs at h with hp <;> cases h
    · exact .startFails hv hp
    · exact .starts hv hp
  | peerCloses v =>
    obtain ⟨viewer, hv, h⟩ := Option.bind_eq_some_iff.mp h
    split_ifs at h with ho
    cases h
    exact .peerCloses hv ho
  | viewerClosed v =>
    obtain ⟨viewer, hv, h⟩ := Option.bind_eq_some_iff.mp h
    split_ifs at h with ho
    cases h
    exact .closes hv ho
  | refresh sn => cases h; exact .refresh sn
  | snapshotStartSettled c ok =>
    simp only [step] at h
    split at h
    · rename_i g hc
      obtain ⟨r, hr, h⟩ := Option.bind_eq_some_iff.mp h
      cases h
      exact .snapshotStarted hc hr ok
    · cases h
  | snapshotTimer g =>
    obtain ⟨r, hr, h⟩ := Option.bind_eq_some_iff.mp h
    split_ifs at h with ht
    cases h
    exact .snapshotTimer hr ht
  | livestreamStart sn => cases h; exact .livestreamStart sn
  | captureSettled k ok =>
    obtain ⟨c, hc, h⟩ := Option.bind_eq_some_iff.mp h
    split_ifs at h with hp
    cases h
    exact .captureSettled hc hp ok
  | captureCleanup k =>
    obtain ⟨c, hc, h⟩ := Option.bind_eq_some_iff.mp h
    split_ifs at h with hp
    cases h
    exact .captureCleanup hc hp
  | ffmpegExit c =>
    obtain ⟨child, hc, h⟩ := Option.bind_eq_some_iff.mp h
    split_ifs at h with hr
    cases h
    subst hr
    exact .ffmpegExit hc

@[simp] theorem stopStationLivestream_sessions (s : State) (sn : Serial) :
    (stopStationLivestream s sn).sessions = s.sessions := rfl
@[simp] theorem stopStationLivestream_viewers (s : State) (sn : Serial) :
    (stopStationLivestream s sn).viewers = s.viewers := rfl
@[simp] theorem kill_sessions (s : State) (c : Option Nat) : (kill s c).sessions = s.sessions := by
  cases c <;> rfl
@[simp] theorem kill_viewers (s : State) (c : Option Nat) : (kill s c).viewers = s.viewers := by
  cases c <;> rfl

@[simp] theorem stopSession_sessions (s : State) (sn : Serial) :
    (stopSession s sn).sessions = update s.sessions sn none := by
  unfold stopSession
  cases h : s.sessions sn with
  | none => exact (update_eq_self_iff.mpr h.symm).symm
  | some session => simp

@[simp] theorem stopSession_viewers (s : State) (sn : Serial) :
    (stopSession s sn).viewers = s.viewers := by
  unfold stopSession
  cases s.sessions sn <;> simp

@[simp] theorem deletePending_sessions (s : State) (sn : Serial) :
    (deletePending s sn).sessions = s.sessions := rfl
@[simp] theorem deletePending_viewers (s : State) (sn : Serial) :
    (deletePending s sn).viewers = s.viewers := rfl
@[simp] theorem clearTimer_sessions (s : State) (g : Nat) :
    (clearTimer s g).sessions = s.sessions := rfl
@[simp] theorem clearTimer_viewers (s : State) (g : Nat) :
    (clearTimer s g).viewers = s.viewers := rfl
@[simp] theorem settlePromise_sessions (s : State) (g : Nat) (o : Outcome) :
    (settlePromise s g o).sessions = s.sessions := rfl
@[simp] theorem settlePromise_viewers (s : State) (g : Nat) (o : Outcome) :
    (settlePromise s g o).viewers = s.viewers := rfl

@[simp] theorem refreshSnapshot_sessions (s : State) (sn : Serial) :
    (refreshSnapshot s sn).sessions = s.sessions := by
  unfold refreshSnapshot
  split_ifs
  · rfl
  · rfl
  · split <;> rfl

@[simp] theorem refreshSnapshot_viewers (s : State) (sn : Serial) :
    (refreshSnapshot s sn).viewers = s.viewers := by
  unfold refreshSnapshot
  split_ifs
  · rfl
  · rfl
  · split <;> rfl

@[simp] theorem snapshotStarted_sessions (s : State) (c g : Nat) (sn : Serial) (ok : Bool) :
    (snapshotStarted s c g sn ok).sessions = s.sessions := by
  cases ok <;> rfl

@[simp] theorem snapshotStarted_viewers (s : State) (c g : Nat) (sn : Serial) (ok : Bool) :
    (snapshotStarted s c g sn ok).viewers = s.viewers := by
  cases ok <;> rfl

@[simp] theorem snapshotTimer_sessions (s : State) (g : Nat) (sn : Serial) :
    (snapshotTimer s g sn).sessions = s.sessions := rfl
@[simp] theorem snapshotTimer_viewers (s : State) (g : Nat) (sn : Serial) :
    (snapshotTimer s g sn).viewers = s.viewers := rfl
@[simp] theorem captureSettled_sessions (s : State) (k : Nat) (c : Capture) (ok : Bool) :
    (captureSettled s k c ok).sessions = s.sessions := rfl
@[simp] theorem captureSettled_viewers (s : State) (k : Nat) (c : Capture) (ok : Bool) :
    (captureSettled s k c ok).viewers = s.viewers := rfl
@[simp] theorem captureCleanup_sessions (s : State) (k : Nat) (c : Capture) :
    (captureCleanup s k c).sessions = s.sessions := rfl
@[simp] theorem captureCleanup_viewers (s : State) (k : Nat) (c : Capture) :
    (captureCleanup s k c).viewers = s.viewers := rfl

@[simp] theorem livestreamStart_viewers (s : State) (sn : Serial) :
    (livestreamStart s sn).viewers = s.viewers := by
  unfold livestreamStart
  split
  · rfl
  · split <;> rfl

end WyzeCams.Eufy
