import WyzeCams.Lib.Machine

/-! `StreamSession` of `cam-frontend/public/viewer.html`: one session object with any number of
overlapping `start` calls. Peer connections, sockets, calls and suspended handlers are numbered
in the order of creation. -/
namespace WyzeCams.StreamSession

inductive SignalingState where
  | stable | haveLocalOffer | closed
  deriving DecidableEq, Repr

/-- A peer connection; `token` is the `sessionToken` of the `start` call that created it. -/
structure PeerConnection where
  token : Nat
  signalingState : SignalingState
  deriving DecidableEq, Repr

/-- A signaling socket; `closed` says that `close()` has been called. -/
structure Socket where
  token : Nat
  closed : Bool
  deriving DecidableEq, Repr

/-- The await at which a `start` call is suspended. -/
inductive StartPhase where
  | mic | fetching | waiting | returned
  deriving DecidableEq, Repr

structure StartCall where
  token : Nat
  phase : StartPhase
  deriving DecidableEq, Repr

/-- The await at which an `onopen` or `onmessage` handler is suspended. -/
inductive HandlerPhase where
  | creatingOffer
  | settingLocal (p : Nat)
  | settingRemote (p : Nat)
  | addingCandidates (left : Nat)
  | done
  deriving DecidableEq, Repr

structure Handler where
  token : Nat
  phase : HandlerPhase
  deriving DecidableEq, Repr

/-- The 500 ms timeout that repeats a negotiation. -/
structure Retry where
  token : Nat
  armed : Bool
  deriving DecidableEq, Repr

structure State where
  online : Bool
  sessionToken : Nat
  pc : Option Nat
  ws : Option Nat
  pendingCandidates : Nat
  hasRemoteDesc : Bool
  isApplyingRemoteAnswer : Bool
  incompatibleRetryCount : Nat
  wantTalk : Bool
  localStream : Bool
  pcs : List PeerConnection
  sockets : List Socket
  starts : List StartCall
  handlers : List Handler
  retries : List Retry
  deriving DecidableEq, Repr

def init (online : Bool) : State :=
  ⟨online, 0, none, none, 0, false, false, 0, false, false, [], [], [], [], []⟩

def PeerConnection.close (c : PeerConnection) : PeerConnection :=
  { c with signalingState := .closed }

def PeerConnection.apply (x : SignalingState) (c : PeerConnection) : PeerConnection :=
  if c.signalingState = .closed then c else { c with signalingState := x }

def Socket.close (w : Socket) : Socket := { w with closed := true }

def stop (s : State) : State :=
  { s with
    sessionToken := s.sessionToken + 1
    pendingCandidates := 0
    hasRemoteDesc := false
    isApplyingRemoteAnswer := false
    sockets := match s.ws with
      | some w => s.sockets.modify w Socket.close
      | none => s.sockets
    ws := none
    pcs := match s.pc with
      | some p => s.pcs.modify p PeerConnection.close
      | none => s.pcs
    pc := none
    localStream := false }

/-- `start` up to its first await. -/
def start (s : State) (isRetry : Bool) : State :=
  let s := stop s
  let s := if isRetry then s else { s with incompatibleRetryCount := 0 }
  let s := { s with sessionToken := s.sessionToken + 1 }
  let phase :=
    if s.online = false then StartPhase.returned
    else if s.wantTalk ∧ s.localStream = false then .mic else .fetching
  { s with starts := s.starts ++ [⟨s.sessionToken, phase⟩] }

def toggleTalk (s : State) : State :=
  let s := { s with wantTalk := !s.wantTalk }
  if s.online then start s false else s

/-- How the rest of `start` ends once the stream parameters are there or not: the request
failed, or `_connect` threw before or after it created the peer connection, or it returned. -/
inductive Connect where
  | refused | noPeer | noSocket | opened
  deriving DecidableEq, Repr

/-- `_connect(signalingUrl, iceServers, sessionToken)`. -/
def connect (s : State) (token : Nat) : Connect → State
  | .refused => s
  | .noPeer => s
  | .noSocket => { s with pc := some s.pcs.length, pcs := s.pcs ++ [⟨token, .stable⟩] }
  | .opened =>
    { s with
      pc := some s.pcs.length
      pcs := s.pcs ++ [⟨token, .stable⟩]
      ws := some s.sockets.length
      sockets := s.sockets ++ [⟨token, false⟩] }

/-- `start` after `getUserMedia`. -/
def micSettled (s : State) (k : Nat) (call : StartCall) (ok : Bool) : State :=
  let s := if ok then { s with localStream := true } else { s with wantTalk := false }
  { s with starts := s.starts.set k { call with phase := .fetching } }

/-- `start` after the `/api/stream-params` request. -/
def fetchSettled (s : State) (k : Nat) (call : StartCall) (c : Connect) : State :=
  let phase := if c = .opened then StartPhase.waiting else .returned
  connect { s with starts := s.starts.set k { call with phase := phase } } call.token c

def setHandler (s : State) (h : Nat) (handler : Handler) (phase : HandlerPhase) : State :=
  { s with handlers := s.handlers.set h { handler with phase := phase } }

inductive Settled where
  | ok | incompatible | failed
  deriving DecidableEq, Repr

/-- The handler of a rejected answer: an incompatible one is retried once. -/
def answerFailed (s : State) (h : Nat) (handler : Handler) (r : Settled) : State :=
  let s := if r = .incompatible ∧ s.incompatibleRetryCount < 1 then
      { s with
        incompatibleRetryCount := s.incompatibleRetryCount + 1
        retries := s.retries ++ [⟨handler.token, true⟩] }
    else s
  setHandler { s with isApplyingRemoteAnswer := false } h handler .done

/-- The loop over `pendingCandidates`: the next one is added to `this.pc`, which may be null
by then. -/
def addCandidates (s : State) (h : Nat) (handler : Handler) : Nat → State
  | 0 =>
    setHandler { s with pendingCandidates := 0, isApplyingRemoteAnswer := false } h handler .done
  | n + 1 =>
    if s.pc.isSome then setHandler s h handler (.addingCandidates n)
    else answerFailed s h handler .failed

def applyDescription (s : State) (p : Nat) (x : SignalingState) : State :=
  { s with pcs := s.pcs.modify p (PeerConnection.apply x) }

inductive Message where
  | answer | candidate
  deriving DecidableEq, Repr

/-- `onmessage` of a socket of the current generation, up to its first await. -/
def onMessage (s : State) (w : Socket) (p : Nat) : Message → State
  | .answer =>
    if s.hasRemoteDesc ∨ s.isApplyingRemoteAnswer ∨
        (s.pcs[p]?.map (·.signalingState)) ≠ some .haveLocalOffer then s
    else
      { s with
        isApplyingRemoteAnswer := true
        handlers := s.handlers ++ [⟨w.token, .settingRemote p⟩] }
  | .candidate =>
    if s.hasRemoteDesc then s else { s with pendingCandidates := s.pendingCandidates + 1 }

inductive Event where
  | online (b : Bool)
  | start
  | stop
  | toggleTalk
  | retry (r : Nat)
  | micSettled (k : Nat) (ok : Bool)
  | fetchSettled (k : Nat) (c : Connect)
  | wsOpen (w : Nat)
  | wsMessage (w : Nat) (m : Message)
  | offerSettled (h : Nat) (ok : Bool)
  | localSettled (h : Nat) (ok : Bool)
  | remoteSettled (h : Nat) (r : Settled)
  | candidateSettled (h : Nat) (r : Settled)
  deriving DecidableEq, Repr

def step (s : State) : Event → Option State
  | .online b => some { s with online := b }
  | .start => some (start s false)
  | .stop => some (stop s)
  | .toggleTalk => some (toggleTalk s)
  | .retry r => do
    let timer ← s.retries[r]?
    if timer.armed then
      let s := { s with retries := s.retries.set r { timer with armed := false } }
      some (if timer.token ≠ s.sessionToken then s else StreamSession.start s true)
    else none
  | .micSettled k ok => do
    let call ← s.starts[k]?
    if call.phase = .mic then some (micSettled s k call ok) else none
  | .fetchSettled k c => do
    let call ← s.starts[k]?
    if call.phase = .fetching then some (fetchSettled s k call c) else none
  | .wsOpen w => do
    let socket ← s.sockets[w]?
    if socket.token ≠ s.sessionToken ∨ s.pc = none then some s
    else some { s with handlers := s.handlers ++ [⟨socket.token, .creatingOffer⟩] }
  | .wsMessage w m => do
    let socket ← s.sockets[w]?
    match s.pc with
    | none => some s
    | some p => if socket.token ≠ s.sessionToken then some s else some (onMessage s socket p m)
  | .offerSettled h ok => do
    let handler ← s.handlers[h]?
    if handler.phase = .creatingOffer then
      match s.pc, ok with
      | some p, true => some (setHandler s h handler (.settingLocal p))
      | _, _ => some (setHandler s h handler .done)
    else none
  | .localSettled h ok => do
    let handler ← s.handlers[h]?
    match handler.phase with
    | .settingLocal p =>
      let s := if ok then applyDescription s p .haveLocalOffer else s
      some (setHandler s h handler .done)
    | _ => none
  | .remoteSettled h r => do
    let handler ← s.handlers[h]?
    match handler.phase with
    | .settingRemote p =>
      if r = .ok then
        let s := { applyDescription s p .stable with hasRemoteDesc := true }
        some (addCandidates s h handler s.pendingCandidates)
      else some (answerFailed s h handler r)
    | _ => none
  | .candidateSettled h r => do
    let handler ← s.handlers[h]?
    match handler.phase with
    | .addingCandidates left =>
      if r = .ok then some (addCandidates s h handler left)
      else some (answerFailed s h handler r)
    | _ => none

end WyzeCams.StreamSession
