import WyzeCams.Lib.Machine
import WyzeCams.Lib.Utf8

/-! The `upgrade` handler of `cam-frontend/server.js`: one browser socket, the upstream socket to
`eufy/server.js`, and what each side is sent of the frames of the other. -/
namespace WyzeCams.EufyProxy
open Utf8 EventMachine

structure Frame where
  isBinary : Bool
  payload : Bytes
  deriving DecidableEq, Repr

inductive Data where
  | string (text : String)
  | buffer (bytes : Bytes)
  deriving DecidableEq, Repr

/-- `ws` sends strings as text frames and Buffers as binary ones. -/
def send : Data → Frame
  | .string text => ⟨false, bytes text⟩
  | .buffer bytes => ⟨true, bytes⟩

/-- The arguments of a `message` handler: every message is a Buffer, with the flag `isBinary`. -/
def message (f : Frame) : Data × Bool := (.buffer f.payload, f.isBinary)

/-- What `eufy/server.js` sends on the socket: `startFfmpeg` the chunks of stdout, `startSession`
an error as JSON text. -/
inductive EufyMessage where
  | chunk (bytes : Bytes)
  | startError (json : String)

def EufyMessage.frame : EufyMessage → Frame
  | .chunk bytes => send (.buffer bytes)
  | .startError json => send (.string json)

inductive ReadyState where
  | connecting | opened | closing | closed
  deriving DecidableEq, Repr

def ReadyState.close : ReadyState → ReadyState
  | .closed => .closed
  | _ => .closing

/-- `toUpstream` and `toClient` are the frames that each side has been sent. -/
structure State where
  client : ReadyState
  upstream : ReadyState
  pending : List Data
  toUpstream : List Frame
  toClient : List Frame
  deriving DecidableEq, Repr

/-- After `handleUpgrade` and `new WebSocket(target)`. -/
def init : State := ⟨.opened, .connecting, [], [], []⟩

def onOpen (s : State) : State :=
  let s := { s with upstream := .opened }
  { s with toUpstream := s.toUpstream ++ s.pending.map send, pending := [] }

def onUpstreamMessage (s : State) (args : Data × Bool) : State :=
  let (data, _) := args
  if s.client = .opened then { s with toClient := s.toClient ++ [send data] } else s

/-- `client.on("message", (data) => …)`. -/
def onClientMessage (s : State) (args : Data × Bool) : State :=
  let (data, _) := args
  if s.upstream = .opened then { s with toUpstream := s.toUpstream ++ [send data] }
  else { s with pending := s.pending ++ [data] }

/-- `upstream.on("close")`, and `upstream.on("error")` with the state the socket is then in. -/
def onUpstreamGone (s : State) (r : ReadyState) : State :=
  { s with upstream := r, client := s.client.close }

def onClientGone (s : State) (r : ReadyState) : State :=
  { s with client := r, upstream := s.upstream.close }

inductive Event where
  | upstreamOpen
  | upstreamMessage (f : Frame)
  | clientMessage (f : Frame)
  | upstreamError
  | upstreamClose
  | clientError
  | clientClose

/-- A socket delivers messages until it is closed, also after `close()` was called on it. -/
def Delivers (r : ReadyState) : Prop := r = .opened ∨ r = .closing

instance (r : ReadyState) : Decidable (Delivers r) :=
  inferInstanceAs (Decidable (_ ∨ _))

def step (s : State) : Event → Option State
  | .upstreamOpen => if s.upstream = .connecting then some (onOpen s) else none
  | .upstreamMessage f =>
    if Delivers s.upstream then some (onUpstreamMessage s (message f)) else none
  | .clientMessage f =>
    if Delivers s.client then some (onClientMessage s (message f)) else none
  | .upstreamError => if s.upstream ≠ .closed then some (onUpstreamGone s .closing) else none
  | .upstreamClose => if s.upstream ≠ .closed then some (onUpstreamGone s .closed) else none
  | .clientError => if s.client ≠ .closed then some (onClientGone s .closing) else none
  | .clientClose => if s.client ≠ .closed then some (onClientGone s .closed) else none

def Event.fromClient : Event → Option Frame
  | .clientMessage f => some f
  | _ => none

def Event.fromUpstream : Event → Option Frame
  | .upstreamMessage f => some f
  | _ => none

def clientFrames (events : List Event) : List Frame := events.filterMap Event.fromClient

def upstreamFrames (events : List Event) : List Frame := events.filterMap Event.fromUpstream

/-- Neither socket has closed or begun to. -/
def Up (s : State) : Prop := s.client = .opened ∧ (s.upstream = .connecting ∨ s.upstream = .opened)

instance (s : State) : Decidable (Up s) := inferInstanceAs (Decidable (_ ∧ _))

/-- The browser has been sent the frames of the upstream side; the upstream side, once its socket
is open, those of the browser, and nothing before. -/
def Transparent (events : List Event) (s : State) : Prop :=
  s.toClient = upstreamFrames events ∧
  if s.upstream = .opened then s.toUpstream = clientFrames events else s.toUpstream = []

instance (events : List Event) (s : State) : Decidable (Transparent events s) :=
  inferInstanceAs (Decidable (_ ∧ _))

def relayed (f : Frame) : Frame := send (message f).1

def accounted (s : State) : List Frame := s.toUpstream ++ s.pending.map send

theorem relayed_eq_iff (f : Frame) : relayed f = f ↔ f.isBinary = true := by
  obtain ⟨isBinary, payload⟩ := f
  simp [relayed, message, send, eq_comm]

/-- A list of frames passes unchanged exactly when all of them are binary. -/
theorem map_relayed_iff (fs : List Frame) :
    fs.map relayed = fs ↔ ∀ f ∈ fs, f.isBinary = true := by
  induction fs with
  | nil => simp
  | cons f fs ih => simp [relayed_eq_iff, ih]

theorem close_ne_opened (r : ReadyState) : r.close ≠ .opened := by
  cases r <;> decide

theorem close_ne_connecting (r : ReadyState) : r.close ≠ .connecting := by
  cases r <;> decide

/-- The queue is used until the upstream socket opens, the socket from then on. -/
structure Queued (s : State) : Prop where
  opened : s.upstream = .opened → s.pending = []
  connecting : s.upstream = .connecting → s.toUpstream = []

theorem queued_init : Queued init := ⟨fun _ => rfl, fun _ => rfl⟩

theorem queued_clientGone {s : State} {r : ReadyState} : Queued (onClientGone s r) :=
  ⟨fun h => absurd h (close_ne_opened s.upstream),
    fun h => absurd h (close_ne_connecting s.upstream)⟩

theorem queued_upstreamGone {s : State} {r : ReadyState} (ho : r ≠ .opened)
    (hc : r ≠ .connecting) : Queued (onUpstreamGone s r) :=
  ⟨fun h => absurd h ho, fun h => absurd h hc⟩

theorem queued_step {s t : State} {e : Event} (h : step s e = some t) (hs : Queued s) :
    Queued t := by
  cases e with
  | upstreamOpen =>
    obtain ⟨-, rfl⟩ := of_guard h
    exact ⟨fun _ => rfl, fun ht => by cases ht⟩
  | upstreamMessage f =>
    obtain ⟨-, rfl⟩ := of_guard h
    rw [onUpstreamMessage, message]
    split_ifs
    · exact ⟨hs.opened, hs.connecting⟩
    · exact hs
  | clientMessage f =>
    obtain ⟨-, rfl⟩ := of_guard h
    rw [onClientMessage, message]
    split_ifs with hopen
    · exact ⟨hs.opened, fun ht => by rw [hopen] at ht; cases ht⟩
    · exact ⟨fun ht => absurd ht hopen, hs.connecting⟩
  | upstreamError =>
    obtain ⟨-, rfl⟩ := of_guard h
    exact queued_upstreamGone (by decide) (by decide)
  | upstreamClose =>
    obtain ⟨-, rfl⟩ := of_guard h
    exact queued_upstreamGone (by decide) (by decide)
  | clientError =>
    obtain ⟨-, rfl⟩ := of_guard h
    exact queued_clientGone
  | clientClose =>
    obtain ⟨-, rfl⟩ := of_guard h
    exact queued_clientGone

/-- What an event does while both sockets are up: each frame is sent on, or queued, once and in
its turn. -/
structure Passes (s : State) (e : Event) (t : State) : Prop where
  up : Up s
  toClient : t.toClient = s.toClient ++ e.fromUpstream.toList.map relayed
  accounted : accounted t = accounted s ++ e.fromClient.toList.map relayed
  opened : t.upstream = .opened ↔ s.upstream = .opened ∨ e = .upstreamOpen

theorem not_up_of_client {s : State} {r : ReadyState} : ¬ Up (onUpstreamGone s r) :=
  fun h => close_ne_opened s.client h.1

theorem not_up_of_upstream {s : State} {r : ReadyState} : ¬ Up (onClientGone s r) := by
  rintro ⟨-, h | h⟩
  · exact close_ne_connecting s.upstream h
  · exact close_ne_opened s.upstream h

theorem passes_of_step {s t : State} {e : Event} (hs : Queued s) (h : step s e = some t)
    (ht : Up t) : Passes s e t := by
  cases e with
  | upstreamOpen =>
    obtain ⟨hconnecting, rfl⟩ := of_guard h
    exact {
      up := ⟨ht.1, .inl hconnecting⟩
      toClient := by simp [onOpen, Event.fromUpstream]
      accounted := by simp [onOpen, accounted, Event.fromClient]
      opened := by simp [onOpen] }
  | upstreamMessage f =>
    obtain ⟨-, rfl⟩ := of_guard h
    by_cases hopen : s.client = .opened
    · rw [onUpstreamMessage, message, if_pos hopen] at ht ⊢
      exact {
        up := ht
        toClient := by simp [Event.fromUpstream, relayed, message]
        accounted := by simp [accounted, Event.fromClient]
        opened := by simp }
    · rw [onUpstreamMessage, message, if_neg hopen] at ht
      exact absurd ht.1 hopen
  | clientMessage f =>
    obtain ⟨-, rfl⟩ := of_guard h
    by_cases hopen : s.upstream = .opened
    · rw [onClientMessage, message, if_pos hopen] at ht ⊢
      exact {
        up := ht
        toClient := by simp [Event.fromUpstream]
        accounted := by simp [accounted, hs.opened hopen, Event.fromClient, relayed, message]
        opened := by simp }
    · rw [onClientMessage, message, if_neg hopen] at ht ⊢
      exact {
        up := ht
        toClient := by simp [Event.fromUpstream]
        accounted := by simp [accounted, Event.fromClient, relayed, message]
        opened := by simp }
  | upstreamError =>
    obtain ⟨-, rfl⟩ := of_guard h
    exact absurd ht not_up_of_client
  | upstreamClose =>
    obtain ⟨-, rfl⟩ := of_guard h
    exact absurd ht not_up_of_client
  | clientError =>
    obtain ⟨-, rfl⟩ := of_guard h
    exact absurd ht not_up_of_upstream
  | clientClose =>
    obtain ⟨-, rfl⟩ := of_guard h
    exact absurd ht not_up_of_upstream

structure Relays (s : State) (events : List Event) (t : State) : Prop where
  up : Up s
  toClient : t.toClient = s.toClient ++ (upstreamFrames events).map relayed
  accounted : accounted t = accounted s ++ (clientFrames events).map relayed
  opened : t.upstream = .opened ↔ s.upstream = .opened ∨ Event.upstreamOpen ∈ events

theorem clientFrames_cons (e : Event) (events : List Event) :
    clientFrames (e :: events) = e.fromClient.toList ++ clientFrames events := by
  cases e <;> rfl

theorem upstreamFrames_cons (e : Event) (events : List Event) :
    upstreamFrames (e :: events) = e.fromUpstream.toList ++ upstreamFrames events := by
  cases e <;> rfl

theorem relays_of_run {s t : State} {events : List Event} (hs : Queued s)
    (h : run step s events = some t) (ht : Up t) : Relays s events t := by
  induction events generalizing s with
  | nil =>
    cases h
    exact {
      up := ht
      toClient := by simp [upstreamFrames]
      accounted := by simp [clientFrames]
      opened := by simp }
  | cons e events ih =>
    cases hstep : step s e with
    | none => simp [run, hstep] at h
    | some u =>
      simp only [run, hstep, Option.bind_some] at h
      have hrest := ih (queued_step hstep hs) h
      have hfirst := passes_of_step hs hstep hrest.up
      exact {
        up := hfirst.up
        toClient := by
          rw [hrest.toClient, hfirst.toClient, upstreamFrames_cons, List.map_append,
            List.append_assoc]
        accounted := by
          rw [hrest.accounted, hfirst.accounted, clientFrames_cons, List.map_append,
            List.append_assoc]
        opened := by
          rw [hrest.opened, hfirst.opened, List.mem_cons, or_assoc]
          exact or_congr_right (or_congr_left eq_comm) }

theorem queued_of_run {s t : State} {events : List Event} (hs : Queued s)
    (h : run step s events = some t) : Queued t :=
  inv_of_run (fun _ _ _ hi hstep _ => queued_step hstep hi) hs
    (along_of_forall (fun _ _ _ _ => trivial) s) h

/-- What both sides have been sent while neither socket has closed: every frame of the other, once
and in order, as a binary one. -/
theorem sent_of_run {events : List Event} {s : State} (h : run step init events = some s)
    (hup : Up s) :
    s.toClient = (upstreamFrames events).map relayed ∧
      (s.upstream = .opened ↔ .upstreamOpen ∈ events) ∧
      s.toUpstream = if s.upstream = .opened then (clientFrames events).map relayed else [] := by
  have hqueued := queued_of_run queued_init h
  have hrelays := relays_of_run queued_init h hup
  have hopened : s.upstream = .opened ↔ .upstreamOpen ∈ events := by
    simpa [init] using hrelays.opened
  refine ⟨by simpa [init] using hrelays.toClient, hopened, ?_⟩
  split_ifs with ho
  · have hpending : s.pending = [] := hqueued.opened ho
    simpa [accounted, hpending, init] using hrelays.accounted
  · exact hqueued.connecting (hup.2.resolve_right ho)

/-- The proxy is transparent exactly for binary frames: a text frame comes out as a binary one
with the same bytes. -/
theorem transparent_iff {events : List Event} {s : State} (h : run step init events = some s)
    (hup : Up s) :
    Transparent events s ↔
      (∀ f ∈ upstreamFrames events, f.isBinary = true) ∧
      (.upstreamOpen ∈ events → ∀ f ∈ clientFrames events, f.isBinary = true) := by
  obtain ⟨hclient, hopened, hupstream⟩ := sent_of_run h hup
  rw [Transparent, hclient, map_relayed_iff]
  apply and_congr_right'
  rw [← hopened, hupstream]
  by_cases ho : s.upstream = .opened
  · rw [if_pos ho, if_pos ho, map_relayed_iff, forall_prop_of_true ho]
  · rw [if_neg ho, if_neg ho, forall_prop_of_false ho]
    exact iff_of_true rfl trivial

theorem transparent_iff_queued :
    let events := [.clientMessage ⟨true, [1]⟩, .upstreamOpen, .upstreamMessage ⟨true, [2, 3]⟩]
    ∃ s, run step init events = some s ∧ Up s ∧ (Transparent events s ↔
      (∀ f ∈ upstreamFrames events, f.isBinary = true) ∧
      (.upstreamOpen ∈ events → ∀ f ∈ clientFrames events, f.isBinary = true)) :=
  ⟨_, rfl, by decide, transparent_iff rfl (by decide)⟩

/-- The error text of a livestream that cannot be started reaches the browser as a binary frame. -/
theorem error_text_becomes_binary :
    let events := [.upstreamOpen,
      .upstreamMessage (EufyMessage.startError
        "\x7b\"type\":\"error\",\"message\":\"busy\"\x7d").frame]
    ∃ s, run step init events = some s ∧ Up s ∧ ¬ Transparent events s :=
  ⟨_, rfl, by decide, by decide⟩

theorem relayed_eufy_iff (m : EufyMessage) : relayed m.frame = m.frame ↔ ∃ b, m = .chunk b := by
  rw [relayed_eq_iff]
  cases m <;> simp [EufyMessage.frame, send]

/-- Of what `eufy/server.js` sends, the video passes unchanged and an error does not. -/
theorem eufy_unchanged_iff {events : List Event} {s : State} {ms : List EufyMessage}
    (h : run step init events = some s) (hup : Up s)
    (hms : upstreamFrames events = ms.map EufyMessage.frame) :
    s.toClient = upstreamFrames events ↔ ∀ m ∈ ms, ∃ b, m = .chunk b := by
  rw [(sent_of_run h hup).1, hms, map_relayed_iff, List.forall_mem_map]
  exact forall₂_congr fun m _ => (relayed_eq_iff m.frame).symm.trans (relayed_eufy_iff m)

end WyzeCams.EufyProxy
