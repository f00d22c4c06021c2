import WyzeCams.Browser.StreamSession
import WyzeCams.Lib.Table

/-! Which `start` call owns the connection of a `StreamSession`. -/
namespace WyzeCams.StreamSession
open EventMachine Table

def PeerConnection.life (c : PeerConnection) : Nat × Bool :=
  (c.token, decide (c.signalingState = .closed))

def held (s : State) : Nat × Option Nat × Option Nat × List (Nat × Bool) × List Socket :=
  (s.sessionToken, s.pc, s.ws, s.pcs.map PeerConnection.life, s.sockets)

def core (s : State) := (held s, s.starts)

inductive Move (s : State) : Event → State → Prop where
  | starts {e : Event} (u : State) (hu : core u = core s) (b : Bool)
      (he : ∀ k c, e ≠ .fetchSettled k c) : Move s e (start u b)
  | stops : Move s .stop (stop s)
  | mic {k : Nat} {call : StartCall} (hk : s.starts[k]? = some call) (hp : call.phase = .mic)
      (ok : Bool) : Move s (.micSettled k ok) (micSettled s k call ok)
  | fetched {k : Nat} {call : StartCall} (hk : s.starts[k]? = some call)
      (hp : call.phase = .fetching) (c : Connect) :
      Move s (.fetchSettled k c) (fetchSettled s k call c)
  | keeps {e : Event} {t : State} (ht : core t = core s) (he : ∀ k c, e ≠ .fetchSettled k c) :
      Move s e t

theorem apply_life {x : SignalingState} (hx : x ≠ .closed) (c : PeerConnection) :
    (c.apply x).life = c.life := by
  unfold PeerConnection.apply
  split_ifs with h
  · rfl
  · simp [PeerConnection.life, h, hx]

theorem core_applyDescription (s : State) (p : Nat) {x : SignalingState} (hx : x ≠ .closed) :
    core (applyDescription s p x) = core s := by
  have hmap : (s.pcs.modify p (PeerConnection.apply x)).map PeerConnection.life =
      s.pcs.map PeerConnection.life := by
    apply List.ext_getElem?
    intro i
    rw [List.getElem?_map, List.getElem?_map, List.getElem?_modify]
    cases s.pcs[i]? with
    | none => rfl
    | some c => by_cases h : p = i <;> simp [h, apply_life hx]
  simp [core, held, applyDescription, hmap]

@[simp] theorem core_setHandler (s : State) (h : Nat) (handler : Handler) (x : HandlerPhase) :
    core (setHandler s h handler x) = core s := rfl

@[simp] theorem core_answerFailed (s : State) (h : Nat) (handler : Handler) (r : Settled) :
    core (answerFailed s h handler r) = core s := by
  unfold answerFailed
  split_ifs <;> rfl

@[simp] theorem core_addCandidates (s : State) (h : Nat) (handler : Handler) (n : Nat) :
    core (addCandidates s h handler n) = core s := by
  cases n with
  | zero => rfl
  | succ n =>
    unfold addCandidates
    split_ifs
    · rfl
    · exact core_answerFailed s h handler .failed

@[simp] theorem core_onMessage (s : State) (w : Socket) (p : Nat) (m : Message) :
    core (onMessage s w p m) = core s := by
  cases m <;> unfold onMessage <;> split_ifs <;> rfl

theorem move_of_step {s t : State} {e : Event} (h : step s e = some t) : Move s e t := by
  cases e with
  | online b => cases h; exact .keeps rfl (by simp)
  | start => cases h; exact .starts s rfl false (by simp)
  | stop => cases h; exact .stops
  | toggleTalk =>
    cases h
    unfold toggleTalk
    dsimp only
    split_ifs
    · exact .starts (s := s) { s with wantTalk := !s.wantTalk } rfl false (by simp)
    · exact .keeps rfl (by simp)
  | retry r =>
    obtain ⟨timer, hr, h⟩ := Option.bind_eq_some_iff.mp h
    split_ifs at h with ha
    cases h
    split_ifs
    · exact .keeps rfl (by simp)
    · exact .starts (s := s) { s with retries := s.retries.set r { timer with armed := false } } rfl
        true (by simp)
  | micSettled k ok =>
    obtain ⟨call, hk, h⟩ := Option.bind_eq_some_iff.mp h
    split_ifs at h with hp
    cases h
    exact .mic hk hp ok
  | fetchSettled k c =>
    obtain ⟨call, hk, h⟩ := Option.bind_eq_some_iff.mp h
    split_ifs at h with hp
    cases h
    exact .fetched hk hp c
  | wsOpen w =>
    obtain ⟨socket, hw, h⟩ := Option.bind_eq_some_iff.mp h
    split_ifs at h <;> cases h <;> exact .keeps rfl (by simp)
  | wsMessage w m =>
    obtain ⟨socket, hw, h⟩ := Option.bind_eq_some_iff.mp h
    refine .keeps ?_ (by simp)
    split at h
    · cases h
      rfl
    · split_ifs at h <;> cases h
      · rfl
      · exact core_onMessage s socket _ m
  | offerSettled h' ok =>
    obtain ⟨handler, hh, h⟩ := Option.bind_eq_some_iff.mp h
    refine .keeps ?_ (by simp)
    split_ifs at h
    split at h <;> cases h <;> rfl
  | localSettled h' ok =>
    obtain ⟨handler, hh, h⟩ := Option.bind_eq_some_iff.mp h
    refine .keeps ?_ (by simp)
    split at h
    · cases h
      rw [core_setHandler]
      split_ifs
      · exact core_applyDescription s _ (by simp)
      · rfl
    · cases h
  | remoteSettled h' r =>
    obtain ⟨handler, hh, h⟩ := Option.bind_eq_some_iff.mp h
    refine .keeps ?_ (by simp)
    split at h
    · split_ifs at h <;> cases h
      · rw [core_addCandidates]
        exact core_applyDescription s _ (by simp)
      · exact core_answerFailed s h' handler r
    · cases h
  | candidateSettled h' r =>
    obtain ⟨handler, hh, h⟩ := Option.bind_eq_some_iff.mp h
    refine .keeps ?_ (by simp)
    split at h
    · split_ifs at h <;> cases h
      · exact core_addCandidates s h' handler _
      · exact core_answerFailed s h' handler r
    · cases h

/-- The peer connection and the socket that the session holds come from the `start` call with
the current token, and every other one that it created is closed. -/
structure Current (s : State) : Prop where
  pc : ∀ p, s.pc = some p → ∃ c, (s.pcs.map PeerConnection.life)[p]? = some (s.sessionToken, c)
  ws : ∀ w, s.ws = some w → ∃ c, s.sockets[w]? = some ⟨s.sessionToken, c⟩
  pcClosed : ∀ (p : Nat) (c : Nat × Bool), (s.pcs.map PeerConnection.life)[p]? = some c →
    s.pc ≠ some p → c.2 = true
  wsClosed : ∀ (w : Nat) (c : Socket), s.sockets[w]? = some c → s.ws ≠ some w → c.closed = true

/-- No `start` call has the current token: `stop` has been called and no `start` since. -/
def Stopped (s : State) : Prop := ∀ call ∈ s.starts, call.token ≠ s.sessionToken

/-- A step leaves the session in its current generation, and opens nothing in a stopped one. -/
def KeepsGeneration (s t : State) : Prop :=
  Current t ∧ (Stopped s → t.pcs.length = s.pcs.length ∧ t.sockets.length = s.sockets.length)

/-- Stream parameters lead to a new peer connection only in the `start` call whose token is the
current one. -/
def ConnectsCurrent (s : State) : Event → Prop
  | .fetchSettled k c => c = .noSocket ∨ c = .opened →
      ∀ call, s.starts[k]? = some call → call.token = s.sessionToken
  | _ => True

structure Generations (s : State) : Prop where
  current : Current s
  known : ∀ call ∈ s.starts, call.token ≤ s.sessionToken
  distinct : ∀ (k k' : Nat) (a b : StartCall), s.starts[k]? = some a → s.starts[k']? = some b →
    a.token = b.token → k = k'
  early : ∀ call ∈ s.starts, call.token = s.sessionToken →
    call.phase = .mic ∨ call.phase = .fetching → s.pc = none ∧ s.ws = none

theorem generations_init (online : Bool) : Generations (init online) := by
  constructor
  · constructor <;> simp [init]
  · simp [init]
  · simp [init]
  · simp [init]

theorem Current.congr {s t : State} (hs : Current s) (h : held t = held s) : Current t := by
  simp only [held, Prod.mk.injEq] at h
  obtain ⟨htok, hpc, hws, hpcs, hsock⟩ := h
  exact ⟨by rw [hpc, hpcs, htok]; exact hs.pc, by rw [hws, hsock, htok]; exact hs.ws,
    by rw [hpcs, hpc]; exact hs.pcClosed, by rw [hsock, hws]; exact hs.wsClosed⟩

theorem Generations.congr {s t : State} (hs : Generations s) (h : core t = core s) :
    Generations t := by
  have hcur := hs.current.congr (congrArg Prod.fst h)
  simp only [core, held, Prod.mk.injEq] at h
  obtain ⟨⟨htok, hpc, hws, -⟩, hst⟩ := h
  exact ⟨hcur, by rw [hst, htok]; exact hs.known, by rw [hst]; exact hs.distinct,
    by rw [hst, htok, hpc, hws]; exact hs.early⟩

/-- `stop` closes what the session holds, so nothing is left open. -/
theorem Current.stop {s : State} (hs : Current s) : Current (stop s) := by
  refine ⟨by simp [StreamSession.stop], by simp [StreamSession.stop], fun p c hp _ => ?_,
    fun w c hw _ => ?_⟩
  · cases hpc : s.pc with
    | none => exact hs.pcClosed p c (by simpa [StreamSession.stop, hpc] using hp) (by simp [hpc])
    | some q =>
      simp only [StreamSession.stop, hpc, List.getElem?_map, List.getElem?_modify] at hp
      obtain ⟨a, ha, rfl⟩ := Option.map_eq_some_iff.mp hp
      obtain ⟨b, hb, rfl⟩ := Option.map_eq_some_iff.mp ha
      by_cases he : q = p
      · simp [he, PeerConnection.life, PeerConnection.close]
      · simpa [he] using hs.pcClosed p b.life (by simp [hb]) (by simp [hpc, he])
  · cases hws : s.ws with
    | none => exact hs.wsClosed w c (by simpa [StreamSession.stop, hws] using hw) (by simp [hws])
    | some q =>
      simp only [StreamSession.stop, hws, List.getElem?_modify] at hw
      obtain ⟨b, hb, rfl⟩ := Option.map_eq_some_iff.mp hw
      by_cases he : q = w
      · simp [he, Socket.close]
      · simpa [he] using hs.wsClosed w b hb (by simp [hws, he])

theorem Generations.stop {s : State} (hs : Generations s) : Generations (stop s) := by
  refine ⟨hs.current.stop, fun call hc => ?_, hs.distinct, fun call hc he => ?_⟩
  · have := hs.known call hc
    simp only [StreamSession.stop]
    omega
  · simp [StreamSession.stop]

theorem core_start (s : State) (b : Bool) : ∃ phase, core (start s b) =
    ((s.sessionToken + 2, none, none, (stop s).pcs.map PeerConnection.life, (stop s).sockets),
      s.starts ++ [⟨s.sessionToken + 2, phase⟩]) := by
  cases b <;> exact ⟨_, rfl⟩

/-- `start` is `stop` and a token that no call has had before. -/
theorem Generations.start {s : State} (hs : Generations s) (b : Bool) :
    Generations (start s b) := by
  obtain ⟨phase, hcore⟩ := core_start s b
  simp only [core, held, Prod.mk.injEq] at hcore
  obtain ⟨⟨htok, hpc, hws, hpcs, hsock⟩, hst⟩ := hcore
  have hnew : ∀ call ∈ s.starts, call.token ≠ s.sessionToken + 2 := by
    intro call hc
    have := hs.known call hc
    omega
  refine ⟨⟨by simp [hpc], by simp [hws], ?_, ?_⟩, ?_, ?_, by simp [hpc, hws]⟩
  · rw [hpcs]
    exact fun p c hp _ => hs.current.stop.pcClosed p c hp (by simp [StreamSession.stop])
  · rw [hsock]
    exact fun w c hw _ => hs.current.stop.wsClosed w c hw (by simp [StreamSession.stop])
  · rw [hst, htok]
    intro call hc
    obtain hc | hc := List.mem_append.mp hc
    · have := hs.known call hc
      omega
    · simp [List.mem_singleton.mp hc]
  · rw [hst]
    intro k k' a c ha hc he
    obtain ha | ⟨hk, rfl⟩ := getElem?_concat ha <;> obtain hc | ⟨hk', rfl⟩ := getElem?_concat hc
    · exact hs.distinct k k' a c ha hc he
    · exact absurd he (hnew a (List.mem_of_getElem? ha))
    · exact absurd he.symm (hnew c (List.mem_of_getElem? hc))
    · omega

/-- A `start` call that goes on keeps its token. -/
theorem Generations.setPhase {s : State} (hs : Generations s) {k : Nat} {call : StartCall}
    (hk : s.starts[k]? = some call) (hp : call.phase = .mic ∨ call.phase = .fetching)
    (x : StartPhase) : Generations
    { s with starts := s.starts.set k { call with phase := x } } := by
  have hold : ∀ (j : Nat) (a : StartCall), (s.starts.set k { call with phase := x })[j]? = some a →
      ∃ b, s.starts[j]? = some b ∧ b.token = a.token ∧ (a = b ∨ b = call) := by
    intro j a ha
    obtain ⟨rfl, rfl⟩ | ⟨-, ha⟩ := getElem?_replace ha
    · exact ⟨call, hk, rfl, .inr rfl⟩
    · exact ⟨a, ha, rfl, .inl rfl⟩
  refine ⟨hs.current.congr rfl, fun a ha => ?_, fun i j a b ha hb he => ?_, fun a ha he hph => ?_⟩
  · obtain ⟨j, hj⟩ := List.getElem?_of_mem ha
    obtain ⟨b, hb, htok, -⟩ := hold j a hj
    exact htok ▸ hs.known b (List.mem_of_getElem? hb)
  · obtain ⟨a', ha', hta, -⟩ := hold i a ha
    obtain ⟨b', hb', htb, -⟩ := hold j b hb
    exact hs.distinct i j a' b' ha' hb' (by rw [hta, htb, he])
  · obtain ⟨j, hj⟩ := List.getElem?_of_mem ha
    obtain ⟨b, hb, htok, hab⟩ := hold j a hj
    refine hs.early b (List.mem_of_getElem? hb) (htok.trans he) ?_
    obtain rfl | rfl := hab
    · exact hph
    · exact hp

/-- A live call with the current token finds the session without a connection. -/
theorem Generations.unconnected {s : State} (hs : Generations s) {k : Nat} {call : StartCall}
    (hk : s.starts[k]? = some call) (hp : call.phase = .fetching)
    (ht : call.token = s.sessionToken) : s.pc = none ∧ s.ws = none :=
  hs.early call (List.mem_of_getElem? hk) ht (.inr hp)

theorem Current.connect {s : State} (hs : Current s) (hpc : s.pc = none) (hws : s.ws = none)
    {token : Nat} (ht : token = s.sessionToken) (c : Connect) : Current (connect s token c) := by
  subst ht
  have hpcs : ∀ (p : Nat) (a : Nat × Bool),
      ((s.pcs ++ [PeerConnection.mk s.sessionToken .stable]).map PeerConnection.life)[p]? = some a →
        some s.pcs.length ≠ some p → a.2 = true := by
    intro p a hp hne
    rw [List.map_append] at hp
    obtain hp | ⟨hp, -⟩ := getElem?_concat hp
    · exact hs.pcClosed p a hp (by simp [hpc])
    · exact absurd (by simp [hp]) hne
  cases c with
  | refused => exact hs
  | noPeer => exact hs
  | noSocket =>
    refine ⟨fun p hp => ?_, by simp [StreamSession.connect, hws], hpcs, hs.wsClosed⟩
    cases hp
    exact ⟨false, by simp [StreamSession.connect, PeerConnection.life]⟩
  | opened =>
    refine ⟨fun p hp => ?_, fun w hw => ?_, hpcs, fun w a hw hne => ?_⟩
    · cases hp
      exact ⟨false, by simp [StreamSession.connect, PeerConnection.life]⟩
    · cases hw
      exact ⟨false, by simp [StreamSession.connect]⟩
    · obtain hw | ⟨rfl, -⟩ := getElem?_concat hw
      · exact hs.wsClosed w a hw (by simp [hws])
      · exact absurd rfl hne

/-- A call with the current token that connects is the only one with that token, so no other
one is still to connect. -/
theorem Generations.connects {s : State} (hs : Generations s) {k : Nat} {call : StartCall}
    (hk : s.starts[k]? = some call) (hp : call.phase = .fetching)
    (ht : call.token = s.sessionToken) {c : Connect} (hc : c = .noSocket ∨ c = .opened) :
    Generations (fetchSettled s k call c) := by
  obtain ⟨hpc, hws⟩ := hs.unconnected hk hp ht
  have hset := hs.setPhase hk (.inr hp) (if c = .opened then .waiting else .returned)
  have hcur : Current (fetchSettled s k call c) := hset.current.connect hpc hws ht c
  have hearly : ∀ a ∈ s.starts.set k { call with
      phase := if c = .opened then StartPhase.waiting else .returned },
      a.token = s.sessionToken → ¬ (a.phase = .mic ∨ a.phase = .fetching) := by
    intro a ha he hph
    obtain ⟨j, hj⟩ := List.getElem?_of_mem ha
    obtain ⟨-, rfl⟩ | ⟨hne, hj⟩ := getElem?_replace hj
    · obtain rfl | rfl := hc <;> simp at hph
    · exact hne (hs.distinct k j call a hk hj (ht.trans he.symm))
  obtain rfl | rfl := hc
  · exact ⟨hcur, hset.known, hset.distinct, fun a ha he hph => (hearly a ha he hph).elim⟩
  · exact ⟨hcur, hset.known, hset.distinct, fun a ha he hph => (hearly a ha he hph).elim⟩

theorem Generations.step {s t : State} {e : Event} (hs : Generations s) (h : step s e = some t)
    (hc : ConnectsCurrent s e) : Generations t := by
  cases move_of_step h with
  | starts u hu b he => exact (hs.congr hu).start b
  | stops => exact hs.stop
  | mic hk hp ok =>
    cases ok with
    | true => exact (hs.setPhase hk (.inl hp) .fetching).congr rfl
    | false => exact (hs.setPhase hk (.inl hp) .fetching).congr rfl
  | @fetched k call hk hp c =>
    cases c with
    | refused => exact hs.setPhase hk (.inr hp) .returned
    | noPeer => exact hs.setPhase hk (.inr hp) .returned
    | noSocket => exact hs.connects hk hp (hc (.inl rfl) call hk) (.inl rfl)
    | opened => exact hs.connects hk hp (hc (.inr rfl) call hk) (.inr rfl)
  | keeps ht he => exact hs.congr ht

theorem length_stop (s : State) :
    (stop s).pcs.length = s.pcs.length ∧ (stop s).sockets.length = s.sockets.length := by
  unfold stop
  cases s.pc <;> cases s.ws <;> simp

theorem length_of_core {s t : State} (h : core t = core s) :
    t.pcs.length = s.pcs.length ∧ t.sockets.length = s.sockets.length := by
  simp only [core, held, Prod.mk.injEq] at h
  obtain ⟨⟨-, -, -, hpcs, hsock⟩, -⟩ := h
  exact ⟨by simpa using congrArg List.length hpcs, congrArg List.length hsock⟩

/-- Only stream parameters that reach `_connect` open a connection. -/
theorem opens_nothing {s t : State} {e : Event} (h : step s e = some t)
    (hc : ConnectsCurrent s e) (hstop : Stopped s) :
    t.pcs.length = s.pcs.length ∧ t.sockets.length = s.sockets.length := by
  cases move_of_step h with
  | starts u hu b he =>
    have hstart : (start u b).pcs.length = (stop u).pcs.length ∧
        (start u b).sockets.length = (stop u).sockets.length := by cases b <;> exact ⟨rfl, rfl⟩
    have hu' := length_of_core hu
    have hs' := length_stop u
    omega
  | stops => exact length_stop s
  | mic hk hp ok => cases ok <;> exact ⟨rfl, rfl⟩
  | @fetched k call hk hp c =>
    have hne := hstop call (List.mem_of_getElem? hk)
    cases c with
    | refused => exact ⟨rfl, rfl⟩
    | noPeer => exact ⟨rfl, rfl⟩
    | noSocket => exact absurd (hc (.inl rfl) call hk) hne
    | opened => exact absurd (hc (.inr rfl) call hk) hne
  | keeps ht he => exact length_of_core ht

theorem length_starts (s : State) (b : Bool) : (start s b).starts.length = s.starts.length + 1 := by
  cases b <;> simp [start, stop]

/-- A step that makes no `start` call leaves a stopped session stopped, and `stop` stops it. -/
theorem stopped_step {s t : State} {e : Event} (hs : Generations s)
    (h : step s e = some t) (hn : t.starts.length = s.starts.length)
    (hst : e = .stop ∨ Stopped s) : Stopped t := by
  have hstop : Stopped (stop s) := by
    intro call hc
    have := hs.known call hc
    simp only [StreamSession.stop]
    omega
  have hset : ∀ (k : Nat) (call : StartCall) (x : StartPhase), s.starts[k]? = some call →
      Stopped s → ∀ a ∈ s.starts.set k { call with phase := x }, a.token ≠ s.sessionToken := by
    intro k call x hk hst a ha
    obtain ha | rfl := List.mem_or_eq_of_mem_set ha
    · exact hst a ha
    · exact hst call (List.mem_of_getElem? hk)
  cases move_of_step h with
  | starts u hu b he =>
    have hlen := length_starts u b
    have hu' : u.starts = s.starts := congrArg Prod.snd hu
    rw [hu'] at hlen
    omega
  | stops => exact hstop
  | mic hk hp ok =>
    have hold : Stopped s := hst.resolve_left (by simp)
    cases ok with
    | true => exact hset _ _ _ hk hold
    | false => exact hset _ _ _ hk hold
  | fetched hk hp c =>
    have hold : Stopped s := hst.resolve_left (by simp)
    cases c <;> exact hset _ _ _ hk hold
  | keeps ht he =>
    obtain rfl | hst := hst
    · cases h
      exact hstop
    · simp only [core, held, Prod.mk.injEq] at ht
      rw [Stopped, ht.2, ht.1.1]
      exact hst

theorem starts_mono {s t : State} {e : Event} (h : step s e = some t) :
    s.starts.length ≤ t.starts.length := by
  cases move_of_step h with
  | starts u hu b he =>
    have hlen := length_starts u b
    have hu' : u.starts = s.starts := congrArg Prod.snd hu
    rw [hu'] at hlen
    omega
  | stops => exact Nat.le_refl _
  | mic hk hp ok => cases ok <;> simp [micSettled]
  | fetched hk hp c => cases c <;> simp [fetchSettled, connect]
  | keeps ht he => exact Nat.le_of_eq (congrArg (fun c => c.2.length) ht).symm

theorem starts_mono_run {s t : State} {es : List Event} (h : run step s es = some t) :
    s.starts.length ≤ t.starts.length := by
  induction es generalizing s with
  | nil => cases h; exact Nat.le_refl _
  | cons e es ih =>
    obtain ⟨u, hu, hrun⟩ := Option.bind_eq_some_iff.mp h
    exact Nat.le_trans (starts_mono hu) (ih hrun)

/-- After `stop` and until the next `start`, a run in which every connection is made by the
current call opens none. -/
theorem stopped_run_opens_nothing {s t : State} {es : List Event} (hs : Generations s)
    (hst : Stopped s) (hc : Along step (fun s e _ => ConnectsCurrent s e) s es)
    (h : run step s es = some t) (hn : t.starts.length = s.starts.length) :
    t.pcs.length = s.pcs.length ∧ t.sockets.length = s.sockets.length := by
  induction es generalizing s with
  | nil => cases h; exact ⟨rfl, rfl⟩
  | cons e es ih =>
    obtain ⟨u, hu, hrun⟩ := Option.bind_eq_some_iff.mp h
    obtain ⟨hce, hces⟩ := (along_cons hu).mp hc
    have hle := starts_mono hu
    have hle' := starts_mono_run hrun
    have hu' := stopped_step hs hu (by omega) (.inr hst)
    have hrest := ih (hs.step hu hce) hu' hces hrun (by omega)
    have hfirst := opens_nothing hu hce hst
    omega

/-- A new peer connection is held with its own token, so a session that is in its current
generation afterwards has connected in it. -/
theorem connectsCurrent_of_current {s t : State} {e : Event} (h : step s e = some t)
    (ht : Current t) : ConnectsCurrent s e := by
  cases move_of_step h with
  | @fetched k call hk hp c =>
    intro hc call' hk'
    rw [hk] at hk'
    cases hk'
    obtain rfl | rfl := hc <;>
    · obtain ⟨b, hb⟩ := ht.pc s.pcs.length rfl
      simp [fetchSettled, connect, PeerConnection.life] at hb
      exact hb.1
  | stops => trivial
  | mic => trivial
  | starts u hu b he | keeps ht' he =>
    cases e with
    | fetchSettled k c => exact absurd rfl (he k c)
    | _ => trivial

/-- Along every run the session stays in its current generation, and opens nothing while it is
stopped, exactly when every `start` call that creates a peer connection has the current token
at that moment. -/
theorem keepsGeneration_iff (online : Bool) (es : List Event) :
    Along step (fun s _ t => KeepsGeneration s t) (init online) es ↔
      Along step (fun s e _ => ConnectsCurrent s e) (init online) es := by
  refine along_iff ?_ ?_ (generations_init online) es
  · intro s e t hs h
    exact ⟨fun ht => connectsCurrent_of_current h ht.1,
      fun hc => ⟨(hs.step h hc).current, opens_nothing h hc⟩⟩
  · intro s e t hs h hc
    exact hs.step h hc

/-- `start`, `stop`, and then the stream parameters of the stopped call arrive. -/
theorem stopped_session_connects : ∃ es s, run step (init true) es = some s ∧ ¬ Current s := by
  refine ⟨[.start, .stop, .fetchSettled 0 .opened], _, rfl, fun h => ?_⟩
  obtain ⟨c, hc⟩ := h.pc 0 rfl
  simp [PeerConnection.life, fetchSettled, connect, StreamSession.stop, StreamSession.start, init]
    at hc

end WyzeCams.StreamSession
