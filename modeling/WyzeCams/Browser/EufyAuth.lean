import WyzeCams.Eufy.Login
import WyzeCams.Lib.Separated

/-! The eufy login as `cam-frontend/public/viewer.html` follows it: `pollEufyAuth`, which keeps
asking for the status of the login, the banner that shows it, `submitEufyAuth`, and
`loadEufyCameras`, which the page calls once the cloud is connected. -/
namespace WyzeCams.EufyAuth
open EventMachine Timer

/-- What the page reads of the answer to `/api/eufy/auth/status`; any of it may be missing. -/
structure Reply where
  status : Option String
  message : Option String
  connected : Bool
  captcha : Option String
  deriving DecidableEq, Repr

/-- What `eufyBanner.innerHTML` was made of. -/
inductive Html where
  | blank
  | unreachable
  | challenge (message : String) (image : Option String)
  | failed (message : String)
  | progress (message : String)
  | loadFailed (message : String)
  deriving DecidableEq, Repr

inductive Call where
  | pollEufyAuth
  | loadEufyCameras
  deriving DecidableEq, Repr

/-- `polls`, `submits` and `loads` are the calls of `pollEufyAuth`, `submitEufyAuth` and
`loadEufyCameras` that wait for their answer. -/
structure State where
  eufyConnected : Bool
  eufyLoaded : Bool
  eufyAuthTimer : Option Nat
  eufyAuthSig : String
  eufyCamRetry : Option Nat
  timers : Timers Call
  shown : Bool
  html : Html
  polls : Nat
  submits : Nat
  loads : Nat
  deriving DecidableEq, Repr

def pollEufyAuth (s : State) : State :=
  { s with timers := clearHandle s.timers s.eufyAuthTimer, polls := s.polls + 1 }

def loadEufyCameras (s : State) : State :=
  { s with timers := clearHandle s.timers s.eufyCamRetry, loads := s.loads + 1 }

def init : State :=
  pollEufyAuth ⟨false, false, none, "", none, [], false, .blank, 0, 0, 0⟩

/-- The end of `pollEufyAuth` where it is to be called again. -/
def pollAgain (s : State) : State :=
  { s with
    timers := set s.timers .pollEufyAuth
    eufyAuthTimer := some s.timers.length
    polls := s.polls - 1 }

def Reply.isConnected (r : Reply) : Bool := r.connected || r.status = some "connected"

/-- The text `${data.status}|${data.message || ""}`. -/
def Reply.sig (r : Reply) : String := r.status.getD "undefined" ++ "|" ++ r.message.getD ""

/-- `data.message || fallback`. -/
def Reply.messageOr (r : Reply) (fallback : String) : String :=
  match r.message with
  | none => fallback
  | some m => if m = "" then fallback else m

def Reply.image (r : Reply) : Option String :=
  if r.status = some "captcha" then r.captcha.filter fun c => c ≠ "" else none

def Reply.html (r : Reply) : Html :=
  if r.status = some "captcha" then .challenge (r.messageOr "Enter the captcha.") r.image
  else if r.status = some "tfa" then .challenge (r.messageOr "Enter the 2FA code.") none
  else if r.status = some "error" then .failed (r.messageOr "")
  else .progress (r.messageOr "Connecting…")

def renderEufyBanner (s : State) (r : Reply) : State :=
  if r.sig = s.eufyAuthSig then s
  else { s with eufyAuthSig := r.sig, shown := true, html := r.html }

def stopPolling (s : State) : State :=
  { s with eufyConnected := true, shown := false, eufyAuthSig := "", polls := s.polls - 1 }

/-- `pollEufyAuth` when it has the answer of the server. -/
def polled (s : State) (r : Reply) : State :=
  if r.isConnected then
    if s.eufyLoaded then stopPolling s else loadEufyCameras (stopPolling s)
  else pollAgain (renderEufyBanner s r)

/-- `fired` is a timer; the `poll`, `submit` and `cams` events are how a call of `pollEufyAuth`,
`submitEufyAuth` and `loadEufyCameras` ends, and `submitClicked` is a click with a code in the
input. -/
inductive Event where
  | fired (k : Nat)
  | pollThrew
  | pollUnreachable
  | polled (r : Reply)
  | submitClicked
  | submitEnded
  | camsNotReady
  | camsFailed (message : String)
  | camsLoaded
  | reloadEufy
  deriving DecidableEq, Repr

def Html.isChallenge : Html → Bool
  | .challenge _ _ => true
  | _ => false

def step (s : State) : Event → Option State
  | .fired k =>
    match s.timers[k]? with
    | some (some .pollEufyAuth) => some (pollEufyAuth { s with timers := clear s.timers k })
    | some (some .loadEufyCameras) => some (loadEufyCameras { s with timers := clear s.timers k })
    | _ => none
  | .pollThrew => if 0 < s.polls then some (pollAgain s) else none
  | .pollUnreachable =>
    if 0 < s.polls then
      some (pollAgain { s with shown := true, html := .unreachable, eufyAuthSig := "" })
    else none
  | .polled r => if 0 < s.polls then some (polled s r) else none
  | .submitClicked => if s.html.isChallenge then some { s with submits := s.submits + 1 } else none
  | .submitEnded =>
    if 0 < s.submits then
      some (pollEufyAuth { s with eufyAuthSig := "", submits := s.submits - 1 })
    else none
  | .camsNotReady =>
    if 0 < s.loads then
      some { s with
        timers := set s.timers .loadEufyCameras
        eufyCamRetry := some s.timers.length
        loads := s.loads - 1 }
    else none
  | .camsFailed message =>
    if 0 < s.loads then
      some { s with shown := true, html := .loadFailed message, loads := s.loads - 1 }
    else none
  | .camsLoaded =>
    if 0 < s.loads then some { s with eufyLoaded := true, loads := s.loads - 1 } else none
  | .reloadEufy => some (if s.eufyConnected then loadEufyCameras s else s)

/-- How many answers said that the cloud is connected, how many submissions have ended, whether a
load of the cameras has failed since one was last begun; and the answers since the banner was last
rendered, while it was not to be rendered anew, and whether a failed load has overwritten it. -/
structure Record where
  connected : Nat
  submitted : Nat
  failed : Bool
  seen : List Reply
  overwritten : Bool
  deriving DecidableEq, Repr

def noteFailed (failed : Bool) (s : State) (e : Event) (t : State) : Bool :=
  match e with
  | .camsFailed _ => true
  | _ => failed && t.loads ≤ s.loads

def note (w : Record) (s : State) (e : Event) (t : State) : Record :=
  let w := { w with failed := noteFailed w.failed s e t }
  match e with
  | .polled r =>
    if r.isConnected then { w with connected := w.connected + 1, seen := [] }
    else if r.sig = s.eufyAuthSig then { w with seen := w.seen ++ [r] }
    else { w with seen := [r], overwritten := false }
  | .pollUnreachable => { w with seen := [] }
  | .submitEnded => { w with submitted := w.submitted + 1, seen := [] }
  | .camsFailed _ => { w with overwritten := true }
  | _ => w

def start : Record := ⟨0, 0, false, [], false⟩

def State.pollTimers (s : State) : Nat := armedCount s.timers .pollEufyAuth

def State.loadTimers (s : State) : Nat := armedCount s.timers .loadEufyCameras

structure Handles (s : State) : Prop where
  auth : Owns s.timers s.eufyAuthTimer Call.pollEufyAuth
  cams : Owns s.timers s.eufyCamRetry Call.loadEufyCameras

variable {s t : State} {w : Record} {r : Reply}

theorem Handles.clear (h : Handles s) (k : Nat) : Handles { s with timers := clear s.timers k } :=
  ⟨h.auth.clear k, h.cams.clear k⟩

theorem Handles.pollEufyAuth (h : Handles s) : Handles (pollEufyAuth s) :=
  ⟨h.auth.clearHandle, h.cams.clearHandle⟩

theorem Handles.loadEufyCameras (h : Handles s) : Handles (loadEufyCameras s) :=
  ⟨h.auth.clearHandle, h.cams.clearHandle⟩

theorem Handles.pollAgain (h : Handles s) : Handles (pollAgain s) := ⟨owns_set_self, h.cams.set _⟩

/-- The calls of `pollEufyAuth` that are under way or to come. -/
def State.chains (s : State) : Nat := s.polls + s.pollTimers

def State.loading (s : State) : Nat := s.loads + s.loadTimers

theorem chains_pollEufyAuth (s : State) : (pollEufyAuth s).chains ≤ s.chains + 1 := by
  have hle : armedCount (clearHandle s.timers s.eufyAuthTimer) .pollEufyAuth ≤ s.pollTimers :=
    armedCount_clearHandle_le
  simp only [State.chains, State.pollTimers, pollEufyAuth] at hle ⊢
  omega

theorem loading_pollEufyAuth (h : Handles s) : (pollEufyAuth s).loading = s.loading := by
  simp only [State.loading, State.loadTimers, pollEufyAuth]
  rw [h.auth.armedCount_clearHandle (by decide)]

theorem chains_loadEufyCameras (h : Handles s) : (loadEufyCameras s).chains = s.chains := by
  simp only [State.chains, State.pollTimers, loadEufyCameras]
  rw [h.cams.armedCount_clearHandle (by decide)]

theorem chains_pollAgain (h : 0 < s.polls) :
    (pollAgain s).chains = s.chains ∧ 0 < (pollAgain s).chains ∧
    (pollAgain s).loading = s.loading := by
  simp only [State.chains, State.pollTimers, State.loading, State.loadTimers,
    pollAgain, armedCount_set]
  simp
  omega

/-- While the page does not know that the cloud is connected it goes on asking; each answer that
says so ends one chain of calls, and only a submission begins another; and once it knows, it goes on
loading the cameras until it has them or has failed. -/
structure Inv (s : State) (w : Record) : Prop where
  handles : Handles s
  asking : w.connected = 0 → 0 < s.chains
  chains : s.chains + w.connected ≤ 1 + w.submitted
  connected : s.eufyConnected = true ↔ 0 < w.connected
  loads : s.eufyConnected = true → s.eufyLoaded = true ∨ 0 < s.loading ∨ w.failed = true

theorem Inv.init : Inv init start where
  handles := ⟨owns_none, owns_none⟩
  asking := fun _ => by decide
  chains := by decide
  connected := by decide
  loads := fun h => nomatch h

theorem inv_pollEufyAuth (hhandles : Handles s) (hchains : s.chains + w.connected ≤ w.submitted)
    (hconnected : s.eufyConnected = true ↔ 0 < w.connected)
    (hloads : s.eufyConnected = true → s.eufyLoaded = true ∨ 0 < s.loading ∨ w.failed = true) :
    Inv (pollEufyAuth s) w where
  handles := hhandles.pollEufyAuth
  asking := fun _ => Nat.add_pos_left (Nat.succ_pos _) _
  chains := by
    have hle := chains_pollEufyAuth s
    omega
  connected := hconnected
  loads := by
    rw [loading_pollEufyAuth hhandles]
    exact hloads

theorem inv_loadEufyCameras (hhandles : Handles s) (hasking : w.connected = 0 → 0 < s.chains)
    (hchains : s.chains + w.connected ≤ 1 + w.submitted)
    (hconnected : s.eufyConnected = true ↔ 0 < w.connected) : Inv (loadEufyCameras s) w where
  handles := hhandles.loadEufyCameras
  asking := by
    rw [chains_loadEufyCameras hhandles]
    exact hasking
  chains := by
    rw [chains_loadEufyCameras hhandles]
    exact hchains
  connected := hconnected
  loads := fun _ => .inr (.inl (Nat.add_pos_left (Nat.succ_pos _) _))

theorem Inv.pollAgain (h : Inv s w) (hpolls : 0 < s.polls) : Inv (pollAgain s) w := by
  obtain ⟨hsame, hpos, hloading⟩ := chains_pollAgain hpolls
  refine ⟨h.handles.pollAgain, fun _ => hpos, ?_, h.connected, ?_⟩
  · rw [hsame]
    exact h.chains
  · rw [hloading]
    exact h.loads

/-- A failed load is remembered until one is begun. -/
theorem noteFailed_of_le {failed : Bool} {e : Event} (hfailed : failed = true)
    (hle : t.loads ≤ s.loads) :
    noteFailed failed s e t = true := by
  cases e <;> simp [noteFailed, hfailed, hle]

/-- What is known of the loads survives a step that begins none. -/
theorem Inv.noted (h : Inv t w) {e : Event} (hle : t.loads ≤ s.loads) :
    Inv t { w with failed := noteFailed w.failed s e t } where
  handles := h.handles
  asking := h.asking
  chains := h.chains
  connected := h.connected
  loads := fun hon => (h.loads hon).imp_right fun h => h.imp_right fun hw => noteFailed_of_le hw hle

theorem Inv.congr (h : Inv s w) {w' : Record} (hconnected : w'.connected = w.connected)
    (hsubmitted : w'.submitted = w.submitted) (hfailed : w'.failed = w.failed) : Inv s w' where
  handles := h.handles
  asking := by
    rw [hconnected]
    exact h.asking
  chains := by
    rw [hconnected, hsubmitted]
    exact h.chains
  connected := by
    rw [hconnected]
    exact h.connected
  loads := by
    rw [hfailed]
    exact h.loads

theorem Inv.fired {k : Nat} (h : Inv s w) (hstep : EufyAuth.step s (.fired k) = some t) :
    Inv t (note w s (.fired k) t) := by
  have hchains := h.chains
  simp only [State.chains, State.pollTimers] at hchains
  simp only [EufyAuth.step] at hstep
  split at hstep
  · rename_i hk
    obtain rfl := Option.some.inj hstep
    have hcount := armedCount_clear_of_armed hk
    have hother : armedCount (clear s.timers k) Call.loadEufyCameras = s.loadTimers :=
      armedCount_clear_of_not_armed fun hk' => absurd (Armed.unique hk hk') (by decide)
    refine Inv.noted (inv_pollEufyAuth (h.handles.clear k) ?_ h.connected ?_) (Nat.le_refl _)
    · simp only [State.chains, State.pollTimers]
      omega
    · simp only [State.loading, State.loadTimers] at hother ⊢
      rw [hother]
      exact h.loads
  · rename_i hk
    obtain rfl := Option.some.inj hstep
    have hother : armedCount (clear s.timers k) Call.pollEufyAuth =
      armedCount s.timers .pollEufyAuth :=
      armedCount_clear_of_not_armed fun hk' => absurd (Armed.unique hk hk') (by decide)
    refine inv_loadEufyCameras (h.handles.clear k) ?_ ?_ h.connected
    · simp only [State.chains, State.pollTimers, hother]
      exact h.asking
    · simp only [State.chains, State.pollTimers, hother]
      exact hchains
  · cases hstep

theorem Inv.polled (h : Inv s w) (hpolls : 0 < s.polls) (r : Reply) :
    Inv (polled s r) (note w s (.polled r) (polled s r)) := by
  by_cases hconnected : r.isConnected = true
  · have hchains := h.chains
    have hstop : (stopPolling s).chains + (w.connected + 1) ≤ 1 + w.submitted := by
      simp only [State.chains, State.pollTimers, stopPolling] at hchains ⊢
      omega
    have hpos : 0 < w.connected + 1 := Nat.succ_pos _
    rw [note, if_pos hconnected, EufyAuth.polled, if_pos hconnected]
    split_ifs with hloaded
    · exact ⟨⟨h.handles.auth, h.handles.cams⟩, fun hno => absurd hno (Nat.succ_ne_zero _), hstop,
        iff_of_true rfl hpos, fun _ => .inl hloaded⟩
    · exact inv_loadEufyCameras ⟨h.handles.auth, h.handles.cams⟩
        (fun hno => absurd hno (Nat.succ_ne_zero _)) hstop (iff_of_true rfl hpos)
  · have hrender : Inv (renderEufyBanner s r) w ∧ (renderEufyBanner s r).polls = s.polls ∧
        (renderEufyBanner s r).loads = s.loads := by
      rw [renderEufyBanner]
      split_ifs
      · exact ⟨h, rfl, rfl⟩
      · exact ⟨⟨⟨h.handles.auth, h.handles.cams⟩, h.asking, h.chains, h.connected, h.loads⟩,
          rfl, rfl⟩
    obtain ⟨hinv, hpolls', hloads⟩ := hrender
    have hagain := (hinv.pollAgain (hpolls' ▸ hpolls)).noted (e := .polled r) (Nat.le_of_eq hloads)
    rw [note, if_neg hconnected, EufyAuth.polled, if_neg hconnected]
    split_ifs
    · exact hagain.congr rfl rfl rfl
    · exact hagain.congr rfl rfl rfl

theorem Inv.step {e : Event} (h : Inv s w) (hstep : step s e = some t) : Inv t (note w s e t) := by
  cases e with
  | fired k => exact h.fired hstep
  | pollThrew =>
    obtain ⟨hpolls, rfl⟩ := of_guard hstep
    exact (h.pollAgain hpolls).noted (Nat.le_refl _)
  | pollUnreachable =>
    obtain ⟨hpolls, rfl⟩ := of_guard hstep
    have hshown : Inv { s with shown := true, html := .unreachable, eufyAuthSig := "" } w :=
      ⟨⟨h.handles.auth, h.handles.cams⟩, h.asking, h.chains, h.connected, h.loads⟩
    exact ((hshown.pollAgain hpolls).noted (e := .pollUnreachable) (Nat.le_refl _)).congr
      rfl rfl rfl
  | polled r =>
    obtain ⟨hpolls, rfl⟩ := of_guard hstep
    exact h.polled hpolls r
  | submitClicked =>
    obtain ⟨-, rfl⟩ := of_guard hstep
    have hsame : Inv { s with submits := s.submits + 1 } w :=
      ⟨⟨h.handles.auth, h.handles.cams⟩, h.asking, h.chains, h.connected, h.loads⟩
    exact hsame.noted (Nat.le_refl _)
  | submitEnded =>
    obtain ⟨-, rfl⟩ := of_guard hstep
    have hchains : s.chains + w.connected ≤ w.submitted + 1 := by
      rw [Nat.add_comm w.submitted]
      exact h.chains
    have hpoll : Inv (pollEufyAuth { s with eufyAuthSig := "", submits := s.submits - 1 })
        { w with submitted := w.submitted + 1, seen := [] } :=
      inv_pollEufyAuth ⟨h.handles.auth, h.handles.cams⟩ hchains h.connected h.loads
    exact hpoll.noted (e := .submitEnded) (Nat.le_refl _)
  | camsNotReady =>
    obtain ⟨hloads, rfl⟩ := of_guard hstep
    have hpoll : armedCount (set s.timers Call.loadEufyCameras) .pollEufyAuth = s.pollTimers := by
      rw [armedCount_set, if_neg (by decide), Nat.add_zero]
      rfl
    have hload : armedCount (set s.timers Call.loadEufyCameras) .loadEufyCameras =
      s.loadTimers + 1 := by
      rw [armedCount_set, if_pos rfl]
      rfl
    refine ⟨⟨h.handles.auth.set _, owns_set_self⟩, ?_, ?_, h.connected, fun _ => .inr (.inl ?_)⟩
    · rw [State.chains, State.pollTimers, hpoll]
      exact h.asking
    · rw [State.chains, State.pollTimers, hpoll]
      exact h.chains
    · rw [State.loading, State.loadTimers, hload]
      exact Nat.add_pos_right _ (Nat.succ_pos _)
  | camsFailed message =>
    obtain ⟨-, rfl⟩ := of_guard hstep
    exact ⟨⟨h.handles.auth, h.handles.cams⟩, h.asking, h.chains, h.connected,
      fun _ => .inr (.inr rfl)⟩
  | camsLoaded =>
    obtain ⟨-, rfl⟩ := of_guard hstep
    exact ⟨⟨h.handles.auth, h.handles.cams⟩, h.asking, h.chains, h.connected, fun _ => .inl rfl⟩
  | reloadEufy =>
    obtain rfl := Option.some.inj hstep
    split_ifs with hon
    · exact inv_loadEufyCameras h.handles h.asking h.chains h.connected
    · exact h.noted (e := .reloadEufy) (Nat.le_refl _)

/-- In every reachable state: until an answer has said that the cloud is connected, a call of
`pollEufyAuth` is under way or a timer is set to make one; every such answer ends one of these calls
for good, so that at most as many go on as submissions have ended, and one; and once the page knows
that the cloud is connected, it has the cameras, or loads them or is set to, or the last load that
ended has failed. -/
theorem keeps_asking {s : State} {w : Record}
    (h : Reachable (watch step note) (init, start) (s, w)) :
    (w.connected = 0 → 0 < s.polls ∨ ∃ k, Armed s.timers k .pollEufyAuth) ∧
      s.polls + armedCount s.timers .pollEufyAuth + w.connected ≤ 1 + w.submitted ∧
      (0 < w.connected → s.eufyLoaded = true ∨ 0 < s.loads ∨
        (∃ k, Armed s.timers k .loadEufyCameras) ∨ w.failed = true) := by
  have hkeep : ∀ s w e t, Inv s w → step s e = some t → Inv t (note w s e t) :=
    fun _ _ _ _ hs hstep => hs.step hstep
  have hinv : Inv s w := inv_of_watch hkeep Inv.init h
  refine ⟨fun hno => ?_, hinv.chains, fun hyes => ?_⟩
  · rw [← armedCount_pos_iff]
    exact Nat.add_pos_iff_pos_or_pos.mp (hinv.asking hno)
  · refine (hinv.loads (hinv.connected.mpr hyes)).imp_right fun hload => ?_
    rw [← armedCount_pos_iff, ← or_assoc]
    exact hload.imp_left Nat.add_pos_iff_pos_or_pos.mp

def connecting : List Event :=
  [.pollThrew, .fired 0, .polled ⟨some "connected", none, true, none⟩, .camsNotReady]

theorem keeps_asking_connecting :
    ∃ s w, Reachable (watch step note) (init, start) (s, w) ∧ w.connected = 1 ∧ s.polls = 0 ∧
      ∃ k, Armed s.timers k .loadEufyCameras := by
  have hrun : ∃ s w, run (watch step note) (init, start) connecting = some (s, w) ∧
      w.connected = 1 ∧ w.submitted = 0 ∧ s.eufyLoaded = false ∧ s.loads = 0 ∧ w.failed = false :=
    ⟨_, _, rfl, rfl, rfl, rfl, rfl, rfl⟩
  obtain ⟨s, w, hrun, hconnected, hsubmitted, hloaded, hloads, hfailed⟩ := hrun
  have hreach : Reachable (watch step note) (init, start) (s, w) := ⟨connecting, hrun⟩
  obtain ⟨-, hchains, hcams⟩ := keeps_asking hreach
  refine ⟨s, w, hreach, hconnected, by omega, ?_⟩
  rcases hcams (by omega) with hon | hon | hon | hon
  · exact absurd (hloaded.symm.trans hon) (by decide)
  · omega
  · exact hon
  · exact absurd (hfailed.symm.trans hon) (by decide)

/-- The banner shows the first of the answers that have its signature, unless a failed load has
overwritten it. -/
def Shows (s : State) (w : Record) : Prop :=
  s.eufyAuthSig = "" ∧ w.seen = [] ∨
    ∃ r rs, w.seen = r :: rs ∧ (∀ r' ∈ w.seen, r'.sig = s.eufyAuthSig) ∧
      (w.overwritten = false → s.shown = true ∧ s.html = r.html)

theorem sig_ne_empty (r : Reply) : r.sig ≠ "" := by
  intro h
  have hmem : '|' ∈ r.sig.toList := by simp [Reply.sig]
  rw [h] at hmem
  exact absurd hmem (by decide)

theorem shows_polled (h : Shows s w) (hr : r.isConnected = false) :
    Shows (polled s r) (note w s (.polled r) (polled s r)) := by
  have hconnected : ¬ r.isConnected = true := Bool.eq_false_iff.mp hr
  rw [note, if_neg hconnected, polled, if_neg hconnected, renderEufyBanner]
  split_ifs with hsig
  · rcases h with ⟨hempty, -⟩ | ⟨first, rs, hseen, hall, hshown⟩
    · exact absurd (hsig.trans hempty) (sig_ne_empty r)
    · refine .inr ⟨first, rs ++ [r], by rw [hseen]; rfl, ?_, hshown⟩
      exact List.forall_mem_append.mpr ⟨hall, List.forall_mem_singleton.mpr hsig⟩
  · exact .inr ⟨r, [], rfl, List.forall_mem_singleton.mpr rfl, fun _ => ⟨rfl, rfl⟩⟩

theorem shows_step {e : Event} (h : Shows s w) (hstep : step s e = some t) :
    Shows t (note w s e t) := by
  cases e with
  | fired k =>
    simp only [step] at hstep
    split at hstep
    · obtain rfl := Option.some.inj hstep
      exact h
    · obtain rfl := Option.some.inj hstep
      exact h
    · cases hstep
  | pollThrew =>
    obtain ⟨-, rfl⟩ := of_guard hstep
    exact h
  | pollUnreachable =>
    obtain ⟨-, rfl⟩ := of_guard hstep
    exact .inl ⟨rfl, rfl⟩
  | polled r =>
    obtain ⟨-, rfl⟩ := of_guard hstep
    cases hr : r.isConnected with
    | false => exact shows_polled h hr
    | true =>
      rw [note, if_pos hr, polled, if_pos hr]
      split_ifs
      · exact .inl ⟨rfl, rfl⟩
      · exact .inl ⟨rfl, rfl⟩
  | submitClicked =>
    obtain ⟨-, rfl⟩ := of_guard hstep
    exact h
  | submitEnded =>
    obtain ⟨-, rfl⟩ := of_guard hstep
    exact .inl ⟨rfl, rfl⟩
  | camsNotReady =>
    obtain ⟨-, rfl⟩ := of_guard hstep
    exact h
  | camsFailed message =>
    obtain ⟨-, rfl⟩ := of_guard hstep
    exact h.imp_right fun ⟨first, rs, hseen, hall, _⟩ =>
      ⟨first, rs, hseen, hall, fun hno => nomatch hno⟩
  | camsLoaded =>
    obtain ⟨-, rfl⟩ := of_guard hstep
    exact h
  | reloadEufy =>
    obtain rfl := Option.some.inj hstep
    split_ifs
    · exact h
    · exact h

def statusText : Login.Status → String
  | .connecting => "connecting"
  | .captcha => "captcha"
  | .tfa => "tfa"
  | .connected => "connected"
  | .error => "error"

/-- `GET /api/auth/status`. -/
def authStatus (s : Login.State) : Reply where
  status := some (statusText s.auth.status)
  message := some s.auth.message
  connected := s.connected
  captcha := if s.auth.status = .captcha then s.auth.captchaImage else none

theorem statusText_injective {a b : Login.Status} (h : statusText a = statusText b) : a = b := by
  cases a <;> cases b <;> first | rfl | exact absurd h (by decide)

theorem bar_not_mem (a : Login.Status) : '|' ∉ (statusText a).toList := by
  cases a <;> decide

/-- The signature says all that the banner shows but the image. -/
theorem html_eq_iff {a b : Login.State} (h : (authStatus a).sig = (authStatus b).sig) :
    (authStatus a).html = (authStatus b).html ↔ (authStatus a).image = (authStatus b).image := by
  have hlist := congrArg String.toList h
  simp only [Reply.sig, authStatus, Option.getD_some, String.toList_append,
    List.append_assoc] at hlist
  obtain ⟨hstatus, hmessage⟩ := Separated.append_cons_inj (bar_not_mem _) (bar_not_mem _) hlist
  have hstatus := statusText_injective (String.toList_injective hstatus)
  have hmessage := String.toList_injective hmessage
  have hor : ∀ fallback, (authStatus a).messageOr fallback = (authStatus b).messageOr fallback := by
    intro fallback
    simp only [Reply.messageOr, authStatus, hmessage]
  have hsame : (authStatus a).status = (authStatus b).status := by
    rw [authStatus, authStatus, hstatus]
  simp only [Reply.html, hor, hsame]
  split_ifs with hcaptcha
  · rw [Html.challenge.injEq, and_iff_right rfl]
  all_goals
    rw [Reply.image, Reply.image, hsame, if_neg hcaptcha, if_neg hcaptcha]
    exact iff_of_true rfl rfl

def Event.FromServer : Event → Prop
  | .polled r => ∃ a, r = authStatus a
  | _ => True

theorem note_seen {e : Event} (he : e.FromServer) (h : ∀ r ∈ w.seen, ∃ a, r = authStatus a) :
    ∀ r ∈ (note w s e t).seen, ∃ a, r = authStatus a := by
  cases e with
  | polled r =>
    rw [note]
    split_ifs
    · exact fun _ h => absurd h List.not_mem_nil
    · exact List.forall_mem_append.mpr ⟨h, List.forall_mem_singleton.mpr he⟩
    · exact List.forall_mem_singleton.mpr he
  | pollUnreachable => exact fun _ h => absurd h List.not_mem_nil
  | submitEnded => exact fun _ h => absurd h List.not_mem_nil
  | _ => exact h

/-- In any run in which the answers come from `eufy/server.js`, as long as no failed load of the
cameras has overwritten the banner: it is shown, and of any of the answers that it was not rendered
anew for it shows what that answer says exactly when the answer has the image of the first of them.
A captcha that is issued again is not shown. -/
theorem banner_current_iff {events : List Event} (hevents : ∀ e ∈ events, e.FromServer) {s : State}
    {w : Record} (hrun : run (watch step note) (init, start) events = some (s, w))
    (hw : w.overwritten = false) {first r : Reply} {rs : List Reply} (hseen : w.seen = first :: rs)
    (hr : r ∈ w.seen) : s.shown = true ∧ (s.html = r.html ↔ r.image = first.image) := by
  have hkeep : ∀ (p : State × Record) e q, Shows p.1 p.2 ∧ (∀ r ∈ p.2.seen, ∃ a, r = authStatus a) →
      watch step note p e = some q → e.FromServer →
      Shows q.1 q.2 ∧ ∀ r ∈ q.2.seen, ∃ a, r = authStatus a := by
    rintro p e q ⟨hp, hserver⟩ hq he
    obtain ⟨t, ht, rfl⟩ := of_watch hq
    exact ⟨shows_step hp ht, note_seen he hserver⟩
  have hall : Along (watch step note) (fun _ e _ => e.FromServer) (init, start) events :=
    along_of_forall (fun e he _ _ => hevents e he) (init, start)
  have hinit : Shows init start ∧ ∀ r ∈ start.seen, ∃ a, r = authStatus a :=
    ⟨.inl ⟨rfl, rfl⟩, fun _ h => absurd h List.not_mem_nil⟩
  obtain ⟨hshows, hserver⟩ := inv_of_run hkeep hinit hall hrun
  rcases hshows with ⟨-, hnil⟩ | ⟨first', rs', hseen', hsig, hshown⟩
  · exact absurd (hseen.symm.trans hnil) (List.cons_ne_nil first rs)
  · obtain rfl := (List.cons.inj (hseen.symm.trans hseen')).1
    obtain ⟨hon, hhtml⟩ := hshown hw
    have hfirst : first ∈ w.seen := hseen ▸ List.mem_cons_self
    obtain ⟨a, ha⟩ := hserver first hfirst
    obtain ⟨b, rfl⟩ := hserver r hr
    subst ha
    refine ⟨hon, ?_⟩
    rw [hhtml, html_eq_iff ((hsig _ hfirst).trans (hsig _ hr).symm)]
    exact eq_comm

def captcha (image : String) : Login.State :=
  { Login.init with
    auth := ⟨.captcha, "Enter the characters shown in the image.", some "id", some image⟩ }

def reissued : List Event :=
  [.polled (authStatus (captcha "data:1")), .fired 0, .polled (authStatus (captcha "data:2"))]

theorem banner_current_iff_reissued :
    ∃ s w, run (watch step note) (init, start) reissued = some (s, w) ∧
      s.shown = true ∧ s.html ≠ (authStatus (captcha "data:2")).html := by
  have hevents : ∀ e ∈ reissued, e.FromServer := by
    simp only [reissued, List.forall_mem_cons, List.not_mem_nil, false_imp_iff,
      implies_true, and_true]
    exact ⟨⟨_, rfl⟩, trivial, ⟨_, rfl⟩⟩
  have hrun : ∃ s w, run (watch step note) (init, start) reissued = some (s, w) ∧
      w.overwritten = false ∧
      w.seen = [authStatus (captcha "data:1"), authStatus (captcha "data:2")] :=
    ⟨_, _, rfl, rfl, rfl⟩
  obtain ⟨s, w, hrun, hw, hseen⟩ := hrun
  have hlast : authStatus (captcha "data:2") ∈ w.seen := by
    rw [hseen]
    exact List.mem_cons_of_mem _ List.mem_cons_self
  obtain ⟨hon, hiff⟩ := banner_current_iff hevents hrun hw hseen hlast
  refine ⟨s, w, hrun, hon, fun hhtml => absurd (hiff.mp hhtml) (by decide)⟩

end WyzeCams.EufyAuth
