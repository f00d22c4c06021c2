import WyzeCams.Browser.StreamSession
import WyzeCams.Lib.Table
import Mathlib.Data.List.Perm.Basic

/-! The signaling messages of one generation of a `StreamSession`, in `ws.onmessage` of
`cam-frontend/public/viewer.html`, with the ICE candidates that they carry. -/
namespace WyzeCams.Candidates
open EventMachine
open StreamSession (SignalingState)
variable {κ : Type}

/-- The await at which a call of `onmessage` is suspended; `flushing i` adds the queued candidate
`i`, and `adding` one that was not queued. -/
inductive Handler where
  | settingRemote
  | flushing (i : Nat)
  | adding
  | done
  deriving DecidableEq, Repr

/-- `received` are the candidates that have arrived, `added` those that were passed to
`addIceCandidate`. -/
structure State (κ : Type) where
  signalingState : SignalingState
  remoteDescription : Bool
  hasRemoteDesc : Bool
  isApplyingRemoteAnswer : Bool
  pendingCandidates : List κ
  handlers : List Handler
  received : List κ
  added : List κ
  deriving DecidableEq, Repr

def init : State κ := ⟨.stable, false, false, false, [], [], [], []⟩

/-- What a message carries; `other` is one that the handler ignores or cannot use. -/
inductive Message (κ : Type) where
  | answer
  | candidate (c : κ)
  | other
  deriving DecidableEq, Repr

def setHandler (s : State κ) (h : Nat) (x : Handler) : State κ :=
  { s with handlers := s.handlers.set h x }

/-- Behind the loop over `pendingCandidates`. -/
def flushed (s : State κ) (h : Nat) : State κ :=
  setHandler { s with pendingCandidates := [], isApplyingRemoteAnswer := false } h .done

/-- The loop over `pendingCandidates`, from its index `i` on. -/
def addPending (s : State κ) (h i : Nat) : State κ :=
  match s.pendingCandidates[i]? with
  | some c => setHandler { s with added := s.added ++ [c] } h (.flushing i)
  | none => flushed s h

def answerFailed (s : State κ) (h : Nat) : State κ :=
  setHandler { s with isApplyingRemoteAnswer := false } h .done

/-- `onmessage` up to its first await. -/
def onMessage (s : State κ) : Message κ → State κ
  | .answer =>
    if s.hasRemoteDesc ∨ s.isApplyingRemoteAnswer ∨ s.signalingState ≠ .haveLocalOffer then s
    else { s with isApplyingRemoteAnswer := true, handlers := s.handlers ++ [.settingRemote] }
  | .candidate c =>
    let s := { s with received := s.received ++ [c] }
    if s.hasRemoteDesc = false then { s with pendingCandidates := s.pendingCandidates ++ [c] }
    else if s.remoteDescription then
      { s with added := s.added ++ [c], handlers := s.handlers ++ [.adding] }
    else s
  | .other => s

/-- `ok` says whether the promise was fulfilled. -/
inductive Event (κ : Type) where
  | localSettled
  | message (m : Message κ)
  | remoteSettled (h : Nat) (ok : Bool)
  | candidateSettled (h : Nat) (ok : Bool)
  deriving DecidableEq, Repr

/-- `onmessage` behind `setRemoteDescription`. -/
def remoteSettled (s : State κ) (h : Nat) (ok : Bool) : State κ :=
  if ok then
    let applied := { s with
      signalingState := .stable, remoteDescription := true, hasRemoteDesc := true }
    addPending applied h 0
  else answerFailed s h

def step (s : State κ) : Event κ → Option (State κ)
  | .localSettled => some { s with signalingState := .haveLocalOffer }
  | .message m => some (onMessage s m)
  | .remoteSettled h ok =>
    if s.handlers[h]? = some .settingRemote then some (remoteSettled s h ok) else none
  | .candidateSettled h ok =>
    match s.handlers[h]? with
    | some (.flushing i) => some (if ok then addPending s h (i + 1) else answerFailed s h)
    | some .adding => some (setHandler s h .done)
    | _ => none

/-- The answer has been applied, and no handler is suspended. -/
def Finished (s : State κ) : Prop := s.hasRemoteDesc = true ∧ ∀ x ∈ s.handlers, x = .done

/-- What a run owes to the candidates: each is passed on once, and none before the remote
description is set. -/
structure Applied (events : List (Event κ)) (s : State κ) : Prop where
  once : s.added.Perm s.received
  early : ∀ pre t, pre <+: events → run step init pre = some t → t.remoteDescription = false →
    t.added = []

/-- A queued candidate is rejected while others are queued behind it. -/
def Drops (s : State κ) (e : Event κ) : Prop :=
  ∃ h i, e = .candidateSettled h false ∧ s.handlers[h]? = some (.flushing i) ∧
    i + 1 < s.pendingCandidates.length

def Handler.Idle : Handler → Prop
  | .adding => True
  | .done => True
  | _ => False

def Handler.left (pending : List κ) : Handler → List κ
  | .flushing i => pending.drop (i + 1)
  | _ => []

/-- The queued candidates that are still to be added. -/
def waiting (s : State κ) : List κ :=
  if s.hasRemoteDesc then s.handlers.flatMap (Handler.left s.pendingCandidates)
  else s.pendingCandidates

def Alone (handlers : List Handler) (h : Nat) : Prop :=
  ∀ (j : Nat) x, handlers[j]? = some x → j ≠ h → x.Idle

inductive Stage (s : State κ) : Prop where
  | queueing (hdesc : s.hasRemoteDesc = false) (hremote : s.remoteDescription = false)
      (hadded : s.added = [])
      (hhandler : ∀ (h : Nat) x, s.handlers[h]? = some x → ¬ x.Idle →
        x = .settingRemote ∧ s.isApplyingRemoteAnswer = true ∧ Alone s.handlers h)
  | flushing (h i : Nat) (hdesc : s.hasRemoteDesc = true) (hremote : s.remoteDescription = true)
      (hhandler : s.handlers[h]? = some (.flushing i)) (halone : Alone s.handlers h)
      (hi : i < s.pendingCandidates.length)
  | complete (hdesc : s.hasRemoteDesc = true) (hremote : s.remoteDescription = true)
      (hidle : ∀ x ∈ s.handlers, x.Idle)

theorem left_of_idle {x : Handler} (h : x.Idle) (pending : List κ) : x.left pending = [] := by
  cases x with
  | settingRemote => exact h.elim
  | flushing i => exact h.elim
  | adding => rfl
  | done => rfl

theorem flatMap_left_of_idle {handlers : List Handler} (h : ∀ x ∈ handlers, x.Idle)
    (pending : List κ) : handlers.flatMap (Handler.left pending) = [] := by
  rw [List.flatMap_eq_nil_iff]
  exact fun x hx => left_of_idle (h x hx) pending

theorem alone_cons {x : Handler} {handlers : List Handler} {h : Nat}
    (halone : Alone (x :: handlers) (h + 1)) : x.Idle ∧ Alone handlers h := by
  refine ⟨halone 0 x rfl (Nat.succ_ne_zero h).symm, fun j y hy hj => ?_⟩
  exact halone (j + 1) y hy fun he => hj (Nat.succ.inj he)

/-- What one handler is still to add is all there is. -/
theorem flatMap_left_of_alone {handlers : List Handler} {h : Nat} {x : Handler}
    (hx : handlers[h]? = some x) (halone : Alone handlers h) (pending : List κ) :
    handlers.flatMap (Handler.left pending) = x.left pending := by
  induction handlers generalizing h with
  | nil => cases hx
  | cons y handlers ih =>
    rw [List.flatMap_cons]
    cases h with
    | zero =>
      cases hx
      have hidle : ∀ z ∈ handlers, z.Idle := by
        intro z hz
        obtain ⟨j, hj⟩ := List.mem_iff_getElem?.mp hz
        exact halone (j + 1) z hj (Nat.succ_ne_zero j)
      rw [flatMap_left_of_idle hidle, List.append_nil]
    | succ h =>
      obtain ⟨hy, hrest⟩ := alone_cons halone
      rw [left_of_idle hy, List.nil_append]
      exact ih hx hrest

def Accounts (s : State κ) (lost : List κ) : Prop :=
  s.received.Perm (s.added ++ (waiting s ++ lost))

def dropped (s : State κ) : Event κ → List κ
  | .candidateSettled h false =>
    match s.handlers[h]? with
    | some (.flushing i) => s.pendingCandidates.drop (i + 1)
    | _ => []
  | _ => []

theorem dropped_ne_nil_iff (s : State κ) (e : Event κ) : dropped s e ≠ [] ↔ Drops s e := by
  constructor
  · intro hne
    cases e with
    | candidateSettled h ok =>
      cases ok with
      | true => exact absurd rfl hne
      | false =>
        rw [dropped] at hne
        split at hne
        · rename_i i hi
          refine ⟨h, i, rfl, hi, ?_⟩
          by_contra hle
          exact hne (List.drop_of_length_le (Nat.le_of_not_lt hle))
        · exact absurd rfl hne
    | _ => exact absurd rfl hne
  · rintro ⟨h, i, rfl, hi, hlt⟩ hnil
    rw [dropped, hi] at hnil
    dsimp only at hnil
    have hlen := congrArg List.length hnil
    rw [List.length_drop, List.length_nil] at hlen
    omega

theorem waiting_of_alone {s : State κ} {h : Nat} {x : Handler} (hdesc : s.hasRemoteDesc = true)
    (hx : s.handlers[h]? = some x) (halone : Alone s.handlers h) :
    waiting s = x.left s.pendingCandidates := by
  rw [waiting, if_pos hdesc, flatMap_left_of_alone hx halone]

theorem waiting_of_idle {s : State κ} (hdesc : s.hasRemoteDesc = true)
    (hidle : ∀ x ∈ s.handlers, x.Idle) : waiting s = [] := by
  rw [waiting, if_pos hdesc, flatMap_left_of_idle hidle]

theorem waiting_of_queueing {s : State κ} (hdesc : s.hasRemoteDesc = false) :
    waiting s = s.pendingCandidates := by
  rw [waiting, hdesc, if_neg Bool.false_ne_true]

theorem alone_set {handlers : List Handler} {h : Nat} (halone : Alone handlers h) (x : Handler) :
    Alone (handlers.set h x) h := by
  intro j y hy hj
  obtain ⟨he, -⟩ | ⟨-, hold⟩ := Table.getElem?_replace hy
  · exact absurd he.symm hj
  · exact halone j y hold hj

/-- Once the one that was not idle is, all are. -/
theorem idle_set {handlers : List Handler} {h : Nat} (halone : Alone handlers h) {x : Handler}
    (hx : x.Idle) : ∀ y ∈ handlers.set h x, y.Idle := by
  intro y hy
  obtain ⟨j, hj⟩ := List.mem_iff_getElem?.mp hy
  obtain ⟨-, rfl⟩ | ⟨hne, hold⟩ := Table.getElem?_replace hj
  · exact hx
  · exact halone j y hold hne.symm

/-- The loop goes on from index `i`, or ends. -/
theorem stage_addPending {s : State κ} {h i : Nat} {lost : List κ} (hdesc : s.hasRemoteDesc = true)
    (hremote : s.remoteDescription = true) (hlt : h < s.handlers.length)
    (halone : Alone s.handlers h)
    (hacc : s.received.Perm (s.added ++ (s.pendingCandidates.drop i ++ lost))) :
    Stage (addPending s h i) ∧ Accounts (addPending s h i) lost := by
  rw [addPending]
  cases hc : s.pendingCandidates[i]? with
  | none =>
    have hidle := idle_set halone (x := .done) trivial
    refine ⟨.complete hdesc hremote hidle, ?_⟩
    have hnone : waiting (flushed s h) = [] := waiting_of_idle hdesc hidle
    rw [List.drop_of_length_le (List.getElem?_eq_none_iff.mp hc)] at hacc
    rw [Accounts, hnone]
    exact hacc
  | some c =>
    obtain ⟨hi, hget⟩ := List.getElem?_eq_some_iff.mp hc
    have hself : (s.handlers.set h (.flushing i))[h]? = some (.flushing i) :=
      List.getElem?_set_self hlt
    have halone' := alone_set halone (.flushing i)
    refine ⟨.flushing h i hdesc hremote hself halone' hi, ?_⟩
    have hrest : waiting (setHandler { s with added := s.added ++ [c] } h (.flushing i)) =
        s.pendingCandidates.drop (i + 1) :=
      waiting_of_alone (s := setHandler { s with added := s.added ++ [c] } h (.flushing i)) hdesc
        hself halone'
    rw [List.drop_eq_getElem_cons hi, hget] at hacc
    rw [Accounts, hrest]
    simpa [setHandler] using hacc

/-- The candidates that were queued behind the rejected one are lost. -/
theorem stage_answerFailed {s : State κ} {h i : Nat} {lost : List κ}
    (hdesc : s.hasRemoteDesc = true) (hremote : s.remoteDescription = true)
    (hhandler : s.handlers[h]? = some (.flushing i)) (halone : Alone s.handlers h)
    (hacc : Accounts s lost) :
    Stage (answerFailed s h) ∧
      Accounts (answerFailed s h) (lost ++ s.pendingCandidates.drop (i + 1)) := by
  have hidle := idle_set halone (x := .done) trivial
  refine ⟨.complete hdesc hremote hidle, ?_⟩
  have hnone : waiting (answerFailed s h) = [] := waiting_of_idle hdesc hidle
  rw [Accounts, waiting_of_alone hdesc hhandler halone] at hacc
  rw [Accounts, hnone]
  exact hacc.trans (List.perm_append_comm.append_left s.added)

theorem flatMap_left_set {handlers : List Handler} {h : Nat} {x y : Handler}
    (hx : handlers[h]? = some x) (hidle : x.Idle) (hy : y.Idle) (pending : List κ) :
    (handlers.set h y).flatMap (Handler.left pending) =
    handlers.flatMap (Handler.left pending) := by
  induction handlers generalizing h with
  | nil => rfl
  | cons z handlers ih =>
    cases h with
    | zero =>
      cases hx
      rw [List.set_cons_zero, List.flatMap_cons, List.flatMap_cons, left_of_idle hidle,
        left_of_idle hy]
    | succ h => rw [List.set_cons_succ, List.flatMap_cons, List.flatMap_cons, ih hx]

/-- A handler that was idle ends. -/
theorem stage_done {s : State κ} {h : Nat} {lost : List κ} (hs : Stage s) (hacc : Accounts s lost)
    {x : Handler} (hx : s.handlers[h]? = some x) (hidle : x.Idle) :
    Stage (setHandler s h .done) ∧ Accounts (setHandler s h .done) lost := by
  have hkeep : ∀ (j : Nat) y, (s.handlers.set h .done)[j]? = some y → y.Idle ∨
      s.handlers[j]? = some y := by
    intro j y hy
    obtain ⟨-, rfl⟩ | ⟨-, hold⟩ := Table.getElem?_replace hy
    · exact .inl trivial
    · exact .inr hold
  have halone : ∀ k, Alone s.handlers k → Alone (s.handlers.set h .done) k := by
    intro k hk j y hy hj
    obtain hdone | hold := hkeep j y hy
    · exact hdone
    · exact hk j y hold hj
  constructor
  · cases hs with
    | queueing hdesc hremote hadded hhandler =>
      refine .queueing hdesc hremote hadded fun k y hy hnot => ?_
      obtain ⟨hset, happly, hk⟩ := hhandler k y ((hkeep k y hy).resolve_left hnot) hnot
      exact ⟨hset, happly, halone k hk⟩
    | flushing k i hdesc hremote hhandler hk hi =>
      have hne : h ≠ k := by
        rintro rfl
        rw [hhandler] at hx
        cases hx
        exact hidle
      exact .flushing k i hdesc hremote ((List.getElem?_set_ne hne).trans hhandler) (halone k hk) hi
    | complete hdesc hremote hall =>
      refine .complete hdesc hremote fun y hy => ?_
      obtain ⟨j, hj⟩ := List.mem_iff_getElem?.mp hy
      obtain hdone | hold := hkeep j y hj
      · exact hdone
      · exact hall y (List.mem_of_getElem? hold)
  · have hwaiting : waiting (setHandler s h .done) = waiting s := by
      rw [waiting, waiting, setHandler, flatMap_left_set hx hidle (y := .done) trivial]
    rw [Accounts, hwaiting]
    exact hacc

/-- A new handler that is idle waits for nothing that is queued. -/
theorem waiting_adding {s : State κ} (hdesc : s.hasRemoteDesc = true) {t : State κ}
    (hdesc' : t.hasRemoteDesc = true) (hpending : t.pendingCandidates = s.pendingCandidates)
    (hhandlers : t.handlers = s.handlers ++ [.adding]) : waiting t = waiting s := by
  rw [waiting, waiting, if_pos hdesc, if_pos hdesc', hpending, hhandlers, List.flatMap_append]
  exact List.append_nil _

theorem alone_adding {handlers : List Handler} {h : Nat} (halone : Alone handlers h) :
    Alone (handlers ++ [.adding]) h := by
  intro j x hx hj
  obtain hold | ⟨-, rfl⟩ := Table.getElem?_concat hx
  · exact halone j x hold hj
  · trivial

theorem accounts_adding {s t : State κ} {lost : List κ} {c : κ} (hacc : Accounts s lost)
    (hdesc : s.hasRemoteDesc = true) (hdesc' : t.hasRemoteDesc = true)
    (hpending : t.pendingCandidates = s.pendingCandidates)
    (hhandlers : t.handlers = s.handlers ++ [.adding]) (hreceived : t.received = s.received ++ [c])
    (hadded : t.added = s.added ++ [c]) : Accounts t lost := by
  rw [Accounts, waiting_adding hdesc hdesc' hpending hhandlers, hreceived, hadded]
  rw [Accounts] at hacc
  have hboth := hacc.append_right [c]
  rw [List.append_assoc] at hboth ⊢
  exact hboth.trans (List.perm_append_comm.append_left s.added)

theorem stage_onMessage {s : State κ} {lost : List κ} (hs : Stage s) (hacc : Accounts s lost)
    (m : Message κ) : Stage (onMessage s m) ∧ Accounts (onMessage s m) lost := by
  cases m with
  | other => exact ⟨hs, hacc⟩
  | answer =>
    rw [onMessage]
    split_ifs with hlate
    · exact ⟨hs, hacc⟩
    · rw [not_or, not_or, Bool.not_eq_true, Bool.not_eq_true] at hlate
      obtain ⟨hdesc, happly, -⟩ := hlate
      cases hs with
      | queueing _ hremote hadded hhandler =>
        have hidle : ∀ (j : Nat) x, s.handlers[j]? = some x → x.Idle := by
          intro j x hx
          by_contra hnot
          rw [(hhandler j x hx hnot).2.1] at happly
          cases happly
        refine ⟨.queueing hdesc hremote hadded fun h x hx hnot => ?_, ?_⟩
        · obtain hold | ⟨hh, rfl⟩ := Table.getElem?_concat hx
          · exact absurd (hidle h x hold) hnot
          · refine ⟨rfl, rfl, fun j y hy hj => ?_⟩
            obtain hold | ⟨hj', -⟩ := Table.getElem?_concat hy
            · exact hidle j y hold
            · exact absurd (hj'.trans hh.symm) hj
        · rw [Accounts, waiting_of_queueing hdesc] at hacc
          rw [Accounts, waiting_of_queueing (by exact hdesc)]
          exact hacc
      | flushing h i hdesc' => rw [hdesc] at hdesc'; cases hdesc'
      | complete hdesc' => rw [hdesc] at hdesc'; cases hdesc'
  | candidate c =>
    rw [onMessage]
    dsimp only
    cases hs with
    | queueing hdesc hremote hadded hhandler =>
      rw [if_pos hdesc]
      refine ⟨.queueing hdesc hremote hadded hhandler, ?_⟩
      rw [Accounts, waiting_of_queueing hdesc, hadded, List.nil_append] at hacc
      rw [Accounts, waiting_of_queueing (by exact hdesc)]
      dsimp only
      rw [hadded, List.nil_append]
      have hboth := hacc.append_right [c]
      rw [List.append_assoc] at hboth ⊢
      exact hboth.trans (List.perm_append_comm.append_left s.pendingCandidates)
    | flushing h i hdesc hremote hhandler halone hi =>
      rw [if_neg (by rw [hdesc]; exact Bool.noConfusion), if_pos hremote]
      refine ⟨.flushing h i hdesc hremote (Table.getElem?_old hhandler)
        (alone_adding halone) hi, ?_⟩
      exact accounts_adding hacc hdesc hdesc rfl rfl rfl rfl
    | complete hdesc hremote hidle =>
      rw [if_neg (by rw [hdesc]; exact Bool.noConfusion), if_pos hremote]
      refine ⟨.complete hdesc hremote fun x hx => ?_,
        accounts_adding hacc hdesc hdesc rfl rfl rfl rfl⟩
      rcases List.mem_append.mp hx with hx | hx
      · exact hidle x hx
      · rw [List.mem_singleton.mp hx]
        trivial

theorem stage_remoteSettled {s : State κ} {lost : List κ} (hs : Stage s) (hacc : Accounts s lost)
    {h : Nat} (hh : s.handlers[h]? = some .settingRemote) (ok : Bool) :
    Stage (remoteSettled s h ok) ∧ Accounts (remoteSettled s h ok) lost := by
  have hlt := (List.getElem?_eq_some_iff.mp hh).1
  cases hs with
  | queueing hdesc hremote hadded hhandler =>
    obtain ⟨-, -, halone⟩ := hhandler h _ hh id
    rw [Accounts, waiting_of_queueing hdesc] at hacc
    cases ok with
    | true => exact stage_addPending rfl rfl hlt halone hacc
    | false =>
      have hidle := idle_set halone (x := .done) trivial
      refine ⟨.queueing hdesc hremote hadded fun j x hx hnot => ?_, ?_⟩
      · exact absurd (hidle x (List.mem_of_getElem? hx)) hnot
      · rw [Accounts, waiting_of_queueing (by exact hdesc)]
        exact hacc
  | flushing k i hdesc hremote hhandler halone hi =>
    have hne : h ≠ k := by
      rintro rfl
      rw [hhandler] at hh
      cases hh
    exact (halone h _ hh hne).elim
  | complete hdesc hremote hidle => exact (hidle _ (List.mem_of_getElem? hh)).elim

/-- A queued candidate has been added or rejected. -/
theorem stage_flushing {s : State κ} {lost : List κ} (hs : Stage s) (hacc : Accounts s lost)
    {h i : Nat} (hh : s.handlers[h]? = some (.flushing i)) (ok : Bool) :
    Stage (if ok then addPending s h (i + 1) else answerFailed s h) ∧
      Accounts (if ok then addPending s h (i + 1) else answerFailed s h)
        (lost ++ dropped s (.candidateSettled h ok)) := by
  have hlt := (List.getElem?_eq_some_iff.mp hh).1
  cases hs with
  | queueing hdesc hremote hadded hhandler => cases (hhandler h _ hh id).1
  | complete hdesc hremote hidle => exact (hidle _ (List.mem_of_getElem? hh)).elim
  | flushing k i' hdesc hremote hhandler halone hi =>
    have hk : h = k := by
      by_contra hne
      exact halone h _ hh hne
    rw [← hk] at halone
    cases ok with
    | true =>
      have hnone : dropped s (.candidateSettled h true) = [] := rfl
      rw [hnone, List.append_nil]
      rw [Accounts, waiting_of_alone hdesc hh halone] at hacc
      exact stage_addPending hdesc hremote hlt halone hacc
    | false =>
      rw [dropped, hh]
      exact stage_answerFailed hdesc hremote hh halone hacc

/-- What each event does to the stage and to the account. -/
theorem stage_step {s t : State κ} {e : Event κ} {lost : List κ} (hs : Stage s)
    (hacc : Accounts s lost) (hstep : step s e = some t) :
    Stage t ∧ Accounts t (lost ++ dropped s e) := by
  cases e with
  | localSettled =>
    cases hstep
    have hnone : dropped s .localSettled = [] := rfl
    rw [hnone, List.append_nil]
    refine ⟨?_, hacc⟩
    cases hs with
    | queueing hdesc hremote hadded hhandler => exact .queueing hdesc hremote hadded hhandler
    | flushing h i hdesc hremote hhandler halone hi =>
      exact .flushing h i hdesc hremote hhandler halone hi
    | complete hdesc hremote hidle => exact .complete hdesc hremote hidle
  | message m =>
    cases hstep
    have hnone : dropped s (.message m) = [] := rfl
    rw [hnone, List.append_nil]
    exact stage_onMessage hs hacc m
  | remoteSettled h ok =>
    obtain ⟨hh, ht⟩ := of_guard hstep
    have hnone : dropped s (.remoteSettled h ok) = [] := rfl
    rw [hnone, List.append_nil, ht]
    exact stage_remoteSettled hs hacc hh ok
  | candidateSettled h ok =>
    rw [step] at hstep
    cases hh : s.handlers[h]? with
    | none =>
      rw [hh] at hstep
      cases hstep
    | some x =>
      rw [hh] at hstep
      cases x with
      | settingRemote => cases hstep
      | done => cases hstep
      | adding =>
        cases hstep
        have hnone : dropped s (.candidateSettled h ok) = [] := by
          cases ok with
          | true => rfl
          | false => rw [dropped, hh]
        rw [hnone, List.append_nil]
        exact stage_done hs hacc hh trivial
      | flushing i =>
        cases hstep
        exact stage_flushing hs hacc hh ok

def Inv (s : State κ) : Prop := Stage s ∧ ∃ lost, Accounts s lost

theorem inv_init : Inv (init : State κ) :=
  ⟨.queueing rfl rfl rfl fun h x hx => (by cases hx), [], List.Perm.refl _⟩

theorem Inv.step {s t : State κ} {e : Event κ} (h : Inv s) (hstep : step s e = some t) : Inv t := by
  obtain ⟨hs, lost, hacc⟩ := h
  obtain ⟨ht, hacc'⟩ := stage_step hs hacc hstep
  exact ⟨ht, _, hacc'⟩

/-- Candidates are missing: they are neither queued nor passed on. -/
def Missing (s : State κ) : Prop := s.added.length + (waiting s).length ≠ s.received.length

theorem Accounts.missing_iff {s : State κ} {lost : List κ} (h : Accounts s lost) :
    Missing s ↔ lost ≠ [] := by
  have hlen := h.length_eq
  rw [List.length_append, List.length_append] at hlen
  rw [Missing, ← List.length_pos_iff]
  omega

/-- Candidates are missing in the end exactly when some event of the run has dropped them. -/
theorem missing_iff {s : State κ} {events : List (Event κ)} (hrun : run step init events = some s) :
    Missing s ↔ Sometime step Drops init events := by
  have hstep : ∀ (s : State κ) e t, Inv s → step s e = some t →
      Inv t ∧ (Missing t ↔ Missing s ∨ Drops s e) := by
    intro s e t hs hst
    refine ⟨hs.step hst, ?_⟩
    obtain ⟨hstage, lost, hacc⟩ := hs
    rw [(stage_step hstage hacc hst).2.missing_iff, hacc.missing_iff, ← dropped_ne_nil_iff, ne_eq,
      List.append_eq_nil_iff, not_and_or]
  rw [sometime_iff hstep inv_init hrun]
  exact or_iff_right fun h => h rfl

theorem early {t : State κ} (h : Inv t) (hremote : t.remoteDescription = false) : t.added = [] := by
  cases h.1 with
  | queueing _ _ hadded => exact hadded
  | flushing _ _ _ hset => rw [hremote] at hset; cases hset
  | complete _ hset => rw [hremote] at hset; cases hset

/-- Once the answer has been applied and all handlers have ended, each candidate has been passed to
`addIceCandidate` once, and none before the remote description was set, exactly when no queued
candidate was rejected while others were queued behind it. -/
theorem applied_iff {s : State κ} {events : List (Event κ)} (hrun : run step init events = some s)
    (hfin : Finished s) : Applied events s ↔ ¬ Sometime step Drops init events := by
  have hreach : ∀ es (t : State κ), run step init es = some t → Inv t := fun es t ht =>
    inv_of_reachable (fun _ _ _ hs hst => hs.step hst) inv_init ⟨es, ht⟩
  have hidle : ∀ x ∈ s.handlers, x.Idle := by
    intro x hx
    rw [hfin.2 x hx]
    trivial
  have hnone : waiting s = [] := waiting_of_idle hfin.1 hidle
  rw [← missing_iff hrun]
  constructor
  · intro h hmissing
    apply hmissing
    rw [hnone, h.once.length_eq]
    rfl
  · intro hmissing
    obtain ⟨-, lost, hacc⟩ := hreach events s hrun
    have hlost : lost = [] := by
      by_contra hne
      exact hmissing (hacc.missing_iff.mpr hne)
    rw [Accounts, hnone, hlost, List.append_nil, List.append_nil] at hacc
    exact ⟨hacc.symm, fun pre t _ ht hremote => early (hreach pre t ht) hremote⟩

/-- Two candidates are queued, and one that comes during the loop over them is rejected; a second
answer is ignored. -/
def overlapping : List (Event Nat) :=
  [.localSettled, .message (.candidate 1), .message .answer, .message (.candidate 2),
    .message .answer, .remoteSettled 0 true, .message (.candidate 3), .candidateSettled 1 false,
    .candidateSettled 0 true, .candidateSettled 0 true]

theorem applied_iff_overlapping :
    ∃ s, run step init overlapping = some s ∧ s.added = [1, 3, 2] ∧ Applied overlapping s := by
  refine ⟨_, rfl, rfl, (applied_iff rfl ⟨rfl, by decide⟩).mpr fun hdrops => ?_⟩
  exact (missing_iff rfl).mpr hdrops rfl

/-- The browser rejects the first of two queued candidates; the second is never passed on. -/
theorem second_candidate_dropped :
    ∃ s, run step (init : State Nat)
        [.localSettled, .message (.candidate 1), .message (.candidate 2), .message .answer,
          .remoteSettled 0 true, .candidateSettled 0 false] = some s ∧
      Finished s ∧ s.received = [1, 2] ∧ s.added = [1] ∧
      ¬ Applied [.localSettled, .message (.candidate 1), .message (.candidate 2), .message .answer,
          .remoteSettled 0 true, .candidateSettled 0 false] s := by
  refine ⟨_, rfl, ⟨rfl, by decide⟩, rfl, rfl, fun h => ?_⟩
  have hlen := h.once.length_eq
  exact absurd hlen (by decide)

end WyzeCams.Candidates
