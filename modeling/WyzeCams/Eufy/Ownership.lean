import WyzeCams.Eufy.Live

/-! Which viewer owns the entry of `sessions`, over every interleaving. -/
namespace WyzeCams.Eufy
open Function EventMachine

/-- The viewer on whose behalf `sessions` holds an entry for `sn`. -/
def holder (s : State) (sn : Serial) : Option Nat := (s.sessions sn).map Session.ws

/-- The reasons for which the entry of viewer `v` for `sn` may go: its own socket closed, its
own start failed, or a viewer that connected later takes over. -/
def EndedBy (s : State) (sn : Serial) (v : Nat) : Event → Prop
  | .viewerClosed w => w = v
  | .connectSettled w ok => w = v ∧ ok = false
  | .startSettled w ok => w = v ∧ ok = false
  | .viewerConnects sn' => sn' = sn ∧ v < s.viewers.length
  | .stopSettled w => v < w ∧ (s.viewers[w]?).map Viewer.sn = some sn
  | _ => False

def KeepsOwner (s : State) (e : Event) (t : State) : Prop :=
  ∀ sn v, holder s sn = some v → holder t sn ≠ some v → EndedBy s sn v e

def HolderOf (s : State) (v : Nat) (p : Nat → Prop) : Prop :=
  ∀ viewer w, s.viewers[v]? = some viewer → holder s viewer.sn = some w → p w

/-- When a viewer's socket closes or its start fails, the entry of its camera is its own or
absent; when a viewer registers after the takeover wait, no later viewer holds the entry. -/
def OwnEntry (s : State) : Event → Prop
  | .viewerClosed v => HolderOf s v (· = v)
  | .connectSettled v ok => ok = false → HolderOf s v (· = v)
  | .startSettled v ok => ok = false → HolderOf s v (· = v)
  | .stopSettled v => HolderOf s v (· ≤ v)
  | _ => True

def Registered (s : State) : Prop :=
  ∀ sn v, holder s sn = some v →
    ∃ viewer, s.viewers[v]? = some viewer ∧ viewer.sn = sn ∧ viewer.phase ≠ .stopping

theorem holder_of_sessions {s t : State} (h : t.sessions = s.sessions) : holder t = holder s := by
  funext sn
  simp [holder, h]

theorem holder_update {s t : State} {sn : Serial} (o : Option Session)
    (h : t.sessions = update s.sessions sn o) :
    holder t = update (holder s) sn (o.map Session.ws) := by
  funext sn'
  by_cases he : sn' = sn
  · subst he
    simp [holder, h]
  · simp [holder, h, he]

theorem holder_livestreamStart (s : State) (sn : Serial) :
    holder (livestreamStart s sn) = holder s := by
  unfold livestreamStart
  cases hp : s.pendingSnapshots sn with
  | some g => rfl
  | none =>
    cases hs : s.sessions sn with
    | none => rfl
    | some session =>
      have h : holder (startFfmpeg s sn session) = update (holder s) sn (some session.ws) :=
        holder_update (some { session with ffmpeg := some s.children.length }) rfl
      simp only [h]
      exact update_eq_self_iff.mpr (by simp [holder, hs])

theorem holder_startSession (s : State) (sn : Serial) :
    holder (startSession s sn) = update (holder s) sn none :=
  holder_update none (by simp [startSession])

theorem holder_registerSession (s : State) (v : Nat) (viewer : Viewer) :
    holder (registerSession s v viewer) = update (holder s) viewer.sn (some v) :=
  holder_update (some ⟨v, none⟩) rfl

theorem holder_startFailed (s : State) (v : Nat) (viewer : Viewer) :
    holder (startFailed s v viewer) = update (holder s) viewer.sn none :=
  holder_update none rfl

theorem holder_viewerClosed (s : State) (v : Nat) (viewer : Viewer) :
    holder (viewerClosed s v viewer) = update (holder s) viewer.sn none :=
  holder_update none (by simp [viewerClosed])

/-- What one event does to the owners: the entry of one camera goes, or is replaced by the
registering viewer, or nothing happens to any entry. -/
inductive OwnerEffect (s : State) : Event → (Serial → Option Nat) → Prop where
  | connects (sn : Serial) : OwnerEffect s (.viewerConnects sn) (update (holder s) sn none)
  | registers {v : Nat} {viewer : Viewer} (hv : s.viewers[v]? = some viewer)
      (hp : viewer.phase = .stopping) :
      OwnerEffect s (.stopSettled v) (update (holder s) viewer.sn (some v))
  | ends {v : Nat} {viewer : Viewer} (e : Event) (hv : s.viewers[v]? = some viewer)
      (hown : OwnEntry s e ↔ HolderOf s v (· = v)) (hend : ∀ sn w, EndedBy s sn w e ↔ v = w) :
      OwnerEffect s e (update (holder s) viewer.sn none)
  | same (e : Event) (hown : OwnEntry s e) : OwnerEffect s e (holder s)

theorem ownerEffect {s t : State} {e : Event} (h : step s e = some t) :
    OwnerEffect s e (holder t) := by
  cases transition_of_step h with
  | viewerConnects sn =>
    rw [holder_startSession]
    exact .connects sn
  | registers hv hp =>
    rw [holder_registerSession]
    exact .registers hv hp
  | connectFails hv hp =>
    rw [holder_startFailed]
    exact .ends _ hv (by simp [OwnEntry]) (by simp [EndedBy])
  | startFails hv hp =>
    rw [holder_startFailed]
    exact .ends _ hv (by simp [OwnEntry]) (by simp [EndedBy])
  | closes hv ho =>
    rw [holder_viewerClosed]
    exact .ends _ hv Iff.rfl (fun _ _ => Iff.rfl)
  | refresh sn =>
    rw [holder_of_sessions (refreshSnapshot_sessions s sn)]
    exact .same _ trivial
  | snapshotStarted hc hr ok =>
    rw [holder_of_sessions (snapshotStarted_sessions s _ _ _ ok)]
    exact .same _ trivial
  | livestreamStart sn =>
    rw [holder_livestreamStart]
    exact .same _ trivial
  | connects hv hp => exact .same _ (by simp [OwnEntry])
  | starts hv hp => exact .same _ (by simp [OwnEntry])
  | cloud | peerCloses | snapshotTimer | captureSettled | captureCleanup | ffmpegExit =>
    exact .same _ trivial

/-- Viewers are only added at the end; they keep their camera and never return to the
takeover wait. -/
theorem viewers_step {s t : State} {e : Event} (h : step s e = some t) {v : Nat}
    {viewer : Viewer} (hv : s.viewers[v]? = some viewer) :
    ∃ viewer', t.viewers[v]? = some viewer' ∧ viewer'.sn = viewer.sn ∧
      (viewer.phase ≠ .stopping → viewer'.phase ≠ .stopping) := by
  have hset : ∀ (w : Nat) (x y : Viewer), s.viewers[w]? = some x → y.sn = x.sn →
      (x.phase ≠ .stopping → y.phase ≠ .stopping) →
      ∃ viewer', (s.viewers.set w y)[v]? = some viewer' ∧ viewer'.sn = viewer.sn ∧
        (viewer.phase ≠ .stopping → viewer'.phase ≠ .stopping) := by
    intro w x y hw hsn hph
    by_cases he : w = v
    · subst he
      rw [hw] at hv
      cases hv
      exact ⟨y, by simp [(List.getElem?_eq_some_iff.mp hw).1], hsn, hph⟩
    · exact ⟨viewer, by simp [he, hv], rfl, id⟩
  have hlt : v < s.viewers.length := (List.getElem?_eq_some_iff.mp hv).1
  cases transition_of_step h with
  | viewerConnects sn =>
    exact ⟨viewer, by simp [startSession, List.getElem?_append_left hlt, hv], rfl, id⟩
  | registers hw hp => exact hset _ _ _ hw rfl (by simp)
  | connects hw hp => exact hset _ _ _ hw rfl (by simp)
  | connectFails hw hp => exact hset _ _ _ hw rfl (by simp)
  | starts hw hp => exact hset _ _ _ hw rfl (by simp)
  | startFails hw hp => exact hset _ _ _ hw rfl (by simp)
  | peerCloses hw ho => exact hset _ _ _ hw rfl id
  | closes hw ho =>
    rw [viewerClosed, stopSession_viewers]
    exact hset _ _ _ hw rfl id
  | _ => exact ⟨viewer, by simpa using hv, rfl, id⟩

theorem registered_step {s t : State} {e : Event} (hi : Registered s) (h : step s e = some t) :
    Registered t := by
  have hcarry : ∀ sn v, holder s sn = some v →
      ∃ viewer, t.viewers[v]? = some viewer ∧ viewer.sn = sn ∧ viewer.phase ≠ .stopping := by
    intro sn v hv
    obtain ⟨viewer, hw, hsn, hph⟩ := hi sn v hv
    obtain ⟨viewer', hw', hsn', hph'⟩ := viewers_step h hw
    exact ⟨viewer', hw', hsn'.trans hsn, hph' hph⟩
  intro sn v hv
  have heff := ownerEffect h
  generalize holder t = o at heff hv
  cases heff with
  | same e hown => exact hcarry sn v hv
  | connects sn' =>
    by_cases he : sn = sn'
    · simp [he] at hv
    · exact hcarry sn v (by simpa [he] using hv)
  | @ends _ viewer e hw hown hend =>
    by_cases he : sn = viewer.sn
    · simp [he] at hv
    · exact hcarry sn v (by simpa [he] using hv)
  | @registers w viewer hw hp =>
    by_cases he : sn = viewer.sn
    · subst he
      simp only [update_self, Option.some.injEq] at hv
      subst hv
      cases transition_of_step h with
      | registers hw' hp' =>
        rw [hw] at hw'
        cases hw'
        have hlt : w < s.viewers.length := (List.getElem?_eq_some_iff.mp hw).1
        exact ⟨{ viewer with phase := .connecting }, by simp [registerSession, hlt], rfl, by simp⟩
    · exact hcarry sn v (by simpa [he] using hv)

/-- One event respects ownership exactly when it meets `OwnEntry`. -/
theorem keepsOwner_iff {s t : State} {e : Event} (hi : Registered s) (h : step s e = some t) :
    KeepsOwner s e t ↔ OwnEntry s e := by
  have heff := ownerEffect h
  unfold KeepsOwner
  generalize holder t = o at heff
  cases heff with
  | same e hown => exact iff_of_true (fun sn v hv hne => absurd hv hne) hown
  | connects sn =>
    refine iff_of_true (fun sn' v hv hne => ?_) trivial
    by_cases he : sn' = sn
    · obtain ⟨viewer, hw, -, -⟩ := hi sn' v hv
      exact ⟨he.symm, (List.getElem?_eq_some_iff.mp hw).1⟩
    · simp [he, hv] at hne
  | @ends v viewer e hw hown hend =>
    rw [hown]
    constructor
    · intro hk x w hx hh
      rw [hw] at hx
      cases hx
      exact ((hend _ _).mp (hk viewer.sn w hh (by simp))).symm
    · intro ho sn w hh hne
      by_cases he : sn = viewer.sn
      · subst he
        exact (hend _ _).mpr (ho viewer w hw hh).symm
      · simp [he, hh] at hne
  | @registers v viewer hw hp =>
    constructor
    · intro hk x w hx hh
      rw [hw] at hx
      cases hx
      by_cases he : v = w
      · omega
      · have hlt : w < v := (hk viewer.sn w hh (by simpa using he)).1
        omega
    · intro ho sn w hh hne
      by_cases he : sn = viewer.sn
      · subst he
        -- the registering viewer itself is still in the takeover wait
        have hwv : w ≠ v := by
          rintro rfl
          obtain ⟨x, hx, -, hph⟩ := hi _ _ hh
          rw [hw] at hx
          cases hx
          exact hph hp
        have hle : w ≤ v := ho viewer w hw hh
        exact ⟨by omega, by simp [hw]⟩
      · simp [he, hh] at hne

theorem registered_init : Registered init := by
  intro sn v hv
  simp [holder, init] at hv

/-- Over every interleaving, the entry of a viewer ends only for its own reasons exactly when
every event of the run meets `OwnEntry`. -/
theorem ownership_along_iff (es : List Event) :
    Along step KeepsOwner init es ↔ Along step (fun s e _ => OwnEntry s e) init es :=
  along_iff (Q := fun s e _ => OwnEntry s e) (fun _ _ _ => keepsOwner_iff)
    (fun _ _ _ hi h _ => registered_step hi h) registered_init es

def takeover : List Event :=
  [.viewerConnects "T8010", .stopSettled 0, .connectSettled 0 true, .startSettled 0 true,
   .viewerConnects "T8010", .stopSettled 1]

/-- The close event of the replaced viewer ends the session of the viewer that replaced it. -/
theorem staleClose_ends_session :
    ¬ Along step KeepsOwner init (takeover ++ [.viewerClosed 0]) := by
  intro h
  have hlast := along_last rfl rfl h
  have hend := hlast "T8010" 1 (by decide) (by decide)
  exact absurd hend (by decide : ¬ (0 = 1))

end WyzeCams.Eufy
