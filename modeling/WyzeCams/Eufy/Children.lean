import WyzeCams.Eufy.Live
import WyzeCams.Lib.Table

/-! The FFmpeg children of live views: which session refers to a child that still runs. -/
namespace WyzeCams.Eufy
open Function EventMachine Table

def ffmpegOf (s : State) (sn : Serial) : Option Nat := (s.sessions sn).bind Session.ffmpeg

/-- Every child that has neither exited nor been killed is the `ffmpeg` of exactly one stored
session. -/
def NoLeak (s : State) : Prop :=
  ∀ c : Nat, s.children[c]? = some Child.running → ∃! sn, ffmpegOf s sn = some c

/-- The session stored for `sn` refers to a child that still runs. -/
def Streams (s : State) (sn : Serial) : Prop :=
  ∃ c : Nat, ffmpegOf s sn = some c ∧ s.children[c]? = some Child.running

/-- The camera of viewer `v` has no session with a running child. -/
def IdleFor (s : State) (v : Nat) : Prop :=
  ∀ viewer, s.viewers[v]? = some viewer → ¬ Streams s viewer.sn

/-- A start event reaches a session without a running child; and when a viewer registers or its
start fails, the entry of its camera has none either. -/
def ReplacesIdle (s : State) : Event → Prop
  | .livestreamStart sn => s.pendingSnapshots sn = none → ¬ Streams s sn
  | .stopSettled v => IdleFor s v
  | .connectSettled v ok => ok = false → IdleFor s v
  | .startSettled v ok => ok = false → IdleFor s v
  | _ => True

structure Linked (s : State) : Prop where
  known : ∀ sn c, ffmpegOf s sn = some c → c < s.children.length
  unique : ∀ sn sn' c, ffmpegOf s sn = some c → ffmpegOf s sn' = some c → sn = sn'

theorem linked_init : Linked init := by
  constructor <;> simp [init, ffmpegOf]

theorem noLeak_init : NoLeak init := by
  simp [NoLeak, init]

theorem Linked.existsUnique {s : State} (hs : Linked s) {sn : Serial} {c : Nat}
    (h : ffmpegOf s sn = some c) : ∃! sn, ffmpegOf s sn = some c :=
  ⟨sn, h, fun sn' h' => hs.unique sn' sn c h' h⟩

inductive ChildEffect (s t : State) (e : Event) : Prop where
  | same (hf : ffmpegOf t = ffmpegOf s) (hc : t.children = s.children) (hcond : ReplacesIdle s e)
  | killed (sn : Serial) (hf : ffmpegOf t = update (ffmpegOf s) sn none)
      (hc : t.children = match ffmpegOf s sn with
        | none => s.children
        | some c => s.children.set c .killed) (hcond : ReplacesIdle s e)
  | dropped (sn : Serial) (hf : ffmpegOf t = update (ffmpegOf s) sn none)
      (hc : t.children = s.children) (hcond : ReplacesIdle s e ↔ ¬ Streams s sn)
  | spawned (sn : Serial) (hf : ffmpegOf t = update (ffmpegOf s) sn (some s.children.length))
      (hc : t.children = s.children ++ [.running]) (hcond : ReplacesIdle s e ↔ ¬ Streams s sn)
  | exited (c : Nat) (hf : ffmpegOf t = ffmpegOf s) (hc : t.children = s.children.set c .exited)
      (hcond : ReplacesIdle s e)

theorem ffmpegOf_of_sessions {s t : State} (h : t.sessions = s.sessions) :
    ffmpegOf t = ffmpegOf s := by
  funext sn
  rw [ffmpegOf, ffmpegOf, h]

theorem ffmpegOf_update {s t : State} {sn : Serial} (o : Option Session)
    (h : t.sessions = update s.sessions sn o) :
    ffmpegOf t = update (ffmpegOf s) sn (o.bind Session.ffmpeg) := by
  funext sn'
  by_cases he : sn' = sn
  · rw [he, update_self, ffmpegOf, h, update_self]
  · rw [update_of_ne he, ffmpegOf, h, update_of_ne he, ffmpegOf]

theorem children_stopSession (s : State) (sn : Serial) :
    (stopSession s sn).children = match ffmpegOf s sn with
      | none => s.children
      | some c => s.children.set c .killed := by
  unfold stopSession ffmpegOf
  cases s.sessions sn with
  | none => rfl
  | some session => cases h : session.ffmpeg <;> simp [stopStationLivestream, kill, h]

theorem children_refreshSnapshot (s : State) (sn : Serial) :
    (refreshSnapshot s sn).children = s.children := by
  unfold refreshSnapshot
  split_ifs
  · rfl
  · rfl
  · split <;> rfl

theorem idleFor_iff {s : State} {v : Nat} {viewer : Viewer} (hv : s.viewers[v]? = some viewer) :
    IdleFor s v ↔ ¬ Streams s viewer.sn := by
  constructor
  · exact fun h => h viewer hv
  · intro h x hx
    rw [hv] at hx
    cases hx
    exact h

theorem childEffect_livestreamStart (s : State) (sn : Serial) :
    ChildEffect s (livestreamStart s sn) (.livestreamStart sn) := by
  unfold livestreamStart
  cases hp : s.pendingSnapshots sn with
  | some g => exact .same rfl rfl fun h => by simp [hp] at h
  | none =>
    cases hs : s.sessions sn with
    | none =>
      refine .same rfl rfl fun _ => ?_
      rintro ⟨c, hc, -⟩
      simp [ffmpegOf, hs] at hc
    | some session =>
      have hf : ffmpegOf (startFfmpeg s sn session) =
          update (ffmpegOf s) sn (some s.children.length) :=
        ffmpegOf_update (some { session with ffmpeg := some s.children.length }) rfl
      exact .spawned sn hf rfl ⟨fun h => h hp, fun h _ => h⟩

theorem childEffect {s t : State} {e : Event} (h : step s e = some t) : ChildEffect s t e := by
  cases transition_of_step h with
  | viewerConnects sn =>
    exact .killed sn (ffmpegOf_update none (by simp [startSession])) (children_stopSession s sn)
      trivial
  | closes hv ho =>
    exact .killed _ (ffmpegOf_update none (by simp [viewerClosed])) (children_stopSession _ _)
      trivial
  | registers hv hp => exact .dropped _ (ffmpegOf_update (some ⟨_, none⟩) rfl) rfl (idleFor_iff hv)
  | connectFails hv hp =>
    refine .dropped _ (ffmpegOf_update none rfl) rfl ?_
    rw [← idleFor_iff hv]
    exact forall_prop_of_true rfl
  | startFails hv hp =>
    refine .dropped _ (ffmpegOf_update none rfl) rfl ?_
    rw [← idleFor_iff hv]
    exact forall_prop_of_true rfl
  | connects hv hp => exact .same rfl rfl fun h => by cases h
  | starts hv hp => exact .same rfl rfl fun h => by cases h
  | livestreamStart sn => exact childEffect_livestreamStart s sn
  | refresh sn =>
    exact .same (ffmpegOf_of_sessions (refreshSnapshot_sessions s sn))
      (children_refreshSnapshot s sn) trivial
  | snapshotStarted hc hr ok => cases ok <;> exact .same rfl rfl trivial
  | ffmpegExit hc => exact .exited _ rfl rfl trivial
  | _ => exact .same rfl rfl trivial

/-- References that are kept or dropped stay linked. -/
theorem Linked.shrink {s t : State} (hs : Linked s)
    (hf : ∀ sn c, ffmpegOf t sn = some c → ffmpegOf s sn = some c)
    (hlen : s.children.length ≤ t.children.length) : Linked t := by
  constructor
  · intro sn c hc
    have hlt := hs.known sn c (hf sn c hc)
    omega
  · exact fun sn sn' c h h' => hs.unique sn sn' c (hf sn c h) (hf sn' c h')

theorem of_update_none {f : Serial → Option Nat} {sn sn' : Serial} {c : Nat}
    (h : update f sn none sn' = some c) : sn' ≠ sn ∧ f sn' = some c := by
  by_cases he : sn' = sn
  · rw [he, update_self] at h
    cases h
  · rw [update_of_ne he] at h
    exact ⟨he, h⟩

/-- A new child has one reference. -/
theorem Linked.spawn {s t : State} (hs : Linked s) {sn : Serial}
    (hf : ffmpegOf t = update (ffmpegOf s) sn (some s.children.length))
    (hc : t.children = s.children ++ [.running]) : Linked t := by
  have hcase : ∀ sn' c, ffmpegOf t sn' = some c →
      sn' = sn ∧ c = s.children.length ∨ ffmpegOf s sn' = some c ∧ c < s.children.length := by
    intro sn' c h
    rw [hf] at h
    by_cases he : sn' = sn
    · rw [he, update_self] at h
      exact .inl ⟨he, (Option.some.inj h).symm⟩
    · rw [update_of_ne he] at h
      exact .inr ⟨h, hs.known sn' c h⟩
  constructor
  · intro sn' c h
    rw [hc, List.length_append, List.length_singleton]
    obtain ⟨-, hlen⟩ | ⟨-, hlt⟩ := hcase sn' c h <;> omega
  · intro sn₁ sn₂ c h₁ h₂
    obtain ⟨he₁, hl₁⟩ | ⟨h₁, hl₁⟩ := hcase sn₁ c h₁ <;>
      obtain ⟨he₂, hl₂⟩ | ⟨h₂, hl₂⟩ := hcase sn₂ c h₂
    · rw [he₁, he₂]
    · omega
    · omega
    · exact hs.unique sn₁ sn₂ c h₁ h₂

theorem Linked.step {s t : State} {e : Event} (hs : Linked s) (h : step s e = some t) :
    Linked t := by
  cases childEffect h with
  | same hf hc =>
    exact hs.shrink (fun sn c h => by rwa [hf] at h) (by simp [hc])
  | killed sn hf hc =>
    refine hs.shrink (fun sn' c h => (of_update_none (by rwa [hf] at h)).2) ?_
    rw [hc]
    cases ffmpegOf s sn with
    | none => exact Nat.le_refl _
    | some c => exact Nat.le_of_eq List.length_set.symm
  | dropped sn hf hc =>
    exact hs.shrink (fun sn' c h => (of_update_none (by rwa [hf] at h)).2) (by simp [hc])
  | spawned sn hf hc => exact hs.spawn hf hc
  | exited c hf hc =>
    exact hs.shrink (fun sn c h => by rwa [hf] at h) (by simp [hc])

/-- A reference is dropped without its child: nothing leaks exactly when the child does not
run. -/
theorem noLeak_dropped {s t : State} (hs : Linked s) (hn : NoLeak s) {sn : Serial}
    (hf : ffmpegOf t = update (ffmpegOf s) sn none) (hc : t.children = s.children) (ht : Linked t) :
    NoLeak t ↔ ¬ Streams s sn := by
  constructor
  · rintro h ⟨c, hcs, hrun⟩
    obtain ⟨sn', hsn', -⟩ := h c (by rwa [hc])
    rw [hf] at hsn'
    obtain ⟨hne, hsn'⟩ := of_update_none hsn'
    exact hne (hs.unique sn' sn c hsn' hcs)
  · intro hidle c hrun
    rw [hc] at hrun
    obtain ⟨sn', hsn', -⟩ := hn c hrun
    have hne : sn' ≠ sn := by
      intro he
      rw [he] at hsn'
      exact hidle ⟨c, hsn', hrun⟩
    refine ht.existsUnique (?_ : ffmpegOf t sn' = some c)
    rw [hf, update_of_ne hne]
    exact hsn'

theorem noLeak_spawned {s t : State} (hs : Linked s) (hn : NoLeak s) {sn : Serial}
    (hf : ffmpegOf t = update (ffmpegOf s) sn (some s.children.length))
    (hc : t.children = s.children ++ [.running]) (ht : Linked t) :
    NoLeak t ↔ ¬ Streams s sn := by
  constructor
  · rintro h ⟨c, hcs, hrun⟩
    have hlt := hs.known sn c hcs
    obtain ⟨sn', hsn', -⟩ := h c (by rw [hc]; exact getElem?_old hrun)
    rw [hf] at hsn'
    by_cases he : sn' = sn
    · rw [he, update_self] at hsn'
      have hlen := Option.some.inj hsn'
      omega
    · rw [update_of_ne he] at hsn'
      exact he (hs.unique sn' sn c hsn' hcs)
  · intro hidle c hrun
    rw [hc] at hrun
    obtain hrun | ⟨hlen, -⟩ := getElem?_concat hrun
    · obtain ⟨sn', hsn', -⟩ := hn c hrun
      have hne : sn' ≠ sn := by
        intro he
        rw [he] at hsn'
        exact hidle ⟨c, hsn', hrun⟩
      refine ht.existsUnique (?_ : ffmpegOf t sn' = some c)
      rw [hf, update_of_ne hne]
      exact hsn'
    · refine ht.existsUnique (?_ : ffmpegOf t sn = some c)
      rw [hf, update_self, hlen]

/-- `stopSession` kills the child whose reference it drops. -/
theorem noLeak_killed {s t : State} (hn : NoLeak s) {sn : Serial}
    (hf : ffmpegOf t = update (ffmpegOf s) sn none)
    (hc : t.children = match ffmpegOf s sn with
      | none => s.children
      | some c => s.children.set c .killed) (ht : Linked t) : NoLeak t := by
  intro c hrun
  have hold : s.children[c]? = some Child.running ∧ ffmpegOf s sn ≠ some c := by
    rw [hc] at hrun
    cases hk : ffmpegOf s sn with
    | none =>
      rw [hk] at hrun
      exact ⟨hrun, by simp⟩
    | some k =>
      rw [hk] at hrun
      obtain ⟨-, hbad⟩ | ⟨hne, hrun⟩ := getElem?_replace hrun
      · cases hbad
      · exact ⟨hrun, by simpa using hne⟩
  obtain ⟨sn', hsn', -⟩ := hn c hold.1
  have hne : sn' ≠ sn := by
    intro he
    rw [he] at hsn'
    exact hold.2 hsn'
  refine ht.existsUnique (?_ : ffmpegOf t sn' = some c)
  rw [hf, update_of_ne hne]
  exact hsn'

/-- One event leaks no child exactly when it meets `ReplacesIdle`. -/
theorem noLeak_iff {s t : State} {e : Event} (hs : Linked s) (hn : NoLeak s)
    (h : step s e = some t) : NoLeak t ↔ ReplacesIdle s e := by
  have ht := hs.step h
  cases childEffect h with
  | same hf hc hcond =>
    refine iff_of_true (fun c hrun => ?_) hcond
    rw [hf]
    exact hn c (by rwa [hc] at hrun)
  | killed sn hf hc hcond => exact iff_of_true (noLeak_killed hn hf hc ht) hcond
  | dropped sn hf hc hcond => rw [hcond, noLeak_dropped hs hn hf hc ht]
  | spawned sn hf hc hcond => rw [hcond, noLeak_spawned hs hn hf hc ht]
  | exited c hf hc hcond =>
    refine iff_of_true (fun c' hrun => ?_) hcond
    rw [hc] at hrun
    obtain ⟨-, hbad⟩ | ⟨-, hrun⟩ := getElem?_replace hrun
    · cases hbad
    · rw [hf]
      exact hn c' hrun

/-- Along every interleaving each running child is the `ffmpeg` of exactly one stored session,
exactly when every event of the run meets `ReplacesIdle`. -/
theorem noLeak_along_iff (es : List Event) :
    Along step (fun _ _ t => NoLeak t) init es ↔
      Along step (fun s e _ => ReplacesIdle s e) init es := by
  refine along_iff (P := fun _ _ t => NoLeak t) (Q := fun s e _ => ReplacesIdle s e)
    (fun s e t (hs : Linked s ∧ NoLeak s) h => noLeak_iff hs.1 hs.2 h) ?_
    ⟨linked_init, noLeak_init⟩ es
  exact fun s e t hs h hc => ⟨hs.1.step h, (noLeak_iff hs.1 hs.2 h).mpr hc⟩

def streaming : List Event :=
  [.viewerConnects "T8010", .stopSettled 0, .connectSettled 0 true, .startSettled 0 true,
   .livestreamStart "T8010"]

/-- The start event is delivered a second time: the session refers to the new child only. -/
theorem second_start_leaks :
    ¬ Along step (fun _ _ t => NoLeak t) init (streaming ++ [.livestreamStart "T8010"]) := by
  intro h
  have hlast := along_last rfl rfl h
  obtain ⟨sn, hsn, -⟩ := hlast 0 (by decide)
  by_cases he : sn = "T8010"
  · rw [he] at hsn
    exact absurd hsn (by decide)
  · simp [ffmpegOf, livestreamStart, startFfmpeg, registerSession, startSession, stopSession,
      init, he] at hsn

end WyzeCams.Eufy
