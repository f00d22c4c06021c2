import WyzeCams.Lib.Async.Wp
import WyzeCams.Lib.Machine

/-! Several calls on one shared state: a main call and those it left in the background, resumed
in any order, while code outside moves the state in between. -/
namespace Async
open EventMachine
variable {S : Sig} {α ι : Type}

inductive Thread (S : Sig) (α : Type) : Type 1 where
  | waiting (op : S.Op) (k : S.Ans op → Prog S α)
  | done (r : Except S.Err α)
  | stuck

structure Advance (S : Sig) (α : Type) where
  trace : List (Item S)
  state : S.State
  thread : Thread S α
  spawned : List (Thread S Unit)

def Advance.after (x : Item S) (a : Advance S α) : Advance S α := { a with trace := x :: a.trace }

def advance {α : Type} : Prog S α → S.State → Advance S α
  | .ret a, s => ⟨[], s, .done (.ok a), []⟩
  | .raise e, s => ⟨[], s, .done (.error e), []⟩
  | .read k, s => advance (k s) s
  | .write t k, _ => advance k t
  | .mark m k, s => (advance k s).after (.mark m)
  | .await op k, s => ⟨[.ask op], s, .waiting op k, []⟩
  | .detach op p k, s =>
    let a := advance k s
    ⟨.ask op :: a.trace, a.state, a.thread, .waiting op p :: a.spawned⟩
  | .stuck, s => ⟨[], s, .stuck, []⟩

structure Pool (S : Sig) (α : Type) where
  state : S.State
  trace : List (Item S)
  main : Thread S α
  background : List (Thread S Unit)

def Pool.start (p : Prog S α) (s : S.State) : Pool S α :=
  let a := advance p s
  ⟨a.state, a.trace, a.thread, a.spawned⟩

/-- One step: the operation of a call is answered, or the code outside makes a move. `f` answers
whatever operation the call is suspended at. -/
inductive Move (S : Sig) (ι : Type) where
  | main (f : ∀ op, S.Ans op)
  | background (i : Nat) (f : ∀ op, S.Ans op)
  | outside (i : ι)

def Pool.resumeMain (p : Pool S α) (op : S.Op) (a : S.Ans op) (k : S.Ans op → Prog S α) :
    Pool S α :=
  let r := advance (k a) p.state
  ⟨r.state, p.trace ++ .answer op a :: r.trace, r.thread, p.background ++ r.spawned⟩

def Pool.resumeBackground (p : Pool S α) (i : Nat) (op : S.Op) (a : S.Ans op)
    (k : S.Ans op → Prog S Unit) : Pool S α :=
  let r := advance (k a) p.state
  ⟨r.state, p.trace ++ .answer op a :: r.trace, p.main, p.background.set i r.thread ++ r.spawned⟩

def Pool.step (ext : ι → S.State → Option S.State) (p : Pool S α) : Move S ι → Option (Pool S α)
  | .main f => match p.main with
    | .waiting op k => some (p.resumeMain op (f op) k)
    | _ => none
  | .background i f => match p.background[i]? with
    | some (.waiting op k) => some (p.resumeBackground i op (f op) k)
    | _ => none
  | .outside i => (ext i p.state).map fun s => { p with state := s }

variable {M : Monitor S} {bg ρ : Role M}

/-- What is needed of a suspended call of role `ρ` for it to go on to `Q`. -/
def Thread.Ready (M : Monitor S) (bg ρ : Role M) (Q : Post M α) (s : S.State) (g : M.Ghost) :
    Thread S α → Prop
  | .waiting op k => ∀ t h a, M.inv t h → ρ.rely s g t h → M.admits t h op a →
      ρ.guar t h t (M.note h (.answer op a)) ∧ wp M bg (k a) ρ Q t (M.note h (.answer op a))
  | .done _ => True
  | .stuck => True

/-- The roles fit together: what one call guarantees the others may rely on. -/
structure Fits (M : Monitor S) (bg ρ : Role M) (ext : ι → S.State → Option S.State) : Prop where
  mainTrans : ∀ s g t h u i, ρ.rely s g t h → ρ.rely t h u i → ρ.rely s g u i
  backTrans : ∀ s g t h u i, bg.rely s g t h → bg.rely t h u i → bg.rely s g u i
  mainRefl : ∀ s g, ρ.rely s g s g
  backRefl : ∀ s g, bg.rely s g s g
  mainBack : ∀ s g t h, ρ.guar s g t h → bg.rely s g t h
  backMain : ∀ s g t h, bg.guar s g t h → ρ.rely s g t h
  backBack : ∀ s g t h, bg.guar s g t h → bg.rely s g t h
  outside : ∀ i s t g, M.inv s g → ext i s = some t →
    M.inv t g ∧ ρ.rely s g t g ∧ bg.rely s g t g

theorem Thread.Ready.mono {Q : Post M α} {th : Thread S α} {s t : S.State} {g h : M.Ghost}
    (htrans : ∀ s g t h u i, ρ.rely s g t h → ρ.rely t h u i → ρ.rely s g u i)
    (hr : ρ.rely s g t h) (hth : th.Ready M bg ρ Q s g) : th.Ready M bg ρ Q t h := by
  cases th with
  | waiting op k => exact fun u i a hi hu ha => hth u i a hi (htrans _ _ _ _ _ _ hr hu) ha
  | done r => trivial
  | stuck => trivial

/-- How a call of role `ρ` leaves the pool at its next suspension. `R` is any relation that its
own moves stay in, such as what another call relies on. -/
structure Advance.Good (M : Monitor S) (bg ρ : Role M) (Q : Post M α) (g : M.Ghost)
    (a : Advance S α) : Prop where
  respects : M.Respects g a.trace
  thread : a.thread.Ready M bg ρ Q a.state (M.after g a.trace)
  done : ∀ r, a.thread = .done r → Q r a.state (M.after g a.trace)
  inv : (∀ r, a.thread ≠ .done r) → M.inv a.state (M.after g a.trace)
  spawned : ∀ th ∈ a.spawned, th.Ready M bg bg (fun _ => M.inv) a.state (M.after g a.trace)

theorem advance_stays {R : S.State → M.Ghost → S.State → M.Ghost → Prop}
    (hrefl : ∀ s g, R s g s g)
    (htrans : ∀ s g t h u i, R s g t h → R t h u i → R s g u i)
    (hguar : ∀ s g t h, ρ.guar s g t h → R s g t h) {p : Prog S α} {Q : Post M α} {s : S.State}
    {g : M.Ghost} (h : wp M bg p ρ Q s g) :
    R s g (advance p s).state (M.after g (advance p s).trace) := by
  induction p generalizing s g with
  | ret a => exact hrefl s g
  | raise e => exact hrefl s g
  | read k ih => exact ih s h
  | write t k ih => exact htrans _ _ _ _ _ _ (hguar _ _ _ _ h.1) (ih h.2)
  | mark m k ih => exact htrans _ _ _ _ _ _ (hguar _ _ _ _ h.1) (ih h.2)
  | await op k ih => exact hguar _ _ _ _ h.2.1
  | detach op p k _ ih => exact htrans _ _ _ _ _ _ (hguar _ _ _ _ h.2.1) (ih h.2.2.2)
  | stuck => exact hrefl s g

theorem advance_good (hrefl : ∀ s g, bg.rely s g s g)
    (htrans : ∀ s g t h u i, bg.rely s g t h → bg.rely t h u i → bg.rely s g u i)
    (hguar : ∀ s g t h, ρ.guar s g t h → bg.rely s g t h) {p : Prog S α} {Q : Post M α}
    {s : S.State} {g : M.Ghost} (h : wp M bg p ρ Q s g) :
    (advance p s).Good M bg ρ Q g := by
  induction p generalizing s g with
  | ret a =>
    exact ⟨trivial, trivial, by rintro r ⟨⟩; exact h,
      fun hn => absurd rfl (hn _), by simp [advance]⟩
  | raise e =>
    exact ⟨trivial, trivial, by rintro r ⟨⟩; exact h,
      fun hn => absurd rfl (hn _), by simp [advance]⟩
  | read k ih => exact ih s h
  | write t k ih => exact ih h.2
  | mark m k ih =>
    obtain ⟨hresp, hth, hdone, hinv, hsp⟩ := ih h.2
    exact ⟨hresp, hth, hdone, hinv, hsp⟩
  | await op k ih =>
    obtain ⟨hall, -, hinv, hk⟩ := h
    exact ⟨⟨hall, trivial⟩, hk, by rintro r ⟨⟩, fun _ => hinv, by simp [advance]⟩
  | detach op p k _ ih =>
    obtain ⟨hall, -, hback, hk⟩ := h
    obtain ⟨hresp, hth, hdone, hinv, hsp⟩ := ih hk
    refine ⟨⟨hall, hresp⟩, hth, hdone, hinv, fun th hmem => ?_⟩
    obtain rfl | hmem := List.mem_cons.mp hmem
    · -- the rest of the segment that detached the call is within what the call relies on
      have hstay : bg.rely s (M.note g (.ask op)) (advance k s).state
          (M.after (M.note g (.ask op)) (advance k s).trace) :=
        advance_stays hrefl htrans hguar hk
      have hready : Thread.Ready M bg bg (fun _ => M.inv) s (M.note g (.ask op))
          (.waiting op p) := hback
      exact hready.mono htrans hstay
    · exact hsp th hmem
  | stuck => exact ⟨trivial, trivial, by rintro r ⟨⟩, fun _ => h.2, by simp [advance]⟩

theorem Advance.Good.holds {Q : Post M α} {a : Advance S α} {g : M.Ghost}
    (h : a.Good M bg ρ Q g) (hQ : ∀ r s g, Q r s g → M.inv s g) :
    M.inv a.state (M.after g a.trace) := by
  cases hth : a.thread with
  | done r => exact hQ r _ _ (h.done r hth)
  | _ => exact h.inv (by simp [hth])

def Admitted (M : Monitor S) (g : M.Ghost) (p : Pool S α) : Move S ι → Prop
  | .main f => ∀ op k, p.main = .waiting op k → M.admits p.state (M.after g p.trace) op (f op)
  | .background i f => ∀ op k, p.background[i]? = some (.waiting op k) →
      M.admits p.state (M.after g p.trace) op (f op)
  | .outside _ => True

structure Pool.Sound (M : Monitor S) (bg ρ : Role M) (Q : Post M α) (g : M.Ghost)
    (p : Pool S α) : Prop where
  inv : M.inv p.state (M.after g p.trace)
  respects : M.Respects g p.trace
  main : p.main.Ready M bg ρ Q p.state (M.after g p.trace)
  background : ∀ th ∈ p.background,
    th.Ready M bg bg (fun _ => M.inv) p.state (M.after g p.trace)

variable {ext : ι → S.State → Option S.State} {Q : Post M α} {g : M.Ghost}

/-- A pool whose main call satisfies its precondition starts sound. -/
theorem sound_start (hfit : Fits M bg ρ ext) (hQ : ∀ r s g, Q r s g → M.inv s g) {p : Prog S α}
    {s : S.State} (h : wp M bg p ρ Q s g) : (Pool.start p s).Sound M bg ρ Q g := by
  have hgood := advance_good hfit.backRefl hfit.backTrans hfit.mainBack h
  exact ⟨hgood.holds hQ, hgood.respects, hgood.thread, hgood.spawned⟩

/-- The trace that a resumed call adds, and the ghost state after it. -/
theorem after_resume (tr tr' : List (Item S)) (x : Item S) :
    M.after g (tr ++ x :: tr') = M.after (M.note (M.after g tr) x) tr' := by
  rw [after_append]
  rfl

theorem respects_resume {tr tr' : List (Item S)} {op : S.Op} {a : S.Ans op}
    (h : M.Respects g tr) (h' : M.Respects (M.note (M.after g tr) (.answer op a)) tr') :
    M.Respects g (tr ++ .answer op a :: tr') :=
  respects_append.mpr ⟨h, h'⟩

/-- A step of the main call keeps the pool sound, and when it ends there, it ends in the
postcondition. -/
theorem sound_main (hfit : Fits M bg ρ ext) (hQ : ∀ r s g, Q r s g → M.inv s g) {p : Pool S α}
    (hp : p.Sound M bg ρ Q g) {op : S.Op} {k : S.Ans op → Prog S α} (hm : p.main = .waiting op k)
    {a : S.Ans op} (ha : M.admits p.state (M.after g p.trace) op a) :
    (p.resumeMain op a k).Sound M bg ρ Q g ∧
      ∀ r, (p.resumeMain op a k).main = .done r →
        Q r (p.resumeMain op a k).state (M.after g (p.resumeMain op a k).trace) := by
  have hready := hp.main
  rw [hm] at hready
  obtain ⟨hguar, hwp⟩ := hready _ _ a hp.inv (hfit.mainRefl _ _) ha
  have hgood := advance_good hfit.backRefl hfit.backTrans hfit.mainBack hwp
  have hstay : bg.rely p.state (M.after g p.trace) (p.resumeMain op a k).state
      (M.after g (p.resumeMain op a k).trace) := by
    rw [Pool.resumeMain, after_resume]
    exact hfit.backTrans _ _ _ _ _ _ (hfit.mainBack _ _ _ _ hguar)
      (advance_stays hfit.backRefl hfit.backTrans hfit.mainBack hwp)
  refine ⟨⟨?_, respects_resume hp.respects hgood.respects, ?_, fun th hth => ?_⟩, fun r hr => ?_⟩
  · rw [Pool.resumeMain, after_resume]
    exact hgood.holds hQ
  · rw [Pool.resumeMain, after_resume]
    exact hgood.thread
  · obtain hth | hth := List.mem_append.mp hth
    · exact (hp.background th hth).mono hfit.backTrans hstay
    · rw [Pool.resumeMain, after_resume]
      exact hgood.spawned th hth
  · rw [Pool.resumeMain, after_resume]
    exact hgood.done r hr

theorem sound_background (hfit : Fits M bg ρ ext) {p : Pool S α} (hp : p.Sound M bg ρ Q g)
    {i : Nat} {op : S.Op} {k : S.Ans op → Prog S Unit}
    (hm : p.background[i]? = some (.waiting op k)) {a : S.Ans op}
    (ha : M.admits p.state (M.after g p.trace) op a) :
    (p.resumeBackground i op a k).Sound M bg ρ Q g := by
  have hready := hp.background _ (List.mem_of_getElem? hm)
  obtain ⟨hguar, hwp⟩ := hready _ _ a hp.inv (hfit.backRefl _ _) ha
  have hgood := advance_good hfit.backRefl hfit.backTrans hfit.backBack hwp
  have hstay : ∀ {R : S.State → M.Ghost → S.State → M.Ghost → Prop}, (∀ s g, R s g s g) →
      (∀ s g t h u i, R s g t h → R t h u i → R s g u i) →
      (∀ s g t h, bg.guar s g t h → R s g t h) →
      R p.state (M.after g p.trace) (p.resumeBackground i op a k).state
        (M.after g (p.resumeBackground i op a k).trace) := by
    intro R hrefl htrans hR
    rw [Pool.resumeBackground, after_resume]
    exact htrans _ _ _ _ _ _ (hR _ _ _ _ hguar) (advance_stays hrefl htrans hR hwp)
  refine ⟨?_, respects_resume hp.respects hgood.respects, ?_, fun th hth => ?_⟩
  · rw [Pool.resumeBackground, after_resume]
    exact hgood.holds fun _ _ _ h => h
  · exact hp.main.mono hfit.mainTrans (hstay hfit.mainRefl hfit.mainTrans hfit.backMain)
  · obtain hth | hth := List.mem_append.mp hth
    · obtain hth | rfl := List.mem_or_eq_of_mem_set hth
      · exact (hp.background th hth).mono hfit.backTrans
          (hstay hfit.backRefl hfit.backTrans hfit.backBack)
      · rw [Pool.resumeBackground, after_resume]
        exact hgood.thread
    · rw [Pool.resumeBackground, after_resume]
      exact hgood.spawned th hth

theorem sound_outside (hfit : Fits M bg ρ ext) {p : Pool S α} (hp : p.Sound M bg ρ Q g) {i : ι}
    {s : S.State} (hs : ext i p.state = some s) :
    ({ p with state := s } : Pool S α).Sound M bg ρ Q g := by
  obtain ⟨hinv, hmain, hback⟩ := hfit.outside i p.state s _ hp.inv hs
  exact ⟨hinv, hp.respects, hp.main.mono hfit.mainTrans hmain,
    fun th hth => (hp.background th hth).mono hfit.backTrans hback⟩

/-- The step rule of the pool: an admitted step keeps it sound, and the main call ends in its
postcondition. -/
theorem sound_step (hfit : Fits M bg ρ ext) (hQ : ∀ r s g, Q r s g → M.inv s g) {p q : Pool S α}
    (hp : p.Sound M bg ρ Q g) {e : Move S ι} (h : p.step ext e = some q)
    (ha : Admitted M g p e) :
    q.Sound M bg ρ Q g ∧
      ∀ r, (∀ r', p.main ≠ .done r') → q.main = .done r → Q r q.state (M.after g q.trace) := by
  cases e with
  | main f =>
    simp only [Pool.step] at h
    split at h
    · rename_i op k hm
      cases h
      obtain ⟨hq, hdone⟩ := sound_main hfit hQ hp hm (ha op k hm)
      exact ⟨hq, fun r _ hr => hdone r hr⟩
    · cases h
  | background i f =>
    simp only [Pool.step] at h
    split at h
    · rename_i op k hm
      cases h
      refine ⟨sound_background hfit hp hm (ha op k hm), fun r hn hr => ?_⟩
      exact absurd hr (hn r)
    · cases h
  | outside i =>
    obtain ⟨s, hs, rfl⟩ := Option.map_eq_some_iff.mp h
    exact ⟨sound_outside hfit hp hs, fun r hn hr => absurd hr (hn r)⟩

/-- Soundness of the weakest precondition for a pool, under a monitor that admits every answer: it
holds at every pool that some run reaches. -/
theorem sound_of_reachable (hfit : Fits M bg ρ ext) (hQ : ∀ r s g, Q r s g → M.inv s g)
    (hadmits : ∀ s g op a, M.admits s g op a) {p : Prog S α} {s : S.State} {q : Pool S α}
    (h : wp M bg p ρ Q s g) (hq : Reachable (Pool.step ext) (Pool.start p s) q) :
    q.Sound M bg ρ Q g := by
  refine inv_of_reachable (fun p e q hp hstep => ?_) (sound_start hfit hQ h) hq
  have hadm : Admitted M g p e := by
    cases e with
    | main f => exact fun op _ _ => hadmits _ _ op (f op)
    | background i f => exact fun op _ _ => hadmits _ _ op (f op)
    | outside i => trivial
  exact (sound_step hfit hQ hp hstep hadm).1

end Async
