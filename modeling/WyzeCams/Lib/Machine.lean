import Mathlib.Tactic.Common

/-! Event-driven machines. A machine is a partial step function; the rules below carry
what one step does to every run. Nothing here depends on a particular machine. -/
namespace EventMachine
variable {σ α : Type*}

/-- The run of a list of events; `none` when one of them cannot occur. -/
def run (step : σ → α → Option σ) : σ → List α → Option σ
  | s, [] => some s
  | s, a :: as => (step s a).bind fun t => run step t as

/-- `P` holds of every transition of the run of `as` from `s`. The run ends at the first
event that cannot occur. -/
def Along (step : σ → α → Option σ) (P : σ → α → σ → Prop) : σ → List α → Prop
  | _, [] => True
  | s, a :: as => match step s a with
    | none => True
    | some t => P s a t ∧ Along step P t as

def Reachable (step : σ → α → Option σ) (s₀ s : σ) : Prop := ∃ as, run step s₀ as = some s

variable {step : σ → α → Option σ} {P Q : σ → α → σ → Prop} {Inv : σ → Prop}

/-- An event that can occur only where `p` holds. -/
theorem of_guard {p : Prop} [Decidable p] {s t : σ} (h : (if p then some s else none) = some t) :
    p ∧ t = s := by
  split_ifs at h with hp
  exact ⟨hp, (Option.some.inj h).symm⟩

theorem run_append (s : σ) (as bs : List α) :
    run step s (as ++ bs) = (run step s as).bind fun t => run step t bs := by
  induction as generalizing s with
  | nil => rfl
  | cons a as ih =>
    cases h : step s a with
    | none => simp [run, h]
    | some t => simpa [run, h] using ih t

theorem along_cons {s t : σ} {a : α} {as : List α} (h : step s a = some t) :
    Along step P s (a :: as) ↔ P s a t ∧ Along step P t as := by
  simp [Along, h]

theorem along_cons_none {s : σ} {a : α} {as : List α} (h : step s a = none) :
    Along step P s (a :: as) := by
  simp [Along, h]

instance decidableAlong [∀ s a t, Decidable (P s a t)] :
    ∀ (s : σ) (as : List α), Decidable (Along step P s as)
  | _, [] => isTrue trivial
  | s, a :: as =>
    match h : step s a with
    | none => isTrue (along_cons_none h)
    | some t =>
      have : Decidable (Along step P t as) := decidableAlong t as
      decidable_of_iff (P s a t ∧ Along step P t as) (along_cons h).symm

/-- The step rule: an invariant that every step keeps, together with `P` of that step,
gives `P` along every run. -/
theorem along_of_inv (hstep : ∀ s a t, Inv s → step s a = some t → P s a t ∧ Inv t)
    {s : σ} (hs : Inv s) (as : List α) : Along step P s as := by
  induction as generalizing s with
  | nil => trivial
  | cons a as ih =>
    cases h : step s a with
    | none => exact along_cons_none h
    | some t =>
      obtain ⟨hp, ht⟩ := hstep s a t hs h
      exact (along_cons h).mpr ⟨hp, ih ht⟩

/-- The same rule for the runs whose transitions all satisfy `Q`. -/
theorem along_of_along (hstep : ∀ s a t, Inv s → step s a = some t → Q s a t → P s a t ∧ Inv t)
    {s : σ} (hs : Inv s) (as : List α) (hq : Along step Q s as) : Along step P s as := by
  induction as generalizing s with
  | nil => trivial
  | cons a as ih =>
    cases h : step s a with
    | none => exact along_cons_none h
    | some t =>
      obtain ⟨hqs, hqt⟩ := (along_cons h).mp hq
      obtain ⟨hp, ht⟩ := hstep s a t hs h hqs
      exact (along_cons h).mpr ⟨hp, ih ht hqt⟩

/-- Two properties of a transition that agree under an invariant agree along every run;
the invariant has to survive only the transitions that satisfy `Q`. -/
theorem along_iff (hiff : ∀ s a t, Inv s → step s a = some t → (P s a t ↔ Q s a t))
    (hinv : ∀ s a t, Inv s → step s a = some t → Q s a t → Inv t)
    {s : σ} (hs : Inv s) (as : List α) : Along step P s as ↔ Along step Q s as := by
  constructor
  · exact along_of_along (fun s a t hi h hp =>
      have hq := (hiff s a t hi h).mp hp
      ⟨hq, hinv s a t hi h hq⟩) hs as
  · exact along_of_along (fun s a t hi h hq =>
      ⟨(hiff s a t hi h).mpr hq, hinv s a t hi h hq⟩) hs as

/-- The same rule for runs of events for which `D` holds. -/
theorem along_iff_of_events {D : α → Prop}
    (hiff : ∀ s a t, Inv s → D a → step s a = some t → (P s a t ↔ Q s a t))
    (hinv : ∀ s a t, Inv s → D a → step s a = some t → Q s a t → Inv t)
    {s : σ} (hs : Inv s) {as : List α} (has : ∀ a ∈ as, D a) :
    Along step P s as ↔ Along step Q s as := by
  induction as generalizing s with
  | nil => rfl
  | cons a as ih =>
    have ha : D a := has a List.mem_cons_self
    cases h : step s a with
    | none => exact iff_of_true (along_cons_none h) (along_cons_none h)
    | some t =>
      rw [along_cons h, along_cons h, hiff s a t hs ha h]
      apply and_congr_right
      intro hq
      exact ih (hinv s a t hs ha h hq) fun b hb => has b (List.mem_cons_of_mem a hb)

theorem along_append {s : σ} {as bs : List α} :
    Along step P s (as ++ bs) ↔
      Along step P s as ∧ ∀ t, run step s as = some t → Along step P t bs := by
  induction as generalizing s with
  | nil => simp [Along, run]
  | cons a as ih =>
    cases h : step s a with
    | none => simp [Along, run, h]
    | some t => simp [Along, run, h, ih, and_assoc]

/-- The machine with a record beside it, which `note` keeps up with every transition. -/
def watch {ω : Type*} (step : σ → α → Option σ) (note : ω → σ → α → σ → ω) (p : σ × ω) (a : α) :
    Option (σ × ω) :=
  (step p.1 a).map fun t => (t, note p.2 p.1 a t)

theorem of_watch {ω : Type*} {note : ω → σ → α → σ → ω} {p q : σ × ω} {a : α}
    (h : watch step note p a = some q) : ∃ t, step p.1 a = some t ∧ q = (t, note p.2 p.1 a t) := by
  obtain ⟨t, ht, hq⟩ := Option.map_eq_some_iff.mp h
  exact ⟨t, ht, hq.symm⟩

/-- The record does not disturb the machine. -/
theorem run_watch {ω : Type*} (step : σ → α → Option σ) (note : ω → σ → α → σ → ω) (s : σ) (w : ω)
    (as : List α) : (run (watch step note) (s, w) as).map Prod.fst = run step s as := by
  induction as generalizing s w with
  | nil => rfl
  | cons a as ih =>
    rw [run, run, watch]
    cases step s a with
    | none => rfl
    | some t => exact ih t (note w s a t)

/-- What holds along a run holds of its last transition. -/
theorem along_last {s t u : σ} {as : List α} {a : α} (hrun : run step s as = some t)
    (hstep : step t a = some u) (h : Along step P s (as ++ [a])) : P t a u :=
  ((along_cons hstep).mp ((along_append.mp h).2 t hrun)).1

/-- Events for which `P` holds in every state. -/
theorem along_of_forall {as : List α} (h : ∀ a ∈ as, ∀ s t, P s a t) (s : σ) :
    Along step P s as := by
  induction as generalizing s with
  | nil => trivial
  | cons a as ih =>
    cases hs : step s a with
    | none => exact along_cons_none hs
    | some t =>
      have hrest : ∀ b ∈ as, ∀ s t, P s b t := fun b hb => h b (List.mem_cons_of_mem a hb)
      exact (along_cons hs).mpr ⟨h a List.mem_cons_self s t, ih hrest t⟩

/-- A run along which `P` does not hold has a first transition that breaks it. -/
theorem exists_first_break {s : σ} {as : List α} (h : ¬ Along step P s as) :
    ∃ pre a t u, pre ++ [a] <+: as ∧ Along step P s pre ∧ run step s pre = some t ∧
      step t a = some u ∧ ¬ P t a u := by
  induction as generalizing s with
  | nil => exact absurd trivial h
  | cons a as ih =>
    cases hs : step s a with
    | none => exact absurd (along_cons_none hs) h
    | some t =>
      rw [along_cons hs] at h
      by_cases hp : P s a t
      · obtain ⟨pre, b, u, v, hpre, halong, hrun, hstep, hbreak⟩ := ih fun ht => h ⟨hp, ht⟩
        refine ⟨a :: pre, b, u, v, ?_, (along_cons hs).mpr ⟨hp, halong⟩, ?_, hstep, hbreak⟩
        · simpa using hpre
        · simpa [run, hs] using hrun
      · exact ⟨[], a, s, t, by simp, trivial, rfl, hs, hp⟩

/-- `P` holds along a run exactly when it holds at the end of each of its prefixes. -/
theorem along_iff_forall {s : σ} {as : List α} :
    Along step P s as ↔ ∀ pre a t u, pre ++ [a] <+: as → run step s pre = some t →
      step t a = some u → P t a u := by
  constructor
  · rintro h pre a t u ⟨rest, rfl⟩ hrun hstep
    exact along_last hrun hstep (along_append.mp h).1
  · intro h
    by_contra hn
    obtain ⟨pre, a, t, u, hpre, -, hrun, hstep, hbreak⟩ := exists_first_break hn
    exact hbreak (h pre a t u hpre hrun hstep)

/-- What is to hold whenever the event `e` occurs, where it can always occur and a condition `C` on
the events before it says when the property holds. -/
theorem along_at_iff {e : α} {φ : σ → Prop} {C : List α → Prop} {s : σ} {as : List α}
    (hoccurs : ∀ t, ∃ u, step t e = some u)
    (hiff : ∀ pre t, run step s pre = some t → (φ t ↔ C pre)) :
    Along step (fun t a _ => a = e → φ t) s as ↔
      ∀ pre t, pre ++ [e] <+: as → run step s pre = some t → C pre := by
  rw [along_iff_forall]
  constructor
  · intro h pre t hpre hrun
    obtain ⟨u, hu⟩ := hoccurs t
    exact (hiff pre t hrun).mp (h pre e t u hpre hrun hu rfl)
  · rintro h pre a t u hpre hrun - rfl
    exact (hiff pre t hrun).mpr (h pre t hpre hrun)

/-- An invariant that the `Q`-transitions keep holds at the end of every run of them. -/
theorem inv_of_run (hinv : ∀ s a t, Inv s → step s a = some t → Q s a t → Inv t)
    {s t : σ} {as : List α} (hs : Inv s) (hq : Along step Q s as)
    (hrun : run step s as = some t) : Inv t := by
  induction as generalizing s with
  | nil => cases hrun; exact hs
  | cons a as ih =>
    cases h : step s a with
    | none => simp [run, h] at hrun
    | some u =>
      simp only [run, h, Option.bind_some] at hrun
      obtain ⟨h1, h2⟩ := (along_cons h).mp hq
      exact ih (hinv s a u hs h h1) h2 hrun

/-- The unconditional case: an invariant of every step holds of every reachable state. -/
theorem inv_of_reachable (hinv : ∀ s a t, Inv s → step s a = some t → Inv t)
    {s₀ s : σ} (h₀ : Inv s₀) (h : Reachable step s₀ s) : Inv s := by
  obtain ⟨as, hrun⟩ := h
  have hq : Along step (fun _ _ _ => True) s₀ as :=
    along_of_inv (fun _ _ _ hi hs => ⟨trivial, hinv _ _ _ hi hs⟩) h₀ as
  exact inv_of_run (fun s a t hi hs _ => hinv s a t hi hs) h₀ hq hrun

/-- An invariant of the machine and its record. -/
theorem inv_of_watch {ω : Type*} {note : ω → σ → α → σ → ω} {I : σ → ω → Prop}
    (hinv : ∀ s w a t, I s w → step s a = some t → I t (note w s a t)) {s : σ} {w : ω} {p : σ × ω}
    (h₀ : I s w) (h : Reachable (watch step note) (s, w) p) : I p.1 p.2 := by
  have hkeep : ∀ (p : σ × ω) a q, I p.1 p.2 → watch step note p a = some q → I q.1 q.2 := by
    intro p a q hp hq
    obtain ⟨t, ht, rfl⟩ := of_watch hq
    exact hinv p.1 p.2 a t hp ht
  exact inv_of_reachable hkeep h₀ h

def Sometime (step : σ → α → Option σ) (R : σ → α → Prop) : σ → List α → Prop
  | _, [] => False
  | s, a :: as => match step s a with
    | none => False
    | some t => R s a ∨ Sometime step R t as

/-- A property of states that one event brings about exactly when `R` holds of it, and that stays
from then on, holds at the end of a run exactly when some event of the run brought it about. -/
theorem sometime_iff {φ : σ → Prop} {R : σ → α → Prop}
    (hstep : ∀ s a t, Inv s → step s a = some t → Inv t ∧ (φ t ↔ φ s ∨ R s a)) {s t : σ}
    {as : List α} (hs : Inv s) (hrun : run step s as = some t) :
    φ t ↔ φ s ∨ Sometime step R s as := by
  induction as generalizing s with
  | nil =>
    cases hrun
    exact (or_iff_left id).symm
  | cons a as ih =>
    cases h : step s a with
    | none => simp [run, h] at hrun
    | some u =>
      simp only [run, h, Option.bind_some] at hrun
      obtain ⟨hu, hφ⟩ := hstep s a u hs h
      rw [ih hu hrun, hφ, or_assoc]
      simp only [Sometime, h]

section Answers
variable {τ ρ : Type*}

def answers (step : σ → α → ρ × σ) : σ → List α → List ρ × σ
  | s, [] => ([], s)
  | s, a :: as =>
    let rest := answers step (step s a).2 as
    ((step s a).1 :: rest.1, rest.2)

/-- Forward simulation: related states give the same answers, on every list of requests. -/
theorem answers_simulate {step : σ → α → ρ × σ} {step' : τ → α → ρ × τ} {Rel : σ → τ → Prop}
    {P : α → Prop}
    (hstep : ∀ s t a, P a → Rel s t →
      (step s a).1 = (step' t a).1 ∧ Rel (step s a).2 (step' t a).2)
    {s : σ} {t : τ} (hrel : Rel s t) {as : List α} (has : ∀ a ∈ as, P a) :
    (answers step s as).1 = (answers step' t as).1 ∧
      Rel (answers step s as).2 (answers step' t as).2 := by
  induction as generalizing s t with
  | nil => exact ⟨rfl, hrel⟩
  | cons a as ih =>
    obtain ⟨heq, hnext⟩ := hstep s t a (has a List.mem_cons_self) hrel
    obtain ⟨hanswers, hend⟩ := ih hnext fun b hb => has b (List.mem_cons_of_mem a hb)
    exact ⟨by rw [answers, answers, heq, hanswers], hend⟩

end Answers

end EventMachine
