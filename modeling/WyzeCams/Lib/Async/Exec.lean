import WyzeCams.Lib.Async.Wp

/-! One call run to its end against an environment that answers its operations and moves the
state while it is suspended. -/
namespace Async
variable {S : Sig} {α : Type}

/-- An environment answers an operation, and says what the others made of the state meanwhile;
it may remember what it did, and which operations it left unanswered in the background. -/
structure Env (S : Sig) where
  Mem : Type
  answer : Mem → (op : S.Op) → S.State → S.Ans op × S.State × Mem
  detached : Mem → S.Op → Mem

/-- The end of a call: `out` is `none` when it ran out of fuel, `background` holds the calls that
it left suspended. -/
structure Outcome (S : Sig) (α : Type) where
  trace : List (Item S)
  out : Option (Except S.Err α)
  state : S.State
  background : List (Prog S Unit)

def Outcome.after (tr : List (Item S)) (r : Outcome S α) : Outcome S α :=
  { r with trace := tr ++ r.trace }

def exec (E : Env S) {α : Type} : Prog S α → S.State → E.Mem → Outcome S α
  | .ret a, s, _ => ⟨[], some (.ok a), s, []⟩
  | .raise e, s, _ => ⟨[], some (.error e), s, []⟩
  | .read k, s, m => exec E (k s) s m
  | .write t k, _, m => exec E k t m
  | .mark x k, s, m => (exec E k s m).after [.mark x]
  | .await op k, s, m =>
    let r := E.answer m op s
    (exec E (k r.1) r.2.1 r.2.2).after [.ask op, .answer op r.1]
  | .detach op p k, s, m =>
    let r := exec E k s (E.detached m op)
    ⟨.ask op :: r.trace, r.out, r.state, .await op p :: r.background⟩
  | .stuck, s, _ => ⟨[], none, s, []⟩

/-- An environment keeps to a monitor when its memory stays linked to the ghost state, its
answers are admitted, and the others move the state only as the call relies on. -/
structure Env.Keeps (E : Env S) (M : Monitor S) (ρ : Role M)
    (Linked : E.Mem → M.Ghost → Prop) : Prop where
  admits : ∀ m g op s, Linked m g → M.inv s (M.note g (.ask op)) →
    M.admits (E.answer m op s).2.1 (M.note g (.ask op)) op (E.answer m op s).1
  inv : ∀ m g op s, Linked m g → M.inv s (M.note g (.ask op)) →
    M.inv (E.answer m op s).2.1 (M.note g (.ask op))
  rely : ∀ m g op s, Linked m g → M.inv s (M.note g (.ask op)) →
    ρ.rely s (M.note g (.ask op)) (E.answer m op s).2.1 (M.note g (.ask op))
  link : ∀ m g op s, Linked m g →
    Linked (E.answer m op s).2.2 (M.note (M.note g (.ask op)) (.answer op (E.answer m op s).1))
  mark : ∀ m g x, Linked m g → Linked m (M.note g (.mark x))
  detach : ∀ m g op, Linked m g → Linked (E.detached m op) (M.note g (.ask op))

variable {M : Monitor S} {bg ρ : Role M} {E : Env S} {Linked : E.Mem → M.Ghost → Prop}

/-- Soundness of the weakest precondition for a single call: its trace asks only what is allowed,
it ends in the postcondition, and it runs out of fuel only where its role lets it. -/
theorem wp_exec (hE : E.Keeps M ρ Linked) {p : Prog S α} {Q : Post M α} {s : S.State} {g : M.Ghost}
    {m : E.Mem} (hl : Linked m g) (h : wp M bg p ρ Q s g) :
    M.Respects g (exec E p s m).trace ∧
      ((exec E p s m).out = none →
        ρ.stops (exec E p s m).state (M.after g (exec E p s m).trace)) ∧
      ∀ r, (exec E p s m).out = some r →
        Q r (exec E p s m).state (M.after g (exec E p s m).trace) := by
  induction p generalizing s g m with
  | ret a => exact ⟨trivial, by simp [exec], by rintro r ⟨⟩; exact h⟩
  | raise e => exact ⟨trivial, by simp [exec], by rintro r ⟨⟩; exact h⟩
  | read k ih => exact ih s hl h
  | write t k ih => exact ih hl h.2
  | mark x k ih => exact ih (hE.mark m g x hl) h.2
  | await op k ih =>
    obtain ⟨hall, -, hinv, hk⟩ := h
    have hrest := hk _ _ _ (hE.inv m g op s hl hinv) (hE.rely m g op s hl hinv)
      (hE.admits m g op s hl hinv)
    obtain ⟨hresp, hstops, hQ⟩ := ih _ (hE.link m g op s hl) hrest.2
    exact ⟨⟨hall, hresp⟩, hstops, hQ⟩
  | detach op p k _ ih =>
    obtain ⟨hresp, hstops, hQ⟩ := ih (hE.detach m g op hl) h.2.2.2
    exact ⟨⟨h.1, hresp⟩, hstops, hQ⟩
  | stuck => exact ⟨trivial, fun _ => h.1, by simp [exec]⟩

/-- An operation that a call awaits, with the state in which it asks for it and what the environment
remembers then. -/
structure Sight (E : Env S) where
  op : S.Op
  state : S.State
  mem : E.Mem

def sights (E : Env S) {α : Type} : Prog S α → S.State → E.Mem → List (Sight E)
  | .ret _, _, _ => []
  | .raise _, _, _ => []
  | .read k, s, m => sights E (k s) s m
  | .write t k, _, m => sights E k t m
  | .mark _ k, s, m => sights E k s m
  | .await op k, s, m =>
    let r := E.answer m op s
    ⟨op, s, m⟩ :: sights E (k r.1) r.2.1 r.2.2
  | .detach op _ k, s, m => sights E k s (E.detached m op)
  | .stuck, _, _ => []

/-- Whatever is awaited is allowed, and the invariant holds where it is. -/
theorem wp_sights (hE : E.Keeps M ρ Linked) {p : Prog S α} {Q : Post M α} {s : S.State}
    {g : M.Ghost} {m : E.Mem} (hl : Linked m g) (h : wp M bg p ρ Q s g) :
    ∀ x ∈ sights E p s m, ∃ g, Linked x.mem g ∧ M.allowed g x.op ∧
      M.inv x.state (M.note g (.ask x.op)) := by
  induction p generalizing s g m with
  | ret a => simp [sights]
  | raise e => simp [sights]
  | read k ih => exact ih s hl h
  | write t k ih => exact ih hl h.2
  | mark x k ih => exact ih (hE.mark m g x hl) h.2
  | await op k ih =>
    obtain ⟨hall, -, hinv, hk⟩ := h
    intro x hx
    obtain rfl | hx := List.mem_cons.mp hx
    · exact ⟨g, hl, hall, hinv⟩
    · have hrest := hk _ _ _ (hE.inv m g op s hl hinv) (hE.rely m g op s hl hinv)
        (hE.admits m g op s hl hinv)
      exact ih _ (hE.link m g op s hl) hrest.2 x hx
  | detach op p k _ ih => exact ih (hE.detach m g op hl) h.2.2.2
  | stuck => simp [sights]

end Async
