import WyzeCams.Lib.Async.Wp

/-! Hoare triples over the weakest precondition. A postcondition speaks of the value or the
exception that a program ends with; a program that keeps an assertion may do so at every step. -/
namespace Async
variable {S : Sig} {α β : Type} {M : Monitor S} {bg ρ : Role M}

abbrev Assn (M : Monitor S) := S.State → M.Ghost → Prop

structure Triple (bg ρ : Role M) (P : Assn M) (p : Prog S α) (Q : Post M α) : Prop where
  holds : ∀ s g, P s g → wp M bg p ρ Q s g

/-- `p` ends, by its value or by an exception, where it started: in `J`. -/
abbrev Keeps (bg ρ : Role M) (J : Assn M) (p : Prog S α) : Prop := Triple bg ρ J p fun _ => J

variable {P P' J : Assn M} {Q R : Post M α}

theorem Triple.weaken {p : Prog S α} (hP : ∀ s g, P' s g → P s g)
    (hQ : ∀ r s g, R r s g → Q r s g) (h : Triple bg ρ P p R) : Triple bg ρ P' p Q :=
  ⟨fun s g hs => wp_mono hQ (h.holds s g (hP s g hs))⟩

/-- A fact that the precondition gives in every state. -/
theorem Triple.assume {p : Prog S α} {F : Prop} (hF : ∀ s g, P s g → F)
    (h : F → Triple bg ρ P p Q) : Triple bg ρ P p Q :=
  ⟨fun s g hs => (h (hF s g hs)).holds s g hs⟩

theorem Triple.ret {a : α} (h : ∀ s g, P s g → Q (.ok a) s g) :
    Triple bg ρ P (pure a : Prog S α) Q := ⟨h⟩

theorem Triple.raise {e : S.Err} (h : ∀ s g, P s g → Q (.error e) s g) :
    Triple bg ρ P (.raise e : Prog S α) Q := ⟨h⟩

theorem Triple.bind {p : Prog S α} {f : α → Prog S β} {Q : Post M β} (hp : Triple bg ρ P p R)
    (hf : ∀ a, Triple bg ρ (R (.ok a)) (f a) Q)
    (he : ∀ e s g, R (.error e) s g → Q (.error e) s g) : Triple bg ρ P (p >>= f) Q := by
  refine ⟨fun s g hs => wp_bind.mpr (wp_mono (fun r t h hr => ?_) (hp.holds s g hs))⟩
  cases r with
  | ok a => exact (hf a).holds t h hr
  | error e => exact he e t h hr

theorem Triple.tryCatch {p : Prog S α} {f : S.Err → Prog S α} (hp : Triple bg ρ P p R)
    (hok : ∀ a s g, R (.ok a) s g → Q (.ok a) s g)
    (hf : ∀ e, Triple bg ρ (R (.error e)) (f e) Q) : Triple bg ρ P (p.tryCatch f) Q := by
  refine ⟨fun s g hs => wp_tryCatch.mpr (wp_mono (fun r t h hr => ?_) (hp.holds s g hs))⟩
  cases r with
  | ok a => exact hok a t h hr
  | error e => exact (hf e).holds t h hr

theorem Triple.get_bind {f : S.State → Prog S α}
    (hf : ∀ t, Triple bg ρ (fun s g => s = t ∧ P s g) (f t) Q) :
    Triple bg ρ P (Prog.get >>= f) Q :=
  ⟨fun s g hs => wp_get_bind.mpr ((hf s).holds s g ⟨rfl, hs⟩)⟩

theorem Triple.modify {f : S.State → S.State} {Q : Post M Unit}
    (h : ∀ s g, P s g → ρ.guar s g (f s) g ∧ Q (.ok ()) (f s) g) :
    Triple bg ρ P (Prog.modify f) Q := ⟨h⟩

theorem Triple.note {m : S.Mark} {Q : Post M Unit}
    (h : ∀ s g, P s g → ρ.guar s g s (M.note g (.mark m)) ∧ Q (.ok ()) s (M.note g (.mark m))) :
    Triple bg ρ P (Prog.note m) Q := ⟨h⟩

theorem Keeps.bind {p : Prog S α} {f : α → Prog S β} (hp : Keeps bg ρ J p)
    (hf : ∀ a, Keeps bg ρ J (f a)) : Keeps bg ρ J (p >>= f) :=
  Triple.bind hp hf fun _ _ _ h => h

theorem Keeps.tryCatch {p : Prog S α} {f : S.Err → Prog S α} (hp : Keeps bg ρ J p)
    (hf : ∀ e, Keeps bg ρ J (f e)) : Keeps bg ρ J (p.tryCatch f) :=
  Triple.tryCatch hp (fun _ _ _ h => h) hf

theorem Keeps.pure (a : α) : Keeps bg ρ J (pure a : Prog S α) :=
  Triple.ret fun _ _ h => h

theorem Keeps.get_bind {f : S.State → Prog S α} (hf : ∀ t, Keeps bg ρ J (f t)) :
    Keeps bg ρ J (Prog.get >>= f) :=
  ⟨fun s g hs => wp_get_bind.mpr ((hf s).holds s g hs)⟩

/-- An assertion that holds at suspensions and that the others do not disturb. -/
structure Steady (ρ : Role M) (J : Assn M) : Prop where
  inv : ∀ s g, J s g → M.inv s g
  stable : ∀ s g t h, J s g → M.inv t h → ρ.rely s g t h → J t h

/-- An operation leads from `P` to the steady assertion `K`, and its answer from there to `Q`. -/
structure Leads (ρ : Role M) (P : Assn M) (op : S.Op) (K : Assn M) (Q : S.Ans op → Assn M) :
    Prop where
  steady : Steady ρ K
  ask : ∀ s g, P s g →
    M.allowed g op ∧ ρ.guar s g s (M.note g (.ask op)) ∧ K s (M.note g (.ask op))
  answer : ∀ a s g, K s g → M.admits s g op a →
    ρ.guar s g s (M.note g (.answer op a)) ∧ Q a s (M.note g (.answer op a))

theorem Leads.asks {op : S.Op} {K : Assn M} {Q : S.Ans op → Assn M} (h : Leads ρ P op K Q)
    {s : S.State} {g : M.Ghost} (hs : P s g) : Asks M ρ op Q s g := by
  obtain ⟨hall, hguar, hask⟩ := h.ask s g hs
  refine ⟨hall, hguar, h.steady.inv _ _ hask, fun t i a hi hr ha => ?_⟩
  exact h.answer a t i (h.steady.stable _ _ _ _ hask hi hr) ha

theorem Triple.ask {op : S.Op} {K : Assn M} {Q : Post M (S.Ans op)}
    (h : Leads ρ P op K fun a => Q (.ok a)) : Triple bg ρ P (Prog.ask op) Q :=
  ⟨fun _ _ hs => h.asks hs⟩

theorem Triple.ask_bind {op : S.Op} {K : Assn M} {R : S.Ans op → Assn M}
    {f : S.Ans op → Prog S α} (h : Leads ρ P op K R) (hf : ∀ a, Triple bg ρ (R a) (f a) Q) :
    Triple bg ρ P (Prog.ask op >>= f) Q := by
  refine ⟨fun s g hs => wp_bind.mpr ?_⟩
  obtain ⟨hall, hguar, hinv, hk⟩ := h.asks hs
  refine ⟨hall, hguar, hinv, fun t i a hi hr ha => ?_⟩
  obtain ⟨hguar', ha⟩ := hk t i a hi hr ha
  exact ⟨hguar', (hf a).holds _ _ ha⟩

theorem Triple.modify_bind {f : S.State → S.State} {k : Unit → Prog S α} {R : Assn M}
    (h : ∀ s g, P s g → ρ.guar s g (f s) g ∧ R (f s) g) (hk : Triple bg ρ R (k ()) Q) :
    Triple bg ρ P (Prog.modify f >>= k) Q :=
  ⟨fun s g hs => wp_modify_bind.mpr ⟨(h s g hs).1, hk.holds _ _ (h s g hs).2⟩⟩

theorem Triple.note_bind {m : S.Mark} {k : Unit → Prog S α} {R : Assn M}
    (h : ∀ s g, P s g → ρ.guar s g s (M.note g (.mark m)) ∧ R s (M.note g (.mark m)))
    (hk : Triple bg ρ R (k ()) Q) : Triple bg ρ P (Prog.note m >>= k) Q :=
  ⟨fun s g hs => wp_note_bind.mpr ⟨(h s g hs).1, hk.holds _ _ (h s g hs).2⟩⟩

/-- A call that is awaited ends as the call does, if the pause does not disturb how it ends. -/
theorem Triple.awaited {pause : S.Op} {p : Prog S α} {K : Except S.Err α → Assn M}
    (hpause : ∀ r, Leads ρ (R r) pause (K r) fun _ => Q r) (h : Triple bg ρ P p R) :
    Triple bg ρ P (p.awaited pause) Q :=
  ⟨fun s g hs => wp_awaited.mpr (wp_mono (fun r _ _ hr => (hpause r).asks hr) (h.holds s g hs))⟩

/-- A launched call starts from `I`; the program that launches it goes on from what holds where
the call is first suspended. -/
theorem Triple.launch {I : Assn M} {p : Prog S α}
    (hρ : ∀ s g t h, bg.guar s g t h → ρ.guar s g t h) (hp : Triple bg bg I p fun _ => M.inv)
    (hI : ∀ s g, P s g → I s g) (hstarts : ∀ s g, P s g → starts M p J s g) :
    Triple bg ρ P p.launch fun r s g => r = .ok () ∧ J s g :=
  ⟨fun s g hs => wp_launch hρ (hp.holds s g (hI s g hs))
    (starts_mono (hstarts s g hs) fun _ _ h _ => ⟨rfl, h⟩)⟩

end Async
