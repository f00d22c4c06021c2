import WyzeCams.Lib.Async.Prog

/-! Weakest preconditions of asynchronous programs. A monitor reads the trace into a ghost state
and says which operations may be asked; between the suspensions of a program other code moves the
state as far as the program relies on, and the program itself moves it only as it guarantees. -/
namespace Async
variable {S : Sig} {α β : Type}

/-- `allowed` is what has to hold when an operation is asked, `admits` what is assumed of an
answer, `inv` what holds at every suspension. -/
structure Monitor (S : Sig) where
  Ghost : Type
  note : Ghost → Item S → Ghost
  allowed : Ghost → S.Op → Prop
  admits : S.State → Ghost → (op : S.Op) → S.Ans op → Prop
  inv : S.State → Ghost → Prop

/-- What a program relies on others for, what each of its own moves guarantees, and where it may
run out of fuel. -/
structure Role (M : Monitor S) where
  rely : S.State → M.Ghost → S.State → M.Ghost → Prop
  guar : S.State → M.Ghost → S.State → M.Ghost → Prop
  stops : S.State → M.Ghost → Prop

abbrev Post (M : Monitor S) (α : Type) := Except S.Err α → S.State → M.Ghost → Prop

/-- The weakest precondition of a program of role `ρ` for `Q`; the calls that it leaves in the
background play the role `bg`. -/
def wp (M : Monitor S) (bg : Role M) {α : Type} :
    Prog S α → Role M → Post M α → S.State → M.Ghost → Prop
  | .ret a, _, Q, s, g => Q (.ok a) s g
  | .raise e, _, Q, s, g => Q (.error e) s g
  | .read k, ρ, Q, s, g => wp M bg (k s) ρ Q s g
  | .write t k, ρ, Q, s, g => ρ.guar s g t g ∧ wp M bg k ρ Q t g
  | .mark m k, ρ, Q, s, g =>
    ρ.guar s g s (M.note g (.mark m)) ∧ wp M bg k ρ Q s (M.note g (.mark m))
  | .await op k, ρ, Q, s, g =>
    M.allowed g op ∧ ρ.guar s g s (M.note g (.ask op)) ∧ M.inv s (M.note g (.ask op)) ∧
      ∀ t h a, M.inv t h → ρ.rely s (M.note g (.ask op)) t h → M.admits t h op a →
        ρ.guar t h t (M.note h (.answer op a)) ∧ wp M bg (k a) ρ Q t (M.note h (.answer op a))
  | .detach op p k, ρ, Q, s, g =>
    M.allowed g op ∧ ρ.guar s g s (M.note g (.ask op)) ∧
      (∀ t h a, M.inv t h → bg.rely s (M.note g (.ask op)) t h → M.admits t h op a →
        bg.guar t h t (M.note h (.answer op a)) ∧
          wp M bg (p a) bg (fun _ => M.inv) t (M.note h (.answer op a))) ∧
      wp M bg k ρ Q s (M.note g (.ask op))
  | .stuck, ρ, _, s, g => ρ.stops s g ∧ M.inv s g

variable {M : Monitor S} {bg ρ : Role M} {s : S.State} {g : M.Ghost}

/-- The rule of consequence. -/
theorem wp_mono {p : Prog S α} {Q R : Post M α} (hQR : ∀ r s g, Q r s g → R r s g)
    (h : wp M bg p ρ Q s g) : wp M bg p ρ R s g := by
  induction p generalizing s g with
  | ret a => exact hQR _ _ _ h
  | raise e => exact hQR _ _ _ h
  | read k ih => exact ih s hQR h
  | write t k ih => exact ⟨h.1, ih hQR h.2⟩
  | mark m k ih => exact ⟨h.1, ih hQR h.2⟩
  | await op k ih =>
    obtain ⟨hall, hguar, hinv, hk⟩ := h
    refine ⟨hall, hguar, hinv, fun t h' a hi hr ha => ?_⟩
    exact ⟨(hk t h' a hi hr ha).1, ih a hQR (hk t h' a hi hr ha).2⟩
  | detach op p k _ ih => exact ⟨h.1, h.2.1, h.2.2.1, ih hQR h.2.2.2⟩
  | stuck => exact h

/-- What a sequence needs: the rest after a result, the postcondition after an exception. -/
def Post.andThen (Q : Post M β) (f : α → Post M β → S.State → M.Ghost → Prop) : Post M α
  | .ok a => f a Q
  | .error e => Q (.error e)

theorem wp_bind' {p : Prog S α} {f : α → Prog S β} {Q : Post M β} :
    wp M bg (p.bind f) ρ Q s g ↔
      wp M bg p ρ (Q.andThen fun a Q => wp M bg (f a) ρ Q) s g := by
  induction p generalizing s g with
  | ret a => rfl
  | raise e => rfl
  | read k ih => exact ih s
  | write t k ih => exact and_congr_right fun _ => ih
  | mark m k ih => exact and_congr_right fun _ => ih
  | await op k ih => simp only [Prog.bind, wp, ih]
  | detach op p k _ ih => simp only [Prog.bind, wp, ih]
  | stuck => rfl

theorem wp_bind {p : Prog S α} {f : α → Prog S β} {Q : Post M β} :
    wp M bg (p >>= f) ρ Q s g ↔ wp M bg p ρ (Q.andThen fun a Q => wp M bg (f a) ρ Q) s g :=
  wp_bind'

/-- What `try … catch` needs: the postcondition after a result, the handler after an exception. -/
def Post.orElse (Q : Post M α) (h : S.Err → Post M α → S.State → M.Ghost → Prop) : Post M α
  | .ok a => Q (.ok a)
  | .error e => h e Q

theorem wp_tryCatch {p : Prog S α} {h : S.Err → Prog S α} {Q : Post M α} :
    wp M bg (p.tryCatch h) ρ Q s g ↔ wp M bg p ρ (Q.orElse fun e Q => wp M bg (h e) ρ Q) s g := by
  induction p generalizing s g with
  | ret a => rfl
  | raise e => rfl
  | read k ih => exact ih s
  | write t k ih => exact and_congr_right fun _ => ih
  | mark m k ih => exact and_congr_right fun _ => ih
  | await op k ih => simp only [Prog.tryCatch, wp, ih]
  | detach op p k _ ih => simp only [Prog.tryCatch, wp, ih]
  | stuck => rfl

def Asks (M : Monitor S) (ρ : Role M) (op : S.Op) (K : S.Ans op → S.State → M.Ghost → Prop)
    (s : S.State) (g : M.Ghost) : Prop :=
  M.allowed g op ∧ ρ.guar s g s (M.note g (.ask op)) ∧ M.inv s (M.note g (.ask op)) ∧
    ∀ t h a, M.inv t h → ρ.rely s (M.note g (.ask op)) t h → M.admits t h op a →
      ρ.guar t h t (M.note h (.answer op a)) ∧ K a t (M.note h (.answer op a))

theorem wp_get_bind {f : S.State → Prog S α} {Q : Post M α} :
    wp M bg (Prog.get >>= f) ρ Q s g ↔ wp M bg (f s) ρ Q s g :=
  Iff.rfl

theorem wp_modify_bind {f : S.State → S.State} {k : Unit → Prog S α} {Q : Post M α} :
    wp M bg (Prog.modify f >>= k) ρ Q s g ↔
      ρ.guar s g (f s) g ∧ wp M bg (k ()) ρ Q (f s) g :=
  Iff.rfl

theorem wp_note_bind {m : S.Mark} {k : Unit → Prog S α} {Q : Post M α} :
    wp M bg (Prog.note m >>= k) ρ Q s g ↔
      ρ.guar s g s (M.note g (.mark m)) ∧ wp M bg (k ()) ρ Q s (M.note g (.mark m)) :=
  Iff.rfl

theorem wp_done {r : Except S.Err α} {Q : Post M α} : wp M bg (Prog.done r) ρ Q s g ↔ Q r s g := by
  cases r <;> rfl

theorem wp_settled {p : Prog S α} {Q : Post M (Except S.Err α)} :
    wp M bg p.settled ρ Q s g ↔ wp M bg p ρ (fun r => Q (.ok r)) s g := by
  rw [Prog.settled, wp_tryCatch, wp_bind']
  constructor <;> refine wp_mono fun r s g h => ?_
  · cases r <;> exact h
  · cases r <;> exact h

theorem wp_awaited {op : S.Op} {p : Prog S α} {Q : Post M α} :
    wp M bg (p.awaited op) ρ Q s g ↔ wp M bg p ρ (fun r => Asks M ρ op fun _ => Q r) s g := by
  have hpause : ∀ (r : Except S.Err α) s g,
      wp M bg (.await op fun _ => .done r) ρ Q s g ↔ Asks M ρ op (fun _ => Q r) s g := by
    intro r s g
    simp only [wp, Asks, wp_done]
  rw [Prog.awaited, wp_bind', wp_settled]
  constructor
  · exact wp_mono fun r s g h => (hpause r s g).mp h
  · exact wp_mono fun r s g h => (hpause r s g).mpr h

/-- Nobody hears of the result of a call in the background. -/
theorem wp_discard {p : Prog S α} (h : wp M bg p ρ (fun _ => M.inv) s g) :
    wp M bg (p.bind fun _ => .ret ()) ρ (fun _ => M.inv) s g := by
  refine wp_bind'.mpr (wp_mono (fun r s g hinv => ?_) h)
  cases r <;> exact hinv

/-- The program gets to its first suspension or its end without running out of fuel, and `K` holds
there. -/
def starts (M : Monitor S) {α : Type} : Prog S α → (S.State → M.Ghost → Prop) →
    S.State → M.Ghost → Prop
  | .ret _, K, s, g => K s g
  | .raise _, K, s, g => K s g
  | .read k, K, s, g => starts M (k s) K s g
  | .write t k, K, _, g => starts M k K t g
  | .mark m k, K, s, g => starts M k K s (M.note g (.mark m))
  | .await op _, K, s, g => K s (M.note g (.ask op))
  | .detach op _ k, K, s, g => starts M k K s (M.note g (.ask op))
  | .stuck, _, _, _ => False

variable {J : S.State → M.Ghost → Prop}

theorem starts_bind {p : Prog S α} {f : α → Prog S β} (hp : starts M p J s g)
    (hf : ∀ a s g, J s g → starts M (f a) J s g) : starts M (p >>= f) J s g := by
  induction p generalizing s g with
  | ret a => exact hf a s g hp
  | raise e => exact hp
  | read k ih => exact ih s hp hf
  | write t k ih => exact ih hp hf
  | mark m k ih => exact ih hp hf
  | await op k _ => exact hp
  | detach op p k _ ih => exact ih hp hf
  | stuck => exact hp

theorem starts_tryCatch {p : Prog S α} {f : S.Err → Prog S α} (hp : starts M p J s g)
    (hf : ∀ e s g, J s g → starts M (f e) J s g) : starts M (p.tryCatch f) J s g := by
  induction p generalizing s g with
  | ret a => exact hp
  | raise e => exact hf e s g hp
  | read k ih => exact ih s hp hf
  | write t k ih => exact ih hp hf
  | mark m k ih => exact ih hp hf
  | await op k _ => exact hp
  | detach op p k _ ih => exact ih hp hf
  | stuck => exact hp

theorem starts_awaited {op : S.Op} {p : Prog S α} (hp : starts M p J s g)
    (hask : ∀ s g, J s g → J s (M.note g (.ask op))) : starts M (p.awaited op) J s g := by
  have hsettled : starts M p.settled J s g :=
    starts_tryCatch (starts_bind hp fun _ _ _ h => h) fun _ _ _ h => h
  exact starts_bind hsettled fun _ => hask

theorem starts_mono {K : S.State → M.Ghost → Prop} {p : Prog S α} (hp : starts M p J s g)
    (hK : ∀ s g, J s g → K s g) : starts M p K s g := by
  induction p generalizing s g with
  | ret a => exact hK s g hp
  | raise e => exact hK s g hp
  | read k ih => exact ih s hp
  | write t k ih => exact ih hp
  | mark m k ih => exact ih hp
  | await op k _ => exact hK _ _ hp
  | detach op p k _ ih => exact ih hp
  | stuck => exact hp

/-- A call that satisfies its precondition as a background call can be launched by any program
whose guarantee it keeps; the program goes on from where the call first stops. -/
theorem wp_launch {p : Prog S α} (hρ : ∀ s g t h, bg.guar s g t h → ρ.guar s g t h)
    (hp : wp M bg p bg (fun _ => M.inv) s g) {Q : Post M Unit}
    (hstarts : starts M p (fun t h => M.inv t h → Q (.ok ()) t h) s g) :
    wp M bg p.launch ρ Q s g := by
  induction p generalizing s g with
  | ret a => exact hstarts hp
  | raise e => exact hstarts hp
  | read k ih => exact ih s hp hstarts
  | write t k ih => exact ⟨hρ _ _ _ _ hp.1, ih hp.2 hstarts⟩
  | mark m k ih => exact ⟨hρ _ _ _ _ hp.1, ih hp.2 hstarts⟩
  | await op k ih =>
    obtain ⟨hall, hguar, hinv, hk⟩ := hp
    refine ⟨hall, hρ _ _ _ _ hguar, fun t h a hi hr ha => ?_, hstarts hinv⟩
    obtain ⟨hguar', hwp⟩ := hk t h a hi hr ha
    exact ⟨hguar', wp_discard hwp⟩
  | detach op p k _ ih =>
    obtain ⟨hall, hguar, hback, hk⟩ := hp
    exact ⟨hall, hρ _ _ _ _ hguar, hback, ih hk hstarts⟩
  | stuck => exact absurd hstarts id

def Monitor.Respects (M : Monitor S) : M.Ghost → List (Item S) → Prop
  | _, [] => True
  | g, .ask op :: tr => M.allowed g op ∧ M.Respects (M.note g (.ask op)) tr
  | g, x :: tr => M.Respects (M.note g x) tr

def Monitor.after (M : Monitor S) (g : M.Ghost) (tr : List (Item S)) : M.Ghost := tr.foldl M.note g

theorem after_append (tr tr' : List (Item S)) :
    M.after g (tr ++ tr') = M.after (M.after g tr) tr' :=
  List.foldl_append

/-- A flag of the ghost state that some items of the trace raise. -/
theorem flag_after {φ : M.Ghost → Bool} {f : Item S → Bool}
    (h : ∀ g x, φ (M.note g x) = (φ g || f x)) (g : M.Ghost) (tr : List (Item S)) :
    φ (M.after g tr) = (φ g || tr.any f) := by
  induction tr generalizing g with
  | nil => exact (Bool.or_false _).symm
  | cons x tr ih =>
    have hstep : M.after g (x :: tr) = M.after (M.note g x) tr := rfl
    rw [hstep, ih, h, List.any_cons, Bool.or_assoc]

theorem respects_append {tr tr' : List (Item S)} :
    M.Respects g (tr ++ tr') ↔ M.Respects g tr ∧ M.Respects (M.after g tr) tr' := by
  induction tr generalizing g with
  | nil => simp [Monitor.Respects, Monitor.after]
  | cons x tr ih => cases x <;> simp [Monitor.Respects, ih, Monitor.after, and_assoc]

/-- What `Respects` says of one operation of the trace. -/
theorem allowed_of_respects {tr tr' : List (Item S)} {op : S.Op}
    (h : M.Respects g (tr ++ .ask op :: tr')) : M.allowed (M.after g tr) op :=
  (respects_append.mp h).2.1

end Async
