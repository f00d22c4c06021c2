import WyzeCams.Lib.Async.Pool
import WyzeCams.Lib.Async.Triple
import WyzeCams.Lib.Table

/-! Any number of calls on one shared state. New calls start at any time, and each call is resumed
where it is suspended, one turn after the other. What is proved of one call, whatever the others
do to the state between its turns, holds of every turn of the crowd. -/
namespace Async
open EventMachine
variable {S : Sig} {α κ ι : Type}

/-- What is remembered of a call. `init` is told the state in which it starts, and `note` adds an
item of its trace: it is told the turn, and the state at its beginning. -/
structure Observer (S : Sig) where
  Seen : Type
  init : S.State → Seen
  note : Nat → S.State → Seen → Item S → Seen

structure Call (O : Observer S) : Type 1 where
  seen : O.Seen
  detached : Bool
  thread : Thread S Unit

structure Segment (O : Observer S) (α : Type) : Type 1 where
  state : S.State
  seen : O.Seen
  thread : Thread S α
  spawned : List (Call O)

/-- The turn began in state `s₀`. A call that is detached remembers what the call that started it
remembers. -/
def segment (O : Observer S) (n : Nat) (s₀ : S.State) {α : Type} :
    Prog S α → S.State → O.Seen → Segment O α
  | .ret a, s, l => ⟨s, l, .done (.ok a), []⟩
  | .raise e, s, l => ⟨s, l, .done (.error e), []⟩
  | .read k, s, l => segment O n s₀ (k s) s l
  | .write t k, _, l => segment O n s₀ k t l
  | .mark m k, s, l => segment O n s₀ k s (O.note n s₀ l (.mark m))
  | .await op k, s, l => ⟨s, O.note n s₀ l (.ask op), .waiting op k, []⟩
  | .detach op p k, s, l =>
    let r := segment O n s₀ k s (O.note n s₀ l (.ask op))
    { r with spawned := ⟨O.note n s₀ l (.ask op), true, .waiting op p⟩ :: r.spawned }
  | .stuck, s, l => ⟨s, l, .stuck, []⟩

structure Crowd (O : Observer S) : Type 1 where
  state : S.State
  turn : Nat
  calls : List (Call O)

variable {O : Observer S}

def Crowd.start (s : S.State) : Crowd O := ⟨s, 0, []⟩

/-- A new call starts, a call is resumed with an answer, or the code outside makes a move. -/
inductive Turn (S : Sig) (κ ι : Type) where
  | start (k : κ)
  | resume (i : Nat) (f : ∀ op, S.Ans op)
  | outside (i : ι)

def Crowd.step (prog : κ → Prog S Unit) (ext : ι → S.State → Option S.State) (c : Crowd O) :
    Turn S κ ι → Option (Crowd O)
  | .start k =>
    let r := segment O c.turn c.state (prog k) c.state (O.init c.state)
    some ⟨r.state, c.turn + 1, c.calls ++ ⟨r.seen, false, r.thread⟩ :: r.spawned⟩
  | .resume i f => match c.calls[i]? with
    | some ⟨l, detached, .waiting op k⟩ =>
      let r := segment O c.turn c.state (k (f op)) c.state
        (O.note c.turn c.state l (.answer op (f op)))
      some ⟨r.state, c.turn + 1, c.calls.set i ⟨r.seen, detached, r.thread⟩ ++ r.spawned⟩
    | _ => none
  | .outside i => (ext i c.state).map fun s => { c with state := s, turn := c.turn + 1 }

def Crowd.actor (c : Crowd O) : Turn S κ ι → Option Nat
  | .start _ => some c.calls.length
  | .resume i _ => some i
  | .outside _ => none

def Crowd.seen (c : Crowd O) (i : Nat) : O.Seen :=
  ((c.calls[i]?).map Call.seen).getD (O.init c.state)

/-- A turn of one call: the state and the memory before it, and the state and memory after. -/
abbrev Deed (O : Observer S) := Nat → S.State → O.Seen → S.State → O.Seen → Prop

structure Frame (O : Observer S) where
  turn : Nat
  state : S.State
  before : O.Seen
  seen : O.Seen

/-- At each suspension the turn has to be the deed. -/
abbrev Deed.monitor (D : Deed O) : Monitor S where
  Ghost := Frame O
  note g x := { g with seen := O.note g.turn g.state g.seen x }
  allowed _ _ := True
  admits s g _ _ := g.state = s ∧ g.before = g.seen
  inv s g := D g.turn g.state g.before s g.seen

/-- Between its turns a call relies on nothing but its own memory. -/
abbrev Deed.anyone (D : Deed O) : Role D.monitor where
  rely _ g _ h := h.seen = g.seen
  guar _ _ _ _ := True
  stops _ _ := True

def Deed.Ends (D : Deed O) (E : O.Seen → Prop) : Post D.monitor α :=
  fun _ s g => D.monitor.inv s g ∧ E g.seen

/-- In each of its turns the program does the deed, whatever the others do. -/
def Deed.Does (D : Deed O) (E : O.Seen → Prop) (p : Prog S Unit) : Prop :=
  ∀ n s, wp D.monitor D.anyone p D.anyone (D.Ends E) s ⟨n, s, O.init s, O.init s⟩

def Deed.Ready (D : Deed O) (E : O.Seen → Prop) (l : O.Seen) : Thread S α → Prop
  | .waiting op k => ∀ n s a, wp D.monitor D.anyone (k a) D.anyone (D.Ends E) s
      ⟨n, s, l, O.note n s l (.answer op a)⟩
  | .done _ => E l
  | .stuck => True

variable {D : Deed O} {E F : O.Seen → Prop}

/-- The others do not touch what a suspended call remembers. -/
theorem Deed.steady (D : Deed O) (F : O.Seen → Prop) :
    Steady D.anyone fun s g => D.monitor.inv s g ∧ F g.seen := by
  refine ⟨fun s g hs => hs.1, fun s g t i hs hi hr => ⟨hi, ?_⟩⟩
  rw [show i.seen = g.seen from hr]
  exact hs.2

/-- After an answer a call goes on in a new turn. It remembers what it did when it asked, and the
answer. -/
theorem Deed.leads (D : Deed O) {P : Assn D.monitor} {op : S.Op} (F : O.Seen → Prop)
    (h : ∀ s g, P s g → D.monitor.inv s (D.monitor.note g (.ask op)) ∧
      F (D.monitor.note g (.ask op)).seen) :
    Leads D.anyone P op (fun s g => D.monitor.inv s g ∧ F g.seen) fun a s g =>
      s = g.state ∧ F g.before ∧ g.seen = O.note g.turn g.state g.before (.answer op a) where
  steady := D.steady F
  ask s g hs := ⟨trivial, trivial, h s g hs⟩
  answer a s g hs ha := by
    obtain ⟨rfl, hbefore⟩ : g.state = s ∧ g.before = g.seen := ha
    refine ⟨trivial, rfl, ?_, ?_⟩
    · rw [show (D.monitor.note g (.answer op a)).before = g.seen from hbefore]
      exact hs.2
    · rw [show (D.monitor.note g (.answer op a)).before = g.seen from hbefore]

/-- What a memory never loses is still remembered at the end. -/
theorem wp_remember (hF : ∀ n s l x, F l → F (O.note n s l x)) {p : Prog S α}
    {Q : Post D.monitor α} {s : S.State} {g : D.monitor.Ghost}
    (h : wp D.monitor D.anyone p D.anyone Q s g) (hg : F g.seen) :
    wp D.monitor D.anyone p D.anyone (fun r s g => Q r s g ∧ F g.seen) s g := by
  induction p generalizing s g with
  | ret a => exact ⟨h, hg⟩
  | raise e => exact ⟨h, hg⟩
  | read k ih => exact ih s h hg
  | write t k ih => exact ⟨h.1, ih h.2 hg⟩
  | mark m k ih => exact ⟨h.1, ih h.2 (hF _ _ _ _ hg)⟩
  | await op k ih =>
    obtain ⟨hall, hguar, hinv, hk⟩ := h
    refine ⟨hall, hguar, hinv, fun t i a hi hr ha => ?_⟩
    have hseen : F i.seen := by
      rw [show i.seen = _ from hr]
      exact hF _ _ _ _ hg
    exact ⟨trivial, ih a (hk t i a hi hr ha).2 (hF _ _ _ _ hseen)⟩
  | detach op p k _ ih => exact ⟨h.1, h.2.1, h.2.2.1, ih h.2.2.2 (hF _ _ _ _ hg)⟩
  | stuck => exact h

theorem Triple.remember (hF : ∀ n s l x, F l → F (O.note n s l x)) {p : Prog S α}
    {P : Assn D.monitor} {Q : Post D.monitor α} (h : Triple D.anyone D.anyone P p Q)
    (hP : ∀ s g, P s g → F g.seen) :
    Triple D.anyone D.anyone P p fun r s g => Q r s g ∧ F g.seen :=
  ⟨fun s g hs => wp_remember hF (h.holds s g hs) (hP s g hs)⟩

theorem Deed.Ready.mono (hEF : ∀ l, E l → F l) {l : O.Seen} {th : Thread S α}
    (h : D.Ready E l th) : D.Ready F l th := by
  cases th with
  | waiting op k => exact fun n s a => wp_mono (fun _ _ _ hs => ⟨hs.1, hEF _ hs.2⟩) (h n s a)
  | done r => exact hEF l h
  | stuck => trivial

/-- The step lemma of a single call. -/
theorem segment_does (hrefl : ∀ n s l, D n s l s l) {p : Prog S α} {s : S.State}
    {g : D.monitor.Ghost} (h : wp D.monitor D.anyone p D.anyone (D.Ends E) s g) :
    D g.turn g.state g.before (segment O g.turn g.state p s g.seen).state
        (segment O g.turn g.state p s g.seen).seen ∧
      D.Ready E (segment O g.turn g.state p s g.seen).seen
        (segment O g.turn g.state p s g.seen).thread ∧
      ∀ call ∈ (segment O g.turn g.state p s g.seen).spawned,
        D.Ready (fun _ => True) call.seen call.thread := by
  induction p generalizing s g with
  | ret a => exact ⟨h.1, h.2, by simp [segment]⟩
  | raise e => exact ⟨h.1, h.2, by simp [segment]⟩
  | read k ih => exact ih s h
  | write t k ih => exact ih h.2
  | mark m k ih => exact ih h.2
  | await op k ih =>
    obtain ⟨-, -, hinv, hk⟩ := h
    refine ⟨hinv, fun n t a => ?_, by simp [segment]⟩
    exact (hk t ⟨n, t, _, _⟩ a (hrefl _ _ _) rfl ⟨rfl, rfl⟩).2
  | detach op p k _ ih =>
    obtain ⟨-, -, hback, hk⟩ := h
    obtain ⟨hdeed, hready, hspawned⟩ := ih hk
    refine ⟨hdeed, hready, fun call hcall => ?_⟩
    obtain rfl | hcall := List.mem_cons.mp hcall
    · refine fun n t a => wp_mono (fun _ _ _ hs => ⟨hs, trivial⟩) ?_
      exact (hback t ⟨n, t, _, _⟩ a (hrefl _ _ _) rfl ⟨rfl, rfl⟩).2
    · exact hspawned call hcall
  | stuck => exact ⟨h.2, trivial, by simp [segment]⟩

/-- What a memory loses neither by an operation nor by a mark is remembered to the end of a turn. -/
theorem seen_segment (hask : ∀ n s l op, F l → F (O.note n s l (.ask op)))
    (hmark : ∀ n s l m, F l → F (O.note n s l (.mark m))) {n : Nat} {s₀ s : S.State}
    {p : Prog S α} {l : O.Seen} (hl : F l) : F (segment O n s₀ p s l).seen := by
  induction p generalizing s l with
  | ret a => exact hl
  | raise e => exact hl
  | read k ih => exact ih s hl
  | write t k ih => exact ih hl
  | mark m k ih => exact ih (hmark _ _ _ _ hl)
  | await op k => exact hask _ _ _ _ hl
  | detach op p k _ ih => exact ih (hask _ _ _ _ hl)
  | stuck => exact hl

theorem detached_of_spawned {n : Nat} {s₀ s : S.State} {p : Prog S α} {l : O.Seen} :
    ∀ call ∈ (segment O n s₀ p s l).spawned, call.detached = true := by
  induction p generalizing s l with
  | read k ih => exact ih s
  | write t k ih => exact ih
  | mark m k ih => exact ih
  | detach op p k _ ih =>
    intro call hcall
    obtain rfl | hcall := List.mem_cons.mp hcall
    · rfl
    · exact ih call hcall
  | _ => simp [segment]

def Call.Sound (D : Deed O) (E : O.Seen → Prop) (call : Call O) : Prop :=
  D.Ready (fun l => call.detached = false → E l) call.seen call.thread

def Crowd.Sound (D : Deed O) (E : O.Seen → Prop) (c : Crowd O) : Prop :=
  ∀ call ∈ c.calls, call.Sound D E

theorem sound_empty (s : S.State) : (Crowd.start s).Sound D E :=
  fun _ hcall => absurd hcall List.not_mem_nil

/-- A call of the crowd that was not detached and has ended. -/
theorem Crowd.Sound.ended {c : Crowd O} (hc : c.Sound D E) {i : Nat} {l : O.Seen}
    {r : Except S.Err Unit} (h : c.calls[i]? = some ⟨l, false, .done r⟩) : E l :=
  hc _ (List.mem_of_getElem? h) rfl

theorem seen_of_getElem? {c : Crowd O} {i : Nat} {call : Call O} (h : c.calls[i]? = some call) :
    c.seen i = call.seen := by
  rw [Crowd.seen, h, Option.map_some, Option.getD_some]

theorem seen_new (c : Crowd O) : c.seen c.calls.length = O.init c.state := by
  rw [Crowd.seen, List.getElem?_eq_none (Nat.le_refl _), Option.map_none, Option.getD_none]

theorem getElem?_started {β : Type*} {xs ys : List β} {x : β} :
    (xs ++ x :: ys)[xs.length]? = some x := by
  rw [List.getElem?_append_right (Nat.le_refl _), Nat.sub_self]
  rfl

theorem getElem?_resumed {β : Type*} {xs ys : List β} {x : β} {i : Nat} (h : i < xs.length) :
    (xs.set i x ++ ys)[i]? = some x := by
  rw [List.getElem?_append_left (by rwa [List.length_set]), List.getElem?_set_self h]

theorem getElem?_append_cases {β : Type*} {xs ys : List β} {x : β} {j : Nat}
    (h : (xs ++ ys)[j]? = some x) :
    xs[j]? = some x ∨ xs.length ≤ j ∧ ys[j - xs.length]? = some x := by
  by_cases hlt : j < xs.length
  · rw [List.getElem?_append_left hlt] at h
    exact .inl h
  · rw [List.getElem?_append_right (Nat.le_of_not_lt hlt)] at h
    exact .inr ⟨Nat.le_of_not_lt hlt, h⟩

structure Crowd.Acted (c : Crowd O) (i : Nat) (p : Prog S Unit) (l : O.Seen) (detached : Bool)
    (d : Crowd O) : Prop where
  state : d.state = (segment O c.turn c.state p c.state l).state
  own : d.calls[i]? = some ⟨(segment O c.turn c.state p c.state l).seen, detached,
    (segment O c.turn c.state p c.state l).thread⟩
  others : ∀ j call, d.calls[j]? = some call → j = i ∨ c.calls[j]? = some call ∨
    call ∈ (segment O c.turn c.state p c.state l).spawned

variable {prog : κ → Prog S Unit} {ext : ι → S.State → Option S.State}

theorem acted_of_start {c d : Crowd O} {k : κ} (h : c.step prog ext (.start k) = some d) :
    c.Acted c.calls.length (prog k) (O.init c.state) false d := by
  cases h
  refine ⟨rfl, getElem?_started, fun j call hj => ?_⟩
  obtain hold | ⟨hle, hnew⟩ := getElem?_append_cases hj
  · exact .inr (.inl hold)
  · cases hk : j - c.calls.length with
    | zero => exact .inl (by omega)
    | succ k =>
      rw [hk, List.getElem?_cons_succ] at hnew
      exact .inr (.inr (List.mem_of_getElem? hnew))

theorem acted_of_resume {c d : Crowd O} {i : Nat} {f : ∀ op, S.Ans op}
    (h : c.step prog ext (.resume i f) = some d) :
    ∃ l detached op k, c.calls[i]? = some ⟨l, detached, .waiting op k⟩ ∧
      c.Acted i (k (f op)) (O.note c.turn c.state l (.answer op (f op))) detached d := by
  simp only [Crowd.step] at h
  split at h
  · rename_i l detached op k hcall
    cases h
    have hlt := (List.getElem?_eq_some_iff.mp hcall).1
    refine ⟨l, detached, op, k, hcall, rfl, getElem?_resumed hlt, fun j call hj => ?_⟩
    obtain hold | ⟨-, hnew⟩ := getElem?_append_cases hj
    · obtain ⟨rfl, -⟩ | ⟨-, hold⟩ := Table.getElem?_replace hold
      · exact .inl rfl
      · exact .inr (.inl hold)
    · exact .inr (.inr (List.mem_of_getElem? hnew))
  · cases h

def Deed.OfTurn (D : Deed O) (c : Crowd O) (e : Turn S κ ι) (d : Crowd O) : Prop :=
  ∀ i, c.actor e = some i → D c.turn c.state (c.seen i) d.state (d.seen i)

/-- A call that has acted has done its deed, and its crowd is still sound. -/
theorem Crowd.Acted.deed {c d : Crowd O} {i : Nat} {p : Prog S Unit} {l : O.Seen} {b : Bool}
    (h : c.Acted i p l b d) (hrefl : ∀ n s l, D n s l s l) (hc : c.Sound D E) {l₀ : O.Seen}
    (hp : wp D.monitor D.anyone p D.anyone (D.Ends fun l => b = false → E l) c.state
      ⟨c.turn, c.state, l₀, l⟩) :
    D c.turn c.state l₀ d.state (d.seen i) ∧ d.Sound D E := by
  obtain ⟨hdeed, hready, hspawned⟩ := segment_does hrefl hp
  refine ⟨?_, fun call hmem => ?_⟩
  · rw [h.state, seen_of_getElem? h.own]
    exact hdeed
  · obtain ⟨j, hj⟩ := List.mem_iff_getElem?.mp hmem
    obtain rfl | hold | hnew := h.others j call hj
    · rw [h.own] at hj
      cases hj
      exact hready
    · exact hc call (List.mem_of_getElem? hold)
    · refine (hspawned call hnew).mono fun _ _ hown => ?_
      rw [detached_of_spawned call hnew] at hown
      cases hown

/-- The step rule of the crowd: each turn of a call is its deed. -/
theorem deed_step (hrefl : ∀ n s l, D n s l s l) (hprog : ∀ k, D.Does E (prog k)) {c d : Crowd O}
    {e : Turn S κ ι} (hc : c.Sound D E) (h : c.step prog ext e = some d) :
    D.OfTurn c e d ∧ d.Sound D E := by
  cases e with
  | start k =>
    have hp : wp D.monitor D.anyone (prog k) D.anyone (D.Ends fun l => false = false → E l)
        c.state ⟨c.turn, c.state, O.init c.state, O.init c.state⟩ :=
      wp_mono (fun _ _ _ hs => ⟨hs.1, fun _ => hs.2⟩) (hprog k c.turn c.state)
    obtain ⟨hdeed, hsound⟩ := (acted_of_start h).deed hrefl hc hp
    refine ⟨fun i hi => ?_, hsound⟩
    cases hi
    rw [seen_new]
    exact hdeed
  | resume i f =>
    obtain ⟨l, b, op, k, hcall, hacted⟩ := acted_of_resume h
    have hp := hc _ (List.mem_of_getElem? hcall) c.turn c.state (f op)
    obtain ⟨hdeed, hsound⟩ := hacted.deed hrefl hc hp
    refine ⟨fun j hj => ?_, hsound⟩
    cases hj
    rw [seen_of_getElem? hcall]
    exact hdeed
  | outside i =>
    obtain ⟨s, -, rfl⟩ := Option.map_eq_some_iff.mp h
    exact ⟨fun i hi => (nomatch hi), hc⟩

theorem Crowd.Acted.stands {c d : Crowd O} {i j : Nat} {p : Prog S Unit} {l : O.Seen} {b : Bool}
    (h : c.Acted i p l b d) {call : Call O} (hj : d.calls[j]? = some call)
    (hown : call.detached = false) : c.calls[j]? = some call ∨ j = i ∧ b = false := by
  obtain rfl | hold | hnew := h.others j call hj
  · rw [h.own] at hj
    cases hj
    exact .inr ⟨rfl, hown⟩
  · exact .inl hold
  · rw [detached_of_spawned call hnew] at hown
    cases hown

/-- A call that is not detached stands as it did before, unless it is its turn. -/
theorem own_of_step {c d : Crowd O} {e : Turn S κ ι} (h : c.step prog ext e = some d) {j : Nat}
    {call : Call O} (hj : d.calls[j]? = some call) (hown : call.detached = false) :
    c.calls[j]? = some call ∨
      c.actor e = some j ∧ ∀ old, c.calls[j]? = some old → old.detached = false := by
  cases e with
  | start k =>
    refine ((acted_of_start h).stands hj hown).imp id fun hturn => ?_
    refine ⟨congrArg some hturn.1.symm, fun old hold => ?_⟩
    rw [List.getElem?_eq_none (Nat.le_of_eq hturn.1.symm)] at hold
    cases hold
  | resume i f =>
    obtain ⟨l, b, op, k, hcall, hacted⟩ := acted_of_resume h
    refine (hacted.stands hj hown).imp id fun hturn => ?_
    refine ⟨congrArg some hturn.1.symm, fun old hold => ?_⟩
    rw [hturn.1, hcall] at hold
    cases hold
    exact hturn.2
  | outside i =>
    obtain ⟨s, -, rfl⟩ := Option.map_eq_some_iff.mp h
    exact .inl hj

/-- The run rule of the crowd, with a record beside it: an invariant that the deeds of the calls
and the moves of the code outside keep, as long as each turn satisfies `Q`. -/
theorem along_watch {ω : Type} {note : ω → Crowd O → Turn S κ ι → Crowd O → ω}
    {P Q : Crowd O × ω → Turn S κ ι → Crowd O × ω → Prop} {I : Crowd O → ω → Prop}
    (hrefl : ∀ n s l, D n s l s l) (hprog : ∀ k, D.Does E (prog k))
    (hcall : ∀ c w e d i, I c w → c.step prog ext e = some d → c.actor e = some i →
      D c.turn c.state (c.seen i) d.state (d.seen i) → d.Sound D E →
        Q (c, w) e (d, note w c e d) → P (c, w) e (d, note w c e d) ∧ I d (note w c e d))
    (hout : ∀ c w i s d, I c w → ext i c.state = some s →
      d = { c with state := s, turn := c.turn + 1 } →
        P (c, w) (.outside i) (d, note w c (.outside i) d) ∧ I d (note w c (.outside i) d))
    {s : S.State} {w : ω} (hw : I (Crowd.start s) w) (es : List (Turn S κ ι))
    (hq : Along (watch (Crowd.step prog ext) note) Q (Crowd.start s, w) es) :
    Along (watch (Crowd.step prog ext) note) P (Crowd.start s, w) es := by
  have hkeep : ∀ p e q, p.1.Sound D E ∧ I p.1 p.2 →
      watch (Crowd.step prog ext) note p e = some q → Q p e q →
        P p e q ∧ q.1.Sound D E ∧ I q.1 q.2 := by
    rintro ⟨c, w⟩ e q ⟨hc, hw⟩ h hq
    obtain ⟨d, hstep, rfl⟩ := of_watch h
    obtain ⟨hdeed, hsound⟩ := deed_step hrefl hprog hc hstep
    have hboth : P (c, w) e (d, note w c e d) ∧ I d (note w c e d) := by
      cases e with
      | start k => exact hcall c w _ d _ hw hstep rfl (hdeed _ rfl) hsound hq
      | resume i f => exact hcall c w _ d i hw hstep rfl (hdeed i rfl) hsound hq
      | outside i =>
        obtain ⟨s, hs, hd⟩ := Option.map_eq_some_iff.mp hstep
        exact hout c w i s d hw hs hd.symm
    exact ⟨hboth.1, hsound, hboth.2⟩
  exact along_of_along hkeep ⟨sound_empty s, hw⟩ es hq

end Async
