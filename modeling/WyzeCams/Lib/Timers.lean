import Mathlib.Data.List.Basic
import WyzeCams.Lib.Double

/-! Timers, as `setTimeout` and `setInterval` set them: numbered in the order in which they were
set, each with what it was set for. -/
namespace Timer
open Double (JsNumber)
variable {α : Type*}

/-- Node's timers wait one millisecond where the delay is no number from 1 to 2147483647, and else
cut it to whole milliseconds. -/
def delay : JsNumber → ℚ
  | .finite ms => if 1 ≤ ms ∧ ms ≤ 2147483647 then (⌊ms⌋ : ℚ) else 1
  | .notFinite => 1

theorem exists_delay_eq (x : JsNumber) : ∃ ms : Nat, delay x = ms := by
  cases x with
  | notFinite => exact ⟨1, Nat.cast_one.symm⟩
  | finite q =>
    rw [delay]
    split_ifs with hfits
    · have hpos : 1 ≤ ⌊q⌋ := Int.le_floor.mpr (by exact_mod_cast hfits.1)
      obtain ⟨ms, hms⟩ := Int.eq_ofNat_of_zero_le (show 0 ≤ ⌊q⌋ by omega)
      exact ⟨ms, by rw [hms, Int.cast_natCast]⟩
    · exact ⟨1, Nat.cast_one.symm⟩

/-- A delay that is kept is a whole number that a timer can hold. -/
theorem of_delay_eq {q : ℚ} (hq : delay (.finite q) = q) :
    ∃ ms : Nat, q = ms ∧ 1 ≤ ms ∧ ms ≤ 2147483647 := by
  obtain ⟨ms, hms⟩ := exists_delay_eq (.finite q)
  rw [hms] at hq
  rw [delay] at hms
  split_ifs at hms with hfits
  · rw [← hq] at hfits
    exact ⟨ms, hq.symm, by exact_mod_cast hfits.1, by exact_mod_cast hfits.2⟩
  · rw [← hms] at hq
    exact ⟨1, by rw [← hq]; norm_num, le_refl _, by norm_num⟩

theorem delay_natCast {ms : Nat} (hpos : 1 ≤ ms) (hmax : ms ≤ 2147483647) :
    delay (.finite ms) = ms := by
  have hfits : (1 : ℚ) ≤ ms ∧ (ms : ℚ) ≤ 2147483647 :=
    ⟨by exact_mod_cast hpos, by exact_mod_cast hmax⟩
  rw [delay, if_pos hfits, Int.floor_natCast, Int.cast_natCast]

/-- What a delay of some whole number of milliseconds, more than one, is cut from. -/
theorem delay_eq_iff {x : JsNumber} {ms : Nat} (hms : 1 < ms) :
    delay x = ms ↔ ∃ q, x = .finite q ∧ ⌊q⌋ = ms ∧ q ≤ 2147483647 := by
  have hone : (1 : ℚ) ≠ ms := by exact_mod_cast Nat.ne_of_lt hms
  cases x with
  | notFinite => simp [delay, hone]
  | finite q =>
    simp only [delay, JsNumber.finite.injEq, exists_eq_left']
    constructor
    · intro h
      split_ifs at h with hfits
      · exact ⟨by exact_mod_cast h, hfits.2⟩
      · exact absurd h hone
    · rintro ⟨hfloor, hmax⟩
      have hle : (1 : ℚ) ≤ q := by
        have hcast : ((1 : ℤ) : ℚ) ≤ q := Int.le_floor.mp (by omega)
        exact_mod_cast hcast
      rw [if_pos ⟨hle, hmax⟩, hfloor, Int.cast_natCast]

/-- All timers set so far; one that was cleared, or has fired for the last time, is `none`. -/
abbrev Timers (α : Type*) := List (Option α)

/-- The handle of the new timer is the length of the old list. -/
def set (ts : Timers α) (a : α) : Timers α := ts ++ [some a]

def clear (ts : Timers α) (k : Nat) : Timers α := List.set ts k none

def clearHandle (ts : Timers α) : Option Nat → Timers α
  | none => ts
  | some k => clear ts k

def Armed (ts : Timers α) (k : Nat) (a : α) : Prop := ts[k]? = some (some a)

instance [DecidableEq α] (ts : Timers α) (k : Nat) (a : α) : Decidable (Armed ts k a) :=
  inferInstanceAs (Decidable (_ = _))

variable {ts : Timers α} {a b : α} {k l : Nat}

theorem not_armed_nil : ¬ Armed ([] : Timers α) k a := by
  simp [Armed]

theorem not_armed_of_all (h : ts.all Option.isNone = true) : ¬ Armed ts k a := by
  intro hk
  have hnone := List.all_eq_true.mp h (some a) (List.mem_of_getElem? hk)
  cases hnone

theorem Armed.lt (h : Armed ts k a) : k < ts.length := (List.getElem?_eq_some_iff.mp h).1

theorem Armed.unique (h : Armed ts k a) (h' : Armed ts k b) : a = b := by
  rw [Armed, h, Option.some_inj, Option.some_inj] at h'
  exact h'

theorem armed_set : Armed (set ts a) k b ↔ Armed ts k b ∨ k = ts.length ∧ b = a := by
  rw [Armed, set, List.getElem?_append]
  split_ifs with hlt
  · exact (or_iff_left fun h => absurd h.1 (by omega)).symm
  · have hold : ts[k]? = none := List.getElem?_eq_none (Nat.le_of_not_lt hlt)
    rw [Armed, hold, List.getElem?_singleton]
    by_cases hk : k = ts.length
    · simp [hk, eq_comm]
    · rw [if_neg (by omega)]
      simp [hk]

theorem armed_clear : Armed (clear ts l) k a ↔ k ≠ l ∧ Armed ts k a := by
  rw [Armed, clear, List.getElem?_set]
  by_cases hk : l = k
  · rw [if_pos hk]
    split_ifs
    · simp [hk]
    · simp [hk]
  · rw [if_neg hk, Armed]
    exact (and_iff_right (Ne.symm hk)).symm

theorem armed_clearHandle {o : Option Nat} :
    Armed (clearHandle ts o) k a ↔ o ≠ some k ∧ Armed ts k a := by
  cases o with
  | none => simp [clearHandle]
  | some l => rw [clearHandle, armed_clear, ne_comm, ne_eq, ne_eq, Option.some_inj]

@[simp] theorem length_set : (set ts a).length = ts.length + 1 := by
  simp [set]

@[simp] theorem length_clear : (clear ts k).length = ts.length := by
  simp [clear]

/-- The handle, if it is one, is that of a timer set for this purpose, which may be armed no more.
-/
def Owns (ts : Timers α) (o : Option Nat) (a : α) : Prop :=
  ∀ k, o = some k → k < ts.length ∧ ∀ b, Armed ts k b → b = a

theorem owns_none : Owns ts none a := fun _ h => nomatch h

theorem owns_set_self : Owns (set ts a) (some ts.length) a := by
  intro k hk
  obtain rfl := Option.some.inj hk
  rw [length_set]
  refine ⟨Nat.lt_succ_self _, fun b hb => ?_⟩
  exact (armed_set.mp hb).elim (fun h => absurd h.lt (Nat.lt_irrefl _)) fun h => h.2

section Owns
variable {o o' : Option Nat}

theorem Owns.set (h : Owns ts o a) (b : α) : Owns (set ts b) o a := by
  intro k hk
  obtain ⟨hlt, hall⟩ := h k hk
  rw [length_set]
  refine ⟨Nat.lt_succ_of_lt hlt, fun c hc => ?_⟩
  exact (armed_set.mp hc).elim (hall c) fun hnew => absurd hlt (by omega)

theorem Owns.clear (h : Owns ts o a) (l : Nat) : Owns (clear ts l) o a := by
  intro k hk
  obtain ⟨hlt, hall⟩ := h k hk
  rw [length_clear]
  exact ⟨hlt, fun c hc => hall c (armed_clear.mp hc).2⟩

theorem Owns.clearHandle (h : Owns ts o a) : Owns (clearHandle ts o') o a := by
  cases o' with
  | none => exact h
  | some l => exact h.clear l

end Owns

section Count
variable [DecidableEq α]

def armedCount (ts : Timers α) (a : α) : Nat := List.count (some a) ts

theorem armedCount_pos_iff : 0 < armedCount ts a ↔ ∃ k, Armed ts k a := by
  rw [armedCount, List.count_pos_iff, List.mem_iff_getElem?]
  rfl

theorem armedCount_set : armedCount (set ts a) b = armedCount ts b + if a = b then 1 else 0 := by
  simp [armedCount, set, List.count_append, List.count_singleton]

theorem armedCount_clear_of_armed (h : Armed ts k a) :
    armedCount (clear ts k) a + 1 = armedCount ts a := by
  induction ts generalizing k with
  | nil => exact absurd h not_armed_nil
  | cons t ts ih =>
    cases k with
    | zero =>
      obtain rfl : t = some a := Option.some.inj h
      simp [armedCount, clear]
    | succ k =>
      have hrest : armedCount (clear ts k) a + 1 = armedCount ts a := ih h
      simp only [armedCount, clear, List.set_cons_succ, List.count_cons] at hrest ⊢
      omega

theorem armedCount_clear_of_not_armed (h : ¬ Armed ts k a) :
    armedCount (clear ts k) a = armedCount ts a := by
  induction ts generalizing k with
  | nil => rfl
  | cons t ts ih =>
    cases k with
    | zero =>
      have hne : t ≠ some a := fun heq => h (congrArg some heq)
      simp [armedCount, clear, hne]
    | succ k =>
      have hrest : armedCount (clear ts k) a = armedCount ts a := ih h
      simp only [armedCount, clear, List.set_cons_succ, List.count_cons] at hrest ⊢
      omega

theorem armedCount_clear_le : armedCount (clear ts k) a ≤ armedCount ts a := by
  by_cases h : Armed ts k a
  · have hcount := armedCount_clear_of_armed h
    omega
  · exact Nat.le_of_eq (armedCount_clear_of_not_armed h)

theorem armedCount_clearHandle_le {o : Option Nat} :
    armedCount (clearHandle ts o) a ≤ armedCount ts a := by
  cases o with
  | none => exact Nat.le_refl _
  | some k => exact armedCount_clear_le

/-- Clearing a timer leaves those for another purpose. -/
theorem Owns.armedCount_clearHandle {o : Option Nat} (h : Owns ts o b) (hne : a ≠ b) :
    armedCount (Timer.clearHandle ts o) a = armedCount ts a := by
  cases o with
  | none => rfl
  | some k => exact armedCount_clear_of_not_armed fun hk => hne ((h k rfl).2 a hk)

end Count

end Timer
