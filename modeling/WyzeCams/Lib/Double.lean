import Mathlib.Data.Int.Log
import Mathlib.Data.Rat.Floor
import Mathlib.Tactic.Linarith
import Mathlib.Tactic.Positivity

/-! JavaScript numbers by their values, and the rounding of a product to the nearest double. -/
namespace Double

inductive JsNumber where
  | finite (q : ℚ)
  | notFinite
  deriving DecidableEq, Repr

def roundEven (q : ℚ) : ℤ :=
  if Int.fract q < 1 / 2 then ⌊q⌋
  else if 1 / 2 < Int.fract q then ⌊q⌋ + 1
  else if ⌊q⌋ % 2 = 0 then ⌊q⌋
  else ⌊q⌋ + 1

/-- The exponent of the last of the 53 bits of a double at `q`; there is no bit below `2 ^ (-1074)`.
-/
def lastBit (q : ℚ) : ℤ := max (Int.log 2 |q| - 52) (-1074)

def nearest (q : ℚ) : JsNumber :=
  let ulp : ℚ := 2 ^ lastBit q
  let r := roundEven (q / ulp) * ulp
  if |r| < 2 ^ 1024 then .finite r else .notFinite

def JsNumber.mul : JsNumber → JsNumber → JsNumber
  | .finite p, .finite q => nearest (p * q)
  | _, _ => .notFinite

theorem roundEven_intCast (n : ℤ) : roundEven n = n := by
  rw [roundEven, Int.fract_intCast, if_pos (by norm_num), Int.floor_intCast]

theorem floor_le_roundEven (q : ℚ) : ⌊q⌋ ≤ roundEven q := by
  rw [roundEven]
  split_ifs <;> omega

theorem two_zpow_pos (e : ℤ) : (0 : ℚ) < 2 ^ e := zpow_pos (by norm_num) e

/-- A whole number of 53 bits is a double. -/
theorem nearest_natCast {n : Nat} (hn : n < 2 ^ 53) : nearest (n : ℚ) = .finite n := by
  have hlog : Nat.log 2 n ≤ 52 := by
    by_cases hzero : n = 0
    · simp [hzero]
    · exact Nat.lt_succ_iff.mp (Nat.log_lt_of_lt_pow hzero hn)
  have hbit : lastBit (n : ℚ) = -((52 - Nat.log 2 n : Nat) : ℤ) := by
    rw [lastBit, Nat.abs_cast, Int.log_natCast]
    omega
  have hulp := two_zpow_pos (lastBit (n : ℚ))
  have hscale : (n : ℚ) / 2 ^ lastBit (n : ℚ) = ((n * 2 ^ (52 - Nat.log 2 n) : Nat) : ℤ) := by
    rw [hbit, zpow_neg, zpow_natCast, div_inv_eq_mul]
    push_cast
    rfl
  have hround : (roundEven ((n : ℚ) / 2 ^ lastBit (n : ℚ)) : ℚ) * 2 ^ lastBit (n : ℚ) = n := by
    rw [hscale, roundEven_intCast, ← hscale, div_mul_cancel₀ _ hulp.ne']
  have hlt : |(n : ℚ)| < 2 ^ 1024 := by
    rw [Nat.abs_cast]
    exact_mod_cast Nat.lt_trans hn (Nat.pow_lt_pow_right (by omega) (by omega))
  rw [nearest, hround, if_pos hlt]

/-- Rounding does not go below a power of two. -/
theorem pow_log_le {q r : ℚ} (hq : 1 ≤ q) (h : nearest q = .finite r) :
    (2 : ℚ) ^ Int.log 2 q ≤ r := by
  have hpos : 0 < q := by linarith
  have hlog : 0 ≤ Int.log 2 q := by
    rw [Int.log_of_one_le_right 2 hq]
    exact Int.natCast_nonneg _
  have hbit : lastBit q = Int.log 2 q - 52 := by
    rw [lastBit, abs_of_pos hpos]
    omega
  have hself : (2 : ℚ) ^ Int.log 2 q ≤ q := by
    exact_mod_cast Int.zpow_log_le_self (by norm_num : 1 < 2) hpos
  have hulp := two_zpow_pos (lastBit q)
  have hscale : (2 : ℚ) ^ (52 : ℤ) ≤ q / 2 ^ lastBit q := by
    rw [le_div_iff₀ hulp, ← zpow_add₀ (by norm_num), hbit, add_sub_cancel]
    exact hself
  have hfloor : 2 ^ 52 ≤ ⌊q / 2 ^ lastBit q⌋ := by
    rw [Int.le_floor]
    exact_mod_cast hscale
  have hround : (2 : ℚ) ^ (52 : ℤ) ≤ roundEven (q / 2 ^ lastBit q) := by
    exact_mod_cast hfloor.trans (floor_le_roundEven _)
  rw [nearest] at h
  split_ifs at h
  rw [← JsNumber.finite.inj h]
  calc (2 : ℚ) ^ Int.log 2 q = 2 ^ (52 : ℤ) * 2 ^ lastBit q := by
        rw [← zpow_add₀ (by norm_num), hbit, add_sub_cancel]
    _ ≤ roundEven (q / 2 ^ lastBit q) * 2 ^ lastBit q :=
        mul_le_mul_of_nonneg_right hround hulp.le

/-- `1.0005 * 60 * 1000` is less than `1.0005 * 60000`. -/
example : ((nearest (10005 / 10000)).mul (.finite 60)).mul (.finite 1000) =
      .finite (60030 - 1 / 2 ^ 37) ∧
    (nearest (10005 / 10000)).mul (.finite 60000) = .finite 60030 := by decide +kernel

end Double
