import Mathlib.Algebra.Group.Nat.Defs
import Mathlib.Data.List.Infix

/-! The JSON values of API bodies and token files, and the conversions that `src/index.js`
applies to them. -/
namespace WyzeCams.Api

/-- A value of a parsed JSON text, or `undefined` where a property is missing. Numbers are
integers: the code compares them only with integers. -/
inductive Value where
  | undefined
  | null
  | bool (b : Bool)
  | num (n : Int)
  | str (s : String)
  | arr (items : List Value)
  | obj (fields : List (String × Value))

namespace Value

def truthy : Value → Bool
  | undefined => false
  | null => false
  | bool b => b
  | num n => n != 0
  | str s => s != ""
  | arr _ => true
  | obj _ => true

/-- A property that may be missing; those of `undefined` and `null` are read with `?.` only. -/
def get : Value → String → Value
  | obj fields, name => (fields.lookup name).getD undefined
  | _, _ => undefined

def or (a b : Value) : Value := if a.truthy then a else b

def isNum : Value → Int → Bool
  | num m, n => m == n
  | _, _ => false

def isUndefined : Value → Bool
  | undefined => true
  | _ => false

/-- What a destructuring assignment throws a `TypeError` on. -/
def isNullish : Value → Bool
  | undefined => true
  | null => true
  | _ => false

end Value

def readDigits : List Char → Nat → Nat → Nat × Nat × List Char
  | [], value, count => (value, count, [])
  | c :: cs, value, count =>
    if c.isDigit then readDigits cs (10 * value + (c.toNat - '0'.toNat)) (count + 1)
    else (value, count, c :: cs)

def readExponent : List Char → Option Int
  | [] => some 0
  | c :: cs =>
    if c = 'e' ∨ c = 'E' then
      let (negative, digits) := match cs with
        | '-' :: ds => (true, ds)
        | '+' :: ds => (false, ds)
        | ds => (false, ds)
      match readDigits digits 0 0 with
      | (_, 0, _) => none
      | (value, _, []) => some (if negative then -(value : Int) else value)
      | _ => none
    else none

def readDecimal (cs : List Char) : Option (Nat × Int) :=
  let (whole, count, rest) := readDigits cs 0 0
  let (mantissa, places, rest) := match rest with
    | '.' :: ds => readDigits ds whole 0
    | _ => (whole, 0, rest)
  if count + places = 0 then none
  else (readExponent rest).map fun e => (mantissa, e - places)

/-- The double nearest to `mantissa * 10 ^ e` is 1: the number lies between `1 - 2⁻⁵⁴` and
`1 + 2⁻⁵³`, and both ends are rounded to the even neighbour. -/
def roundsToOne (mantissa : Nat) (e : Int) : Bool :=
  let numerator := mantissa * 10 ^ e.toNat
  let denominator := 10 ^ (-e).toNat
  decide ((2 ^ 54 - 1) * denominator ≤ 2 ^ 54 * numerator) &&
    decide (2 ^ 53 * numerator ≤ (2 ^ 53 + 1) * denominator)

def isWhitespace (c : Char) : Bool :=
  let n := c.toNat
  (9 ≤ n && n ≤ 13) || n == 0x20 || n == 0xa0 || n == 0x1680 || (0x2000 ≤ n && n ≤ 0x200a) ||
    n == 0x2028 || n == 0x2029 || n == 0x202f || n == 0x205f || n == 0x3000 || n == 0xfeff

/-- `Number(s) === 1`. -/
def textIsOne (s : String) : Bool :=
  let cs := ((s.toList.dropWhile isWhitespace).reverse.dropWhile isWhitespace).reverse
  let decimalIsOne (ds : List Char) : Bool :=
    ((readDecimal ds).map fun r => roundsToOne r.1 r.2).getD false
  match cs with
  | '0' :: c :: ds =>
    if c ∈ ['x', 'X', 'o', 'O', 'b', 'B'] then ds.dropWhile (· == '0') == ['1']
    else decimalIsOne cs
  | '+' :: ds => decimalIsOne ds
  | _ => decimalIsOne cs

/-- `Number(v) === 1`; an array is converted through its text. -/
def Value.numberIsOne : Value → Bool
  | bool b => b
  | num n => n == 1
  | str s => textIsOne s
  | arr [bool _] => false
  | arr [v] => v.numberIsOne
  | _ => false

/-- `toLowerCase`, as far as it yields ASCII: apart from the capitals only the Kelvin sign and
the dotted capital I do. -/
def lowerChar (c : Char) : List Char :=
  if 'A' ≤ c ∧ c ≤ 'Z' then [Char.ofNat (c.toNat + 32)]
  else if c = '\u212a' then ['k']
  else if c = '\u0130' then ['i', '\u0307']
  else [c]

def toLowerCase (s : String) : List Char := s.toList.flatMap lowerChar

def includes (text part : List Char) : Bool := text.tails.any fun rest => part.isPrefixOf rest

theorem readDigits_digits {ds : List Char} (h : ∀ c ∈ ds, c.isDigit = true) (value count : Nat) :
    readDigits ds value count = (Nat.ofDigitChars 10 ds value, count + ds.length, []) := by
  induction ds generalizing value count with
  | nil => simp [readDigits]
  | cons c cs ih =>
    have hrest : ∀ d ∈ cs, d.isDigit = true := fun d hd => h d (List.mem_cons_of_mem c hd)
    rw [readDigits, if_pos (h c List.mem_cons_self), ih hrest, Nat.ofDigitChars_cons,
      List.length_cons]
    simp only [Prod.mk.injEq, and_true, true_and]
    omega

theorem roundsToOne_nat (m : Nat) : roundsToOne m 0 = decide (m = 1) := by
  rw [roundsToOne, ← Bool.decide_and]
  apply decide_eq_decide.mpr
  simp only [Int.toNat_zero, Int.neg_zero, Nat.pow_zero, Nat.mul_one]
  omega

theorem readDecimal_digits {ds : List Char} (h : ∀ c ∈ ds, c.isDigit = true) (hne : ds ≠ []) :
    readDecimal ds = some (Nat.ofDigitChars 10 ds 0, 0) := by
  have hlen : ds.length ≠ 0 := fun h => hne (List.length_eq_zero_iff.mp h)
  rw [readDecimal, readDigits_digits h]
  simp [readExponent, hlen]

theorem not_isWhitespace_of_isDigit {c : Char} (h : c.isDigit = true) : isWhitespace c = false := by
  simp only [Char.isDigit, Bool.and_eq_true, decide_eq_true_eq] at h
  have hlow : 48 ≤ c.toNat := h.1
  have hhigh : c.toNat ≤ 57 := h.2
  simp only [isWhitespace, Bool.or_eq_false_iff, Bool.and_eq_false_iff, decide_eq_false_iff_not,
    beq_eq_false_iff_ne]
  omega

theorem dropWhile_of_head {p : Char → Bool} {cs : List Char} (h : ∀ c ∈ cs.head?, p c = false) :
    cs.dropWhile p = cs := by
  cases cs with
  | nil => rfl
  | cons c cs => rw [List.dropWhile_cons, if_neg (by simp [h c rfl])]

/-- A text that neither starts nor ends with whitespace is not trimmed. -/
theorem trim_of_ends {cs : List Char} (hfirst : ∀ c ∈ cs.head?, isWhitespace c = false)
    (hlast : ∀ c ∈ cs.getLast?, isWhitespace c = false) :
    ((cs.dropWhile isWhitespace).reverse.dropWhile isWhitespace).reverse = cs := by
  rw [dropWhile_of_head hfirst, dropWhile_of_head (by rwa [List.head?_reverse]),
    List.reverse_reverse]

theorem textIsOne_digits {ds : List Char} (h : ∀ c ∈ ds, c.isDigit = true) (hne : ds ≠ []) :
    textIsOne (String.ofList ds) = decide (Nat.ofDigitChars 10 ds 0 = 1) := by
  have hspace : ∀ c ∈ ds, isWhitespace c = false :=
    fun c hc => not_isWhitespace_of_isDigit (h c hc)
  have hdecimal : ((readDecimal ds).map fun r => roundsToOne r.1 r.2).getD false =
      decide (Nat.ofDigitChars 10 ds 0 = 1) := by
    rw [readDecimal_digits h hne, Option.map_some, Option.getD_some, roundsToOne_nat]
  have htrim := trim_of_ends (fun c hc => hspace c (List.mem_of_mem_head? hc))
    fun c hc => hspace c (List.mem_of_getLast? hc)
  simp only [textIsOne, String.toList_ofList, htrim]
  -- no digit is a sign or the letter of a radix prefix
  split
  · rename_i c cs
    have hdigit := h c (by simp)
    have hletters : ∀ d ∈ ['x', 'X', 'o', 'O', 'b', 'B'], d.isDigit = false := by simp
    have hradix : c ∉ ['x', 'X', 'o', 'O', 'b', 'B'] := by
      intro hmem
      rw [hletters c hmem] at hdigit
      cases hdigit
    rw [if_neg hradix]
    exact hdecimal
  · rename_i cs
    have hdigit := h '+' (by simp)
    cases hdigit
  · exact hdecimal

theorem textIsOne_minus (ds : List Char) (h : ∀ c ∈ ds, c.isDigit = true) :
    textIsOne (String.ofList ('-' :: ds)) = false := by
  have hlast : ∀ c ∈ ('-' :: ds).getLast?, isWhitespace c = false := by
    intro c hc
    obtain rfl | hc := List.mem_cons.mp (List.mem_of_getLast? hc)
    · rfl
    · exact not_isWhitespace_of_isDigit (h c hc)
  have htrim := @trim_of_ends ('-' :: ds) (fun c hc => by cases hc; rfl) hlast
  have hread : readDecimal ('-' :: ds) = none := by
    simp [readDecimal, readDigits]
  simp only [textIsOne, String.toList_ofList, htrim]
  rw [hread]
  rfl

/-- `Number(String(n)) === 1` says the same as `n === 1`. -/
theorem textIsOne_toString (n : Int) : textIsOne (toString n) = (n == 1) := by
  have hdigits : ∀ m : Nat, ∀ c ∈ Nat.toDigits 10 m, c.isDigit = true :=
    fun m c hc => Nat.isDigit_of_mem_toDigits (by omega) (by omega) hc
  rw [Int.toString_eq_repr, Int.repr_eq_if]
  split_ifs with hpos
  · rw [Nat.repr_eq_ofList_toDigits, textIsOne_digits (hdigits _) Nat.toDigits_ne_nil,
      Nat.ofDigitChars_ten_toDigits]
    rw [Bool.eq_iff_iff, decide_eq_true_iff, beq_iff_eq]
    omega
  · have hminus : "-" ++ (-n).toNat.repr = String.ofList ('-' :: Nat.toDigits 10 (-n).toNat) := by
      rw [Nat.repr_eq_ofList_toDigits, ← String.toList_inj]
      simp
    rw [hminus, textIsOne_minus _ (hdigits _)]
    exact (beq_false_of_ne (by omega)).symm
end WyzeCams.Api
