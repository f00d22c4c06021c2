import WyzeCams.Lib.Utf8

/-! Base64: three bytes as four symbols, with and without padding, in both alphabets. -/
namespace Base64
open Utf8 (Bytes)

def symbol (n : Nat) : Char :=
  if n < 26 then Char.ofNat (65 + n)
  else if n < 52 then Char.ofNat (71 + n)
  else if n < 62 then Char.ofNat (n - 4)
  else if n = 62 then '+'
  else '/'

def value (c : Char) : Option Nat :=
  if 'A' ≤ c ∧ c ≤ 'Z' then some (c.toNat - 65)
  else if 'a' ≤ c ∧ c ≤ 'z' then some (c.toNat - 71)
  else if '0' ≤ c ∧ c ≤ '9' then some (c.toNat + 4)
  else if c = '+' then some 62
  else if c = '/' then some 63
  else none

def symbols : Bytes → List Char
  | a :: b :: c :: bs =>
    symbol (a.toNat / 4) :: symbol (a.toNat % 4 * 16 + b.toNat / 16) ::
      symbol (b.toNat % 16 * 4 + c.toNat / 64) :: symbol (c.toNat % 64) :: symbols bs
  | [a, b] =>
    [symbol (a.toNat / 4), symbol (a.toNat % 4 * 16 + b.toNat / 16), symbol (b.toNat % 16 * 4)]
  | [a] => [symbol (a.toNat / 4), symbol (a.toNat % 4 * 16)]
  | [] => []

def pad (t : List Char) : List Char := t ++ List.replicate ((4 - t.length % 4) % 4) '='

def encode (bs : Bytes) : List Char := pad (symbols bs)

/-- The bytes of the values of some symbols; bits that are left over are dropped. -/
def ofValues : List Nat → Bytes
  | a :: b :: c :: d :: l =>
    UInt8.ofNat (a * 4 + b / 16) :: UInt8.ofNat (b % 16 * 16 + c / 4) ::
      UInt8.ofNat (c % 4 * 64 + d) :: ofValues l
  | [a, b, c] => [UInt8.ofNat (a * 4 + b / 16), UInt8.ofNat (b % 16 * 16 + c / 4)]
  | [a, b] => [UInt8.ofNat (a * 4 + b / 16)]
  | _ => []

/-- `none` where one of the characters is no symbol. -/
def values : List Char → Option (List Nat)
  | [] => some []
  | c :: t => (value c).bind fun n => (values t).map fun l => n :: l

def toUrl (t : List Char) : List Char :=
  t.map fun c => if c = '+' then '-' else if c = '/' then '_' else c

def ofUrl (t : List Char) : List Char :=
  t.map fun c => if c = '-' then '+' else if c = '_' then '/' else c

def IsSymbol (c : Char) : Prop := ∃ n < 64, c = symbol n

theorem value_symbol {n : Nat} (h : n < 64) : value (symbol n) = some n :=
  (by decide : ∀ n < 64, value (symbol n) = some n) n h

theorem symbol_ne {n : Nat} (h : n < 64) : symbol n ≠ '=' ∧ symbol n ≠ '-' ∧ symbol n ≠ '_' :=
  (by decide : ∀ n < 64, symbol n ≠ '=' ∧ symbol n ≠ '-' ∧ symbol n ≠ '_') n h

theorem isSymbol_of_mem (bs : Bytes) : ∀ c ∈ symbols bs, IsSymbol c := by
  fun_induction symbols bs with
  | case1 a b c bs ih =>
    have ha := a.toNat_lt
    have hb := b.toNat_lt
    have hc := c.toNat_lt
    simp only [List.forall_mem_cons]
    exact ⟨⟨_, by omega, rfl⟩, ⟨_, by omega, rfl⟩, ⟨_, by omega, rfl⟩, ⟨_, by omega, rfl⟩, ih⟩
  | case2 a b =>
    have ha := a.toNat_lt
    have hb := b.toNat_lt
    simp only [List.forall_mem_cons, List.not_mem_nil, false_imp_iff, implies_true, and_true]
    exact ⟨⟨_, by omega, rfl⟩, ⟨_, by omega, rfl⟩, ⟨_, by omega, rfl⟩⟩
  | case3 a =>
    have ha := a.toNat_lt
    simp only [List.forall_mem_cons, List.not_mem_nil, false_imp_iff, implies_true, and_true]
    exact ⟨⟨_, by omega, rfl⟩, ⟨_, by omega, rfl⟩⟩
  | case4 => exact fun c hc => absurd hc List.not_mem_nil

/-- One symbol is never left over. -/
theorem length_symbols (bs : Bytes) : (symbols bs).length % 4 ≠ 1 := by
  fun_induction symbols bs with
  | case1 a b c bs ih =>
    simp only [List.length_cons]
    omega
  | case2 => simp
  | case3 => simp
  | case4 => simp

theorem ofNat_eq {b : UInt8} {n : Nat} (h : n = b.toNat) : UInt8.ofNat n = b := by
  rw [h, UInt8.ofNat_toNat]

theorem values_symbols (bs : Bytes) : (values (symbols bs)).map ofValues = some bs := by
  fun_induction symbols bs with
  | case1 a b c bs ih =>
    have ha := a.toNat_lt
    have hb := b.toNat_lt
    have hc := c.toNat_lt
    obtain ⟨l, hl, hbs⟩ := Option.map_eq_some_iff.mp ih
    simp only [values, value_symbol (show a.toNat / 4 < 64 by omega),
      value_symbol (show a.toNat % 4 * 16 + b.toNat / 16 < 64 by omega),
      value_symbol (show b.toNat % 16 * 4 + c.toNat / 64 < 64 by omega),
      value_symbol (show c.toNat % 64 < 64 by omega), hl, Option.bind_some, Option.map_some,
      ofValues, hbs]
    rw [ofNat_eq (by omega : _ = a.toNat), ofNat_eq (by omega : _ = b.toNat),
      ofNat_eq (by omega : _ = c.toNat)]
  | case2 a b =>
    have ha := a.toNat_lt
    have hb := b.toNat_lt
    simp only [values, value_symbol (show a.toNat / 4 < 64 by omega),
      value_symbol (show a.toNat % 4 * 16 + b.toNat / 16 < 64 by omega),
      value_symbol (show b.toNat % 16 * 4 < 64 by omega), Option.bind_some, Option.map_some,
      ofValues]
    rw [ofNat_eq (by omega : _ = a.toNat), ofNat_eq (by omega : _ = b.toNat)]
  | case3 a =>
    have ha := a.toNat_lt
    simp only [values, value_symbol (show a.toNat / 4 < 64 by omega),
      value_symbol (show a.toNat % 4 * 16 < 64 by omega), Option.bind_some, Option.map_some,
      ofValues]
    rw [ofNat_eq (by omega : _ = a.toNat)]
  | case4 => rfl

/-- The symbols of the alphabet for URLs are read as those they stand for. -/
theorem ofUrl_toUrl {t : List Char} (h : ∀ c ∈ t, c ≠ '-' ∧ c ≠ '_') : ofUrl (toUrl t) = t := by
  induction t with
  | nil => rfl
  | cons c t ih =>
    have ht := ih fun d hd => h d (List.mem_cons_of_mem c hd)
    obtain ⟨h1, h2⟩ := h c List.mem_cons_self
    rw [ofUrl, toUrl, List.map_map] at ht
    rw [ofUrl, toUrl, List.map_map, List.map_cons, ht]
    by_cases hplus : c = '+'
    · simp [hplus]
    · by_cases hslash : c = '/'
      · simp [hslash]
      · simp [hplus, hslash, h1, h2]

theorem ofUrl_eq {t : List Char} (h : ∀ c ∈ t, c ≠ '-' ∧ c ≠ '_') : ofUrl t = t := by
  induction t with
  | nil => rfl
  | cons c t ih =>
    obtain ⟨h1, h2⟩ := h c List.mem_cons_self
    rw [ofUrl, List.map_cons, if_neg h1, if_neg h2, ← ofUrl,
      ih fun d hd => h d (List.mem_cons_of_mem c hd)]

end Base64
