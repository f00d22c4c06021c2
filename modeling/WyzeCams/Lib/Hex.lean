import Mathlib.Tactic.Common

/-! Hexadecimal digits. -/
namespace Hex

def lower (n : Nat) : Char := if n < 10 then Char.ofNat (48 + n) else Char.ofNat (87 + n)

def upper (n : Nat) : Char := if n < 10 then Char.ofNat (48 + n) else Char.ofNat (55 + n)

def value (c : Char) : Option Nat :=
  if '0' ≤ c ∧ c ≤ '9' then some (c.toNat - 48)
  else if 'a' ≤ c ∧ c ≤ 'f' then some (c.toNat - 87)
  else if 'A' ≤ c ∧ c ≤ 'F' then some (c.toNat - 55)
  else none

theorem value_lower {n : Nat} (h : n < 16) : value (lower n) = some n :=
  (by decide : ∀ n < 16, value (lower n) = some n) n h

theorem value_upper {n : Nat} (h : n < 16) : value (upper n) = some n :=
  (by decide : ∀ n < 16, value (upper n) = some n) n h

end Hex
