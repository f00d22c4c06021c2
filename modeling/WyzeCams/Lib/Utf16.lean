import Mathlib.Tactic.Common

/-! JavaScript strings: lists of UTF-16 code units, in which a surrogate may stand alone. -/
namespace Utf16

abbrev JsString := List UInt16

def IsHigh (u : UInt16) : Prop := 0xD800 ≤ u.toNat ∧ u.toNat < 0xDC00

def IsLow (u : UInt16) : Prop := 0xDC00 ≤ u.toNat ∧ u.toNat < 0xE000

instance (u : UInt16) : Decidable (IsHigh u) := inferInstanceAs (Decidable (_ ∧ _))

instance (u : UInt16) : Decidable (IsLow u) := inferInstanceAs (Decidable (_ ∧ _))

def units (c : Char) : JsString :=
  if c.toNat < 0x10000 then [UInt16.ofNat c.toNat]
  else [UInt16.ofNat (0xD800 + (c.toNat - 0x10000) / 0x400),
    UInt16.ofNat (0xDC00 + (c.toNat - 0x10000) % 0x400)]

def ofText (text : List Char) : JsString := text.flatMap units

def js (text : String) : JsString := ofText text.toList

theorem ofText_cons (c : Char) (text : List Char) : ofText (c :: text) = units c ++ ofText text :=
  List.flatMap_cons

theorem ofText_singleton (c : Char) : ofText [c] = units c := List.append_nil _

theorem ofText_append (s t : List Char) : ofText (s ++ t) = ofText s ++ ofText t :=
  List.flatMap_append

def pair (u v : UInt16) : Char :=
  Char.ofNat (0x10000 + (u.toNat - 0xD800) * 0x400 + (v.toNat - 0xDC00))

theorem toNat_ofNat_of_valid {n : Nat} (h : n.isValidChar) : (Char.ofNat n).toNat = n := by
  rw [Char.ofNat, dif_pos h]
  rfl

theorem toNat_pair {u v : UInt16} (hu : IsHigh u) (hv : IsLow v) :
    (pair u v).toNat = 0x10000 + (u.toNat - 0xD800) * 0x400 + (v.toNat - 0xDC00) := by
  obtain ⟨hu1, hu2⟩ := hu
  obtain ⟨hv1, hv2⟩ := hv
  rw [pair, toNat_ofNat_of_valid]
  right
  omega

theorem units_pair {u v : UInt16} (hu : IsHigh u) (hv : IsLow v) : units (pair u v) = [u, v] := by
  have hn := toNat_pair hu hv
  obtain ⟨hu1, hu2⟩ := hu
  obtain ⟨hv1, hv2⟩ := hv
  rw [units, if_neg (by omega)]
  have hhigh : 0xD800 + ((pair u v).toNat - 0x10000) / 0x400 = u.toNat := by omega
  have hlow : 0xDC00 + ((pair u v).toNat - 0x10000) % 0x400 = v.toNat := by omega
  rw [hhigh, hlow, UInt16.ofNat_toNat, UInt16.ofNat_toNat]

/-- A code unit that is no surrogate is a character by itself. -/
theorem toNat_char {u : UInt16} (hu : ¬ IsHigh u) (hl : ¬ IsLow u) :
    (Char.ofNat u.toNat).toNat = u.toNat := by
  have hlt : u.toNat < 65536 := u.toNat_lt
  rw [IsHigh] at hu
  rw [IsLow] at hl
  apply toNat_ofNat_of_valid
  by_cases h : u.toNat < 0xD800
  · exact .inl h
  · exact .inr (by omega)

theorem units_char {u : UInt16} (hu : ¬ IsHigh u) (hl : ¬ IsLow u) :
    units (Char.ofNat u.toNat) = [u] := by
  have hn := toNat_char hu hl
  have hlt : u.toNat < 65536 := u.toNat_lt
  rw [units, hn, if_pos (by omega), UInt16.ofNat_toNat]

/-- A character is one unit, or a pair of surrogates. -/
theorem units_inv (c : Char) :
    (∃ u, units c = [u] ∧ ¬ IsHigh u ∧ ¬ IsLow u ∧ Char.ofNat u.toNat = c) ∨
      ∃ u v, units c = [u, v] ∧ IsHigh u ∧ IsLow v ∧ pair u v = c := by
  have hvalid : c.toNat < 0xD800 ∨ 0xDFFF < c.toNat ∧ c.toNat < 0x110000 := c.valid
  rw [units]
  split_ifs with hlow
  · have hu : (UInt16.ofNat c.toNat).toNat = c.toNat := by
      rw [UInt16.toNat_ofNat']
      omega
    refine .inl ⟨_, rfl, ?_, ?_, by rw [hu, Char.ofNat_toNat]⟩
    · rw [IsHigh, hu]
      omega
    · rw [IsLow, hu]
      omega
  · have hu : (UInt16.ofNat (0xD800 + (c.toNat - 0x10000) / 0x400)).toNat =
        0xD800 + (c.toNat - 0x10000) / 0x400 := by
      rw [UInt16.toNat_ofNat']
      omega
    have hv : (UInt16.ofNat (0xDC00 + (c.toNat - 0x10000) % 0x400)).toNat =
        0xDC00 + (c.toNat - 0x10000) % 0x400 := by
      rw [UInt16.toNat_ofNat']
      omega
    have hhigh : IsHigh (UInt16.ofNat (0xD800 + (c.toNat - 0x10000) / 0x400)) := by
      rw [IsHigh, hu]
      omega
    have hlow : IsLow (UInt16.ofNat (0xDC00 + (c.toNat - 0x10000) % 0x400)) := by
      rw [IsLow, hv]
      omega
    refine .inr ⟨_, _, rfl, hhigh, hlow, Char.toNat_inj.mp ?_⟩
    rw [toNat_pair hhigh hlow, hu, hv]
    omega

end Utf16
