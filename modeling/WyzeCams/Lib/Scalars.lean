import WyzeCams.Lib.Utf16
import WyzeCams.Lib.Utf8Decode

/-! The characters of JavaScript strings, and their UTF-8 bytes. -/
namespace Utf16
open Utf8 (Bytes bytes)

/-- The character of a code unit outside a pair; none for a surrogate that stands alone. -/
def alone (u : UInt16) : Option Char :=
  if IsHigh u ∨ IsLow u then none else some (Char.ofNat u.toNat)

def chars : JsString → List (Option Char)
  | [] => []
  | [u] => [alone u]
  | u :: v :: s =>
    if IsHigh u ∧ IsLow v then some (pair u v) :: chars s else alone u :: chars (v :: s)

def WellFormed (s : JsString) : Prop := none ∉ chars s

instance (s : JsString) : Decidable (WellFormed s) := inferInstanceAs (Decidable (¬ _))

/-- The text, with U+FFFD for a surrogate that stands alone. -/
def toText (s : JsString) : List Char := (chars s).map fun c => c.getD (Char.ofNat 0xFFFD)

def utf8 (s : JsString) : Bytes := Utf8.encode (toText s)

def ofBytes (bs : Bytes) : JsString := bs.map fun b => UInt16.ofNat b.toNat

def IsAscii (s : JsString) : Prop := ∀ u ∈ s, u.toNat < 128

instance (s : JsString) : Decidable (IsAscii s) :=
  List.decidableBAll (fun u : UInt16 => u.toNat < 128) s

theorem isAscii_append {s t : JsString} : IsAscii (s ++ t) ↔ IsAscii s ∧ IsAscii t := by
  simp only [IsAscii, List.mem_append, or_imp, forall_and]

variable {s : JsString}

theorem chars_cons {u : UInt16} (hu : ¬ IsHigh u) (s : JsString) :
    chars (u :: s) = alone u :: chars s := by
  cases s with
  | nil => rfl
  | cons v s => rw [chars, if_neg fun h => hu h.1]

theorem chars_units (c : Char) (s : JsString) : chars (units c ++ s) = some c :: chars s := by
  rcases units_inv c with ⟨u, hu, hhigh, hlow, hc⟩ | ⟨u, v, huv, hhigh, hlow, hc⟩
  · rw [hu, List.singleton_append, chars_cons hhigh, alone, if_neg (not_or.mpr ⟨hhigh, hlow⟩), hc]
  · rw [huv, List.cons_append, List.singleton_append, chars, if_pos ⟨hhigh, hlow⟩, hc]

theorem chars_ofText (t : List Char) : chars (ofText t) = t.map some := by
  induction t with
  | nil => rfl
  | cons c t ih => rw [ofText_cons, chars_units, ih, List.map_cons]

theorem toText_ofText (t : List Char) : toText (ofText t) = t := by
  rw [toText, chars_ofText, List.map_map]
  exact List.map_id t

theorem ofText_injective : Function.Injective ofText := by
  intro t t' h
  rw [← toText_ofText t, h, toText_ofText]

theorem js_injective : Function.Injective js :=
  fun _ _ h => String.toList_inj.mp (ofText_injective h)

theorem units_alone {u : UInt16} {c : Char} (h : alone u ≠ none) :
    units ((alone u).getD c) = [u] := by
  rw [alone] at h ⊢
  split_ifs at h ⊢ with hsurrogate
  · exact absurd rfl h
  · rw [not_or] at hsurrogate
    exact units_char hsurrogate.1 hsurrogate.2

/-- A well-formed string is that of its text. -/
theorem ofText_toText (h : WellFormed s) : ofText (toText s) = s := by
  rw [WellFormed] at h
  rw [ofText, toText, List.flatMap_map]
  fun_induction chars s with
  | case1 => rfl
  | case2 u =>
    rw [List.mem_singleton] at h
    rw [List.flatMap_singleton, units_alone (Ne.symm h)]
  | case3 u v s hpair ih =>
    rw [List.mem_cons, not_or] at h
    rw [List.flatMap_cons, ih h.2, Option.getD_some, units_pair hpair.1 hpair.2]
    rfl
  | case4 u v s hpair ih =>
    rw [List.mem_cons, not_or] at h
    rw [List.flatMap_cons, ih h.2, units_alone (Ne.symm h.1)]
    rfl

theorem isAscii_ofText (t : List Char) : IsAscii (ofText t) ↔ ∀ c ∈ t, c.toNat < 128 := by
  induction t with
  | nil => simp [IsAscii, ofText]
  | cons c t ih =>
    have hunits : IsAscii (units c) ↔ c.toNat < 128 := by
      rw [units]
      split_ifs with hc
      · simp only [IsAscii, List.mem_singleton, forall_eq, UInt16.toNat_ofNat']
        omega
      · simp only [IsAscii, List.forall_mem_cons, UInt16.toNat_ofNat']
        omega
    rw [ofText_cons, isAscii_append, hunits, ih, List.forall_mem_cons]

theorem alone_ascii {u : UInt16} (hu : u.toNat < 256) : alone u = some (Char.ofNat u.toNat) := by
  rw [alone, if_neg]
  rw [IsHigh, IsLow]
  omega

theorem chars_low (h : ∀ u ∈ s, u.toNat < 256) :
    chars s = s.map fun u => some (Char.ofNat u.toNat) := by
  induction s with
  | nil => rfl
  | cons u s ih =>
    have hu := h u List.mem_cons_self
    have hhigh : ¬ IsHigh u := by
      rw [IsHigh]
      omega
    rw [chars_cons hhigh, alone_ascii hu, ih fun v hv => h v (List.mem_cons_of_mem u hv),
      List.map_cons]

theorem wellFormed_of_ascii (h : IsAscii s) : WellFormed s := by
  rw [WellFormed, chars_low fun u hu => Nat.lt_trans (h u hu) (by decide)]
  simp

theorem utf8_ofText (t : List Char) : utf8 (ofText t) = Utf8.encode t := by
  rw [utf8, toText_ofText]

theorem utf8_js (t : String) : utf8 (js t) = bytes t := utf8_ofText t.toList

/-- One code unit for each byte is one character for each byte. -/
theorem ofBytes_eq (bs : Bytes) : ofBytes bs = js (Utf8.ofBytes bs) := by
  rw [js, Utf8.ofBytes, String.toList_ofList]
  induction bs with
  | nil => rfl
  | cons b bs ih =>
    have hb := b.toNat_lt
    have hunit : units (Char.ofNat b.toNat) = [UInt16.ofNat b.toNat] := by
      rw [units, Utf8.toNat_ofNat_byte, if_pos (by omega)]
    rw [List.map_cons, ofText_cons, ← ih, hunit]
    rfl

theorem utf8_ofBytes (bs : Bytes) : utf8 (ofBytes bs) = bytes (Utf8.ofBytes bs) := by
  rw [ofBytes_eq, utf8_js]

theorem isAscii_iff (h : WellFormed s) : IsAscii s ↔ Utf8.IsAscii (String.ofList (toText s)) := by
  rw [Utf8.IsAscii, String.toList_ofList, ← isAscii_ofText, ofText_toText h]

theorem utf8_eq_bytes (s : JsString) : utf8 s = bytes (String.ofList (toText s)) := by
  rw [bytes, String.toList_ofList]
  rfl

/-- A well-formed string has the same bytes after its bytes were taken for characters exactly when
it is ASCII. -/
theorem utf8_twice_iff (h : WellFormed s) : utf8 (ofBytes (utf8 s)) = utf8 s ↔ IsAscii s := by
  rw [utf8_ofBytes, utf8_eq_bytes, Utf8.bytes_twice_iff, isAscii_iff h]

/-- An ASCII string is written with its bytes. -/
theorem ofBytes_utf8 (h : IsAscii s) : ofBytes (utf8 s) = s := by
  have hs := wellFormed_of_ascii h
  rw [ofBytes_eq, utf8_eq_bytes, Utf8.ofBytes_bytes ((isAscii_iff hs).mp h), js,
    String.toList_ofList,
    ofText_toText hs]

end Utf16
