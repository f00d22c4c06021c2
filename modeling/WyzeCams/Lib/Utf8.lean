import Mathlib.Data.List.Basic
import Mathlib.Tactic.Common

/-! Texts and their UTF-8 bytes: what encoding a text twice does, and bytes written as
hexadecimal digits. -/
namespace Utf8

abbrev Bytes := List UInt8

def bytes (text : String) : Bytes := text.toList.flatMap String.utf8EncodeChar

def ofBytes (bs : Bytes) : String := String.ofList (bs.map fun b => Char.ofNat b.toNat)

def IsAscii (text : String) : Prop := ∀ c ∈ text.toList, c.toNat < 128

instance (text : String) : Decidable (IsAscii text) :=
  show Decidable (∀ c ∈ text.toList, c.toNat < 128) from List.decidableBAll _ _

theorem isAscii_append (s t : String) : IsAscii (s ++ t) ↔ IsAscii s ∧ IsAscii t := by
  simp only [IsAscii, String.toList_append, List.mem_append, or_imp, forall_and]

theorem utf8EncodeChar_of_lt {c : Char} (h : c.toNat < 128) :
    String.utf8EncodeChar c = [UInt8.ofNat c.toNat] := by
  have hval : c.val.toNat = c.toNat := rfl
  rw [String.utf8EncodeChar, if_pos (by omega), hval]

/-- Every character from 128 on ends with a continuation byte. -/
theorem utf8EncodeChar_of_not_lt {c : Char} (h : ¬ c.toNat < 128) :
    UInt8.ofNat (c.toNat % 0x40 + 0x80) ∈ String.utf8EncodeChar c := by
  have hval : c.val.toNat = c.toNat := rfl
  rw [String.utf8EncodeChar]
  simp only [hval]
  rw [if_neg (by omega)]
  split_ifs
  · exact List.mem_cons_of_mem _ List.mem_cons_self
  · exact List.mem_cons_of_mem _ (List.mem_cons_of_mem _ List.mem_cons_self)
  · exact List.mem_cons_of_mem _
      (List.mem_cons_of_mem _ (List.mem_cons_of_mem _ List.mem_cons_self))

theorem utf8EncodeChar_lt_iff (c : Char) :
    (∀ b ∈ String.utf8EncodeChar c, b.toNat < 128) ↔ c.toNat < 128 := by
  by_cases h : c.toNat < 128
  · rw [utf8EncodeChar_of_lt h]
    simp only [List.mem_singleton, forall_eq, UInt8.toNat_ofNat']
    omega
  · refine iff_of_false (fun hall => ?_) h
    have hlast := hall _ (utf8EncodeChar_of_not_lt h)
    rw [UInt8.toNat_ofNat'] at hlast
    omega

/-- A text is ASCII exactly when its bytes are below 128. -/
theorem bytes_lt_iff (text : String) : (∀ b ∈ bytes text, b.toNat < 128) ↔ IsAscii text := by
  simp only [bytes, List.mem_flatMap, IsAscii]
  constructor
  · exact fun h c hc => (utf8EncodeChar_lt_iff c).mp fun b hb => h b ⟨c, hc, hb⟩
  · rintro h b ⟨c, hc, hb⟩
    exact (utf8EncodeChar_lt_iff c).mpr (h c hc) b hb

theorem toNat_ofNat_byte (b : UInt8) : (Char.ofNat b.toNat).toNat = b.toNat := by
  have hb := b.toNat_lt
  rw [Char.ofNat, dif_pos (Or.inl (by omega))]
  rfl

theorem ofBytes_bytes {text : String} (h : IsAscii text) : ofBytes (bytes text) = text := by
  have hchars : ∀ cs : List Char, (∀ c ∈ cs, c.toNat < 128) →
      (cs.flatMap String.utf8EncodeChar).map (fun b => Char.ofNat b.toNat) = cs := by
    intro cs hcs
    induction cs with
    | nil => rfl
    | cons c cs ih =>
      have hc := hcs c List.mem_cons_self
      rw [List.flatMap_cons, List.map_append, ih fun d hd => hcs d (List.mem_cons_of_mem c hd)]
      rw [utf8EncodeChar_of_lt hc, List.map_singleton, UInt8.toNat_ofNat',
        Nat.mod_eq_of_lt (by omega), Char.ofNat_toNat]
      rfl
  rw [ofBytes, bytes, hchars text.toList h, String.ofList_toList]

/-- Encoding the text of some bytes doubles the bytes from 128 on. -/
theorem length_bytes_ofBytes (bs : Bytes) :
    (bytes (ofBytes bs)).length = bs.length + bs.countP fun b => 128 ≤ b.toNat := by
  rw [bytes, ofBytes, String.toList_ofList]
  induction bs with
  | nil => rfl
  | cons b bs ih =>
    rw [List.map_cons, List.flatMap_cons, List.length_append, ih, List.length_cons,
      List.countP_cons, String.length_utf8EncodeChar]
    have hb := b.toNat_lt
    have hsize : (Char.ofNat b.toNat).utf8Size = if 128 ≤ b.toNat then 2 else 1 := by
      have hval := toNat_ofNat_byte b
      have hnat : (Char.ofNat b.toNat).val.toNat = b.toNat := hval
      split_ifs with hge
      · rw [Char.utf8Size_eq_two_iff, UInt32.lt_iff_toNat_lt, UInt32.le_iff_toNat_le, hnat]
        exact ⟨(by simp; omega), (by simp; omega)⟩
      · rw [Char.utf8Size_eq_one_iff, UInt32.le_iff_toNat_le, hnat]
        simp
        omega
    rw [hsize]
    by_cases hge : 128 ≤ b.toNat
    · rw [if_pos hge, if_pos (decide_eq_true hge)]
      omega
    · rw [if_neg hge, if_neg (by simpa using hge)]
      omega

/-- A text has the same bytes after its bytes were taken for characters exactly when it is
ASCII. -/
theorem bytes_twice_iff (text : String) :
    bytes (ofBytes (bytes text)) = bytes text ↔ IsAscii text := by
  constructor
  · intro h
    have hlen := congrArg List.length h
    rw [length_bytes_ofBytes] at hlen
    have hcount : (bytes text).countP (fun b => 128 ≤ b.toNat) = 0 := by omega
    rw [← bytes_lt_iff]
    intro b hb
    have hb' := List.countP_eq_zero.mp hcount b hb
    simpa using hb'
  · intro h
    rw [ofBytes_bytes h]

def hex (bs : Bytes) : String :=
  String.ofList (bs.flatMap fun b => [Nat.digitChar (b.toNat / 16), Nat.digitChar (b.toNat % 16)])

theorem digitChar_inj : ∀ m < 16, ∀ n < 16, Nat.digitChar m = Nat.digitChar n → m = n := by
  decide

theorem digitChar_lt : ∀ n < 16, (Nat.digitChar n).toNat < 128 := by decide

theorem isAscii_hex (bs : Bytes) : IsAscii (hex bs) := by
  intro c hc
  rw [hex, String.toList_ofList, List.mem_flatMap] at hc
  obtain ⟨b, -, hb⟩ := hc
  have hlt := b.toNat_lt
  rcases List.mem_cons.mp hb with rfl | hb
  · exact digitChar_lt _ (by omega)
  · rw [List.mem_singleton.mp hb]
    exact digitChar_lt _ (by omega)

theorem hex_inj {bs bs' : Bytes} (h : hex bs = hex bs') : bs = bs' := by
  rw [hex, hex, String.ofList_inj] at h
  induction bs generalizing bs' with
  | nil =>
    cases bs' with
    | nil => rfl
    | cons b' bs' => simp at h
  | cons b bs ih =>
    cases bs' with
    | nil => simp at h
    | cons b' bs' =>
      rw [List.flatMap_cons, List.flatMap_cons, List.cons_append, List.cons_append,
        List.cons_append, List.cons_append] at h
      obtain ⟨hhigh, hrest⟩ := List.cons.inj h
      obtain ⟨hlow, hrest⟩ := List.cons.inj hrest
      have hb := b.toNat_lt
      have hb' := b'.toNat_lt
      have hdiv := digitChar_inj _ (by omega) _ (by omega) hhigh
      have hmod := digitChar_inj _ (by omega) _ (by omega) hlow
      have hbyte : b = b' := UInt8.toNat_inj.mp (by omega)
      rw [hbyte, ih hrest]

/-- Hexadecimal digits are read back from their bytes. -/
theorem bytes_hex_inj {bs bs' : Bytes} (h : bytes (hex bs) = bytes (hex bs')) : bs = bs' := by
  apply hex_inj
  rw [← ofBytes_bytes (isAscii_hex bs), h, ofBytes_bytes (isAscii_hex bs')]

end Utf8
