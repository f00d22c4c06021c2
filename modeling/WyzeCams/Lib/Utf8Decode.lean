import WyzeCams.Lib.Utf8

/-! Reading UTF-8: the character at the head of some bytes, and a whole buffer, in which what is
no UTF-8 becomes U+FFFD. -/
namespace Utf8

def encode (text : List Char) : Bytes := text.flatMap String.utf8EncodeChar

def decodeChar (bs : Bytes) : Option Char := bs.toByteArray.utf8DecodeChar? 0

def secondFits (b c : UInt8) : Bool :=
  if b = 0xE0 then 0xA0 ≤ c && c ≤ 0xBF
  else if b = 0xED then 0x80 ≤ c && c ≤ 0x9F
  else if b = 0xF0 then 0x90 ≤ c && c ≤ 0xBF
  else if b = 0xF4 then 0x80 ≤ c && c ≤ 0x8F
  else 0xE1 ≤ b && b ≤ 0xF3 && 0x80 ≤ c && c ≤ 0xBF

/-- How many bytes one U+FFFD stands for, where no character can be read: the longest start of
an encoding, or one byte. -/
def subpart : Bytes → Nat
  | b :: c :: d :: _ =>
    if secondFits b c then if 0xF0 ≤ b && 0x80 ≤ d && d ≤ 0xBF then 3 else 2 else 1
  | [b, c] => if secondFits b c then 2 else 1
  | _ => 1

/-- `buffer.toString("utf8")` behind the next `k` bytes, which have been read. -/
def toTextFrom : Nat → Bytes → List Char
  | _, [] => []
  | k + 1, _ :: bs => toTextFrom k bs
  | 0, b :: bs =>
    match decodeChar (b :: bs) with
    | some c => c :: toTextFrom (c.utf8Size - 1) bs
    | none => Char.ofNat 0xFFFD :: toTextFrom (subpart (b :: bs) - 1) bs

def toText (bs : Bytes) : List Char := toTextFrom 0 bs

theorem decodeChar_append (c : Char) (bs : Bytes) :
    decodeChar (String.utf8EncodeChar c ++ bs) = some c := by
  rw [decodeChar, List.toByteArray_append]
  exact ByteArray.utf8DecodeChar?_utf8EncodeChar_append

theorem toTextFrom_append {k : Nat} (bs bs' : Bytes) (h : bs.length = k) :
    toTextFrom k (bs ++ bs') = toTextFrom 0 bs' := by
  induction bs generalizing k with
  | nil =>
    cases h
    rfl
  | cons b bs ih =>
    cases h
    exact ih rfl

theorem toTextFrom_char (c : Char) (bs : Bytes) :
    toTextFrom 0 (String.utf8EncodeChar c ++ bs) = c :: toTextFrom 0 bs := by
  have hlen := String.length_utf8EncodeChar c
  have hdecode := decodeChar_append c bs
  cases henc : String.utf8EncodeChar c with
  | nil =>
    rw [henc] at hlen
    have hpos := Char.utf8Size_pos c
    simp at hlen
    omega
  | cons b rest =>
    rw [henc, List.cons_append] at hdecode
    rw [henc, List.length_cons] at hlen
    rw [List.cons_append, toTextFrom, hdecode]
    dsimp only
    rw [toTextFrom_append rest bs (by omega)]

theorem toText_encode (text : List Char) : toText (encode text) = text := by
  induction text with
  | nil => rfl
  | cons c text ih =>
    rw [encode, List.flatMap_cons, toText, toTextFrom_char]
    exact congrArg (c :: ·) ih

theorem le_toNat_ofNat {n : Nat} (h : 128 ≤ n) (h' : n < 256) : 128 ≤ (UInt8.ofNat n).toNat := by
  rw [UInt8.toNat_ofNat']
  omega

/-- The bytes of a character that is not ASCII are not ASCII either. -/
theorem le_of_mem_utf8EncodeChar {c : Char} (h : 128 ≤ c.toNat) :
    ∀ b ∈ String.utf8EncodeChar c, 128 ≤ b.toNat := by
  have hval : c.val.toNat = c.toNat := rfl
  have hlt : c.toNat < 0x110000 := by
    rcases c.valid with hv | ⟨-, hv⟩ <;> omega
  rw [String.utf8EncodeChar]
  simp only [hval]
  rw [if_neg (by omega)]
  split_ifs
  · simp only [List.forall_mem_cons, List.not_mem_nil, false_imp_iff, implies_true, and_true]
    exact ⟨le_toNat_ofNat (by omega) (by omega), le_toNat_ofNat (by omega) (by omega)⟩
  · simp only [List.forall_mem_cons, List.not_mem_nil, false_imp_iff, implies_true, and_true]
    exact ⟨le_toNat_ofNat (by omega) (by omega), le_toNat_ofNat (by omega) (by omega),
      le_toNat_ofNat (by omega) (by omega)⟩
  · simp only [List.forall_mem_cons, List.not_mem_nil, false_imp_iff, implies_true, and_true]
    exact ⟨le_toNat_ofNat (by omega) (by omega), le_toNat_ofNat (by omega) (by omega),
      le_toNat_ofNat (by omega) (by omega), le_toNat_ofNat (by omega) (by omega)⟩

end Utf8
