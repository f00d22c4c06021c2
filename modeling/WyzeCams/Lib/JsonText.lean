import WyzeCams.Lib.Json

/-! What `JSON.parse` makes of the texts that `JSON.stringify` writes. -/
namespace Json
open Utf16

def Spaces (w : List Char) : Prop := ∀ c ∈ w, isSpace c = true

theorem spaces_nil : Spaces [] := fun _ h => absurd h List.not_mem_nil

theorem spaces_append {w w' : List Char} (h : Spaces w) (h' : Spaces w') : Spaces (w ++ w') := by
  intro c hc
  rcases List.mem_append.mp hc with hc | hc
  · exact h c hc
  · exact h' c hc

theorem spaces_newline {gap indent : List Char} (h : Spaces indent) :
    Spaces (newline gap indent) := by
  unfold newline
  split_ifs
  · exact spaces_nil
  · intro c hc
    rcases List.mem_cons.mp hc with rfl | hc
    · decide
    · exact h c hc

theorem spaces_pad (gap : List Char) : Spaces (pad gap) := by
  unfold pad
  split_ifs
  · exact spaces_nil
  · intro c hc
    rw [List.mem_singleton.mp hc]
    decide

theorem skip_cons {c : Char} {r : List Char} (h : isSpace c = false) : skip (c :: r) = c :: r := by
  rw [skip, List.dropWhile_cons_of_neg (by simp [h])]

theorem skip_append {w t : List Char} (h : Spaces w) : skip (w ++ t) = skip t := by
  induction w with
  | nil => rfl
  | cons c w ih =>
    rw [List.cons_append, skip, List.dropWhile_cons_of_pos (h c List.mem_cons_self)]
    exact ih fun d hd => h d (List.mem_cons_of_mem c hd)

theorem skip_token {w r : List Char} {c : Char} (h : Spaces w) (hc : isSpace c = false) :
    skip (w ++ c :: r) = c :: r := by
  rw [skip_append h, skip_cons hc]

theorem expect_self {w r : List Char} {c : Char} (h : Spaces w) (hc : isSpace c = false) :
    expect c (w ++ c :: r) = some r := by
  rw [expect, skip_token h hc]
  exact if_pos rfl

theorem expect_other {w r : List Char} {c d : Char} (h : Spaces w) (hd : isSpace d = false)
    (hne : d ≠ c) : expect c (w ++ d :: r) = none := by
  rw [expect, skip_token h hd]
  exact if_neg hne

theorem readHex_digits (u : UInt16) (r : List Char) :
    readHex (Hex.lower (u.toNat / 4096) :: Hex.lower (u.toNat / 256 % 16) ::
      Hex.lower (u.toNat / 16 % 16) :: Hex.lower (u.toNat % 16) :: r) = some (u, r) := by
  have hlt : u.toNat < 65536 := u.toNat_lt
  have hdigits : ((u.toNat / 4096 * 16 + u.toNat / 256 % 16) * 16 + u.toNat / 16 % 16) * 16 +
      u.toNat % 16 = u.toNat := by omega
  simp only [readHex, Hex.value_lower (show u.toNat / 4096 < 16 by omega),
    Hex.value_lower (show u.toNat / 256 % 16 < 16 by omega),
    Hex.value_lower (show u.toNat / 16 % 16 < 16 by omega),
    Hex.value_lower (show u.toNat % 16 < 16 by omega), Option.bind_eq_bind, Option.bind_some,
    hdigits, UInt16.ofNat_toNat]

def Spells (text : List Char) (us : JsString) : Prop :=
  ∀ n r, readString (n + 1) (text ++ r) = (readString n r).map fun p => (us ++ p.1, p.2)

theorem readString_slash (n : Nat) (r : List Char) :
    readString (n + 1) ('\\' :: r) =
      (readEscape r).bind fun p => (readString n p.2).map fun q => (p.1 ++ q.1, q.2) := by
  rw [readString, if_neg (by decide), if_pos rfl]

theorem spells_escape {c : Char} {u : UInt16} (hu : c ≠ 'u') (h : simpleEscape c = some u) :
    Spells ['\\', c] [u] := by
  intro n r
  have hread : readEscape (c :: r) = some ([u], r) := by
    rw [readEscape, if_neg hu, h, Option.map_some]
  rw [List.cons_append, List.cons_append, List.nil_append, readString_slash, hread,
    Option.bind_some]

theorem spells_unicode (u : UInt16) : Spells (unicodeEscape u) [u] := by
  intro n r
  have hread : readEscape ('u' :: Hex.lower (u.toNat / 4096) :: Hex.lower (u.toNat / 256 % 16) ::
      Hex.lower (u.toNat / 16 % 16) :: Hex.lower (u.toNat % 16) :: r) = some ([u], r) := by
    rw [readEscape, if_pos rfl, readHex_digits, Option.map_some]
  rw [unicodeEscape, List.cons_append, readString_slash]
  exact (congrArg (Option.bind · _) hread).trans (Option.bind_some _ _)

theorem spells_char {c : Char} (hquote : c ≠ '"') (hslash : c ≠ '\\') (h : ¬ c.toNat < 32) :
    Spells [c] (units c) := by
  intro n r
  rw [List.cons_append, List.nil_append, readString, if_neg hquote, if_neg hslash, if_neg h]

theorem spells_quoteChar (c : Char) : Spells (quoteChar c) (units c) := by
  unfold quoteChar
  split_ifs with h1 h2 h3 h4 h5 h6 h7 h8
  · rw [h1]
    exact spells_escape (by decide) rfl
  · rw [h2]
    exact spells_escape (by decide) rfl
  · rw [h3]
    exact spells_escape (by decide) rfl
  · rw [h4]
    exact spells_escape (by decide) rfl
  · rw [h5]
    exact spells_escape (by decide) rfl
  · rw [h6]
    exact spells_escape (by decide) rfl
  · rw [h7]
    exact spells_escape (by decide) rfl
  · rw [units, if_pos (by omega)]
    exact spells_unicode _
  · exact spells_char h1 h2 h8

theorem spells_quoteUnit (u : UInt16) : Spells (quoteUnit u) [u] := by
  unfold quoteUnit
  split_ifs with h
  · exact spells_unicode u
  · rw [not_or] at h
    rw [← units_char h.1 h.2]
    exact spells_quoteChar _

theorem quoteChar_ne_nil (c : Char) : quoteChar c ≠ [] := by
  unfold quoteChar unicodeEscape
  split_ifs <;> exact List.cons_ne_nil _ _

theorem quoteUnit_ne_nil (u : UInt16) : quoteUnit u ≠ [] := by
  unfold quoteUnit
  split_ifs
  · exact List.cons_ne_nil _ _
  · exact quoteChar_ne_nil _

/-- A quoted string is read back, whatever its code units are. -/
theorem readString_quoteBody (s : JsString) {n : Nat} (hn : (quoteBody s).length < n)
    (r : List Char) : readString n (quoteBody s ++ '"' :: r) = some (s, r) := by
  cases n with
  | zero => exact absurd hn (Nat.not_lt_zero _)
  | succ n =>
    fun_induction quoteBody s generalizing n with
    | case1 => rfl
    | case2 u =>
      have hpos := List.length_pos_iff.mpr (quoteUnit_ne_nil u)
      cases n with
      | zero => omega
      | succ n => exact spells_quoteUnit u (n + 1) _
    | case3 u v rest h ih =>
      have hpos := List.length_pos_iff.mpr (quoteChar_ne_nil (pair u v))
      rw [List.length_append] at hn
      cases n with
      | zero => omega
      | succ n =>
        rw [List.append_assoc, spells_quoteChar, ih n (by omega), units_pair h.1 h.2]
        rfl
    | case4 u v rest h ih =>
      have hpos := List.length_pos_iff.mpr (quoteUnit_ne_nil u)
      rw [List.length_append] at hn
      cases n with
      | zero => omega
      | succ n =>
        rw [List.append_assoc, spells_quoteUnit, ih n (by omega)]
        rfl

theorem isNumberChar_of_isDigit {c : Char} (h : isDigit c = true) : isNumberChar c = true := by
  rw [isNumberChar, h]
  rfl

theorem isNumberChar_of_isDigits {t : List Char} (h : isDigits t = true) :
    ∀ c ∈ t, isNumberChar c = true := by
  rw [isDigits, Bool.and_eq_true, List.all_eq_true] at h
  exact fun c hc => isNumberChar_of_isDigit (h.2 c hc)

/-- Digits in front of characters of a number. -/
theorem isNumberChar_dropWhile {t : List Char}
    (h : ∀ c ∈ t.dropWhile isDigit, isNumberChar c = true) : ∀ c ∈ t, isNumberChar c = true := by
  induction t with
  | nil => exact h
  | cons d t ih =>
    by_cases hd : isDigit d = true
    · rw [List.dropWhile_cons_of_pos hd] at h
      exact List.forall_mem_cons.mpr ⟨isNumberChar_of_isDigit hd, ih h⟩
    · rwa [List.dropWhile_cons_of_neg hd] at h

theorem isNumberChar_of_isSigned {t : List Char} (h : isSigned t = true) :
    ∀ c ∈ t, isNumberChar c = true := by
  cases t with
  | nil => cases h
  | cons c r =>
    rw [isSigned] at h
    split_ifs at h with hc
    · refine List.forall_mem_cons.mpr ⟨?_, isNumberChar_of_isDigits h⟩
      rcases (by simpa using hc : c = '+' ∨ c = '-') with rfl | rfl <;> decide
    · exact isNumberChar_of_isDigits h

theorem isNumberChar_of_isExponent {t : List Char} (h : isExponent t = true) :
    ∀ c ∈ t, isNumberChar c = true := by
  cases t with
  | nil => exact fun _ hc => absurd hc List.not_mem_nil
  | cons c r =>
    rw [isExponent, Bool.and_eq_true] at h
    refine List.forall_mem_cons.mpr ⟨?_, isNumberChar_of_isSigned h.2⟩
    rcases (by simpa using h.1 : c = 'e' ∨ c = 'E') with rfl | rfl <;> decide

theorem isNumberChar_of_isDecimals {t : List Char} (h : isDecimals t = true) :
    ∀ c ∈ t, isNumberChar c = true := by
  cases t with
  | nil => cases h
  | cons c r =>
    rw [isDecimals, Bool.and_eq_true] at h
    have hrest := isNumberChar_dropWhile (isNumberChar_of_isExponent h.2)
    exact List.forall_mem_cons.mpr ⟨isNumberChar_of_isDigit h.1, hrest⟩

theorem isNumberChar_of_isFraction {t : List Char} (h : isFraction t = true) :
    ∀ c ∈ t, isNumberChar c = true := by
  cases t with
  | nil => exact fun _ hc => absurd hc List.not_mem_nil
  | cons c r =>
    rw [isFraction] at h
    split_ifs at h with hc
    · exact List.forall_mem_cons.mpr ⟨by rw [hc]; decide, isNumberChar_of_isDecimals h⟩
    · exact isNumberChar_of_isExponent h

theorem isNumberChar_of_isUnsigned {t : List Char} (h : isUnsigned t = true) :
    ∀ c ∈ t, isNumberChar c = true := by
  cases t with
  | nil => cases h
  | cons c r =>
    rw [isUnsigned] at h
    split_ifs at h with hc
    · exact List.forall_mem_cons.mpr ⟨by rw [hc]; decide, isNumberChar_of_isFraction h⟩
    · rw [Bool.and_eq_true] at h
      have hrest := isNumberChar_dropWhile (isNumberChar_of_isFraction h.2)
      exact List.forall_mem_cons.mpr ⟨isNumberChar_of_isDigit h.1, hrest⟩

theorem isNumberChar_of_isNumber {t : List Char} (h : isNumber t = true) :
    ∀ c ∈ t, isNumberChar c = true := by
  cases t with
  | nil => cases h
  | cons c r =>
    rw [isNumber] at h
    split_ifs at h with hc
    · exact List.forall_mem_cons.mpr ⟨by rw [hc]; decide, isNumberChar_of_isUnsigned h⟩
    · exact isNumberChar_of_isUnsigned h

/-- A number starts with a minus or a digit. -/
theorem head_of_isNumber {t : List Char} (h : isNumber t = true) :
    ∃ c r, t = c :: r ∧ (c = '-' ∨ isDigit c = true) := by
  cases t with
  | nil => cases h
  | cons c r =>
    refine ⟨c, r, rfl, ?_⟩
    rw [isNumber] at h
    split_ifs at h with hc
    · exact .inl hc
    · rw [isUnsigned] at h
      split_ifs at h with hz
      · rw [hz]
        exact .inr (by decide)
      · exact .inr (Bool.and_eq_true _ _ ▸ h).1

def Stops : List Char → Prop
  | [] => True
  | c :: _ => isNumberChar c = false

theorem isNumberChar_of_isSpace {c : Char} (h : isSpace c = true) : isNumberChar c = false := by
  rcases (by simpa [isSpace, or_assoc] using h : c = ' ' ∨ c = '\n' ∨ c = '\r' ∨ c = '\t')
    with rfl | rfl | rfl | rfl <;> decide

theorem stops_token {w r : List Char} {c : Char} (h : Spaces w) (hc : isNumberChar c = false) :
    Stops (w ++ c :: r) := by
  cases w with
  | nil => exact hc
  | cons d w => exact isNumberChar_of_isSpace (h d List.mem_cons_self)

theorem takeWhile_number {t rest : List Char} (ht : ∀ c ∈ t, isNumberChar c = true)
    (hr : Stops rest) :
    (t ++ rest).takeWhile isNumberChar = t ∧ (t ++ rest).dropWhile isNumberChar = rest := by
  rw [List.takeWhile_append_of_pos ht, List.dropWhile_append_of_pos ht]
  cases rest with
  | nil => exact ⟨List.append_nil t, rfl⟩
  | cons c rest =>
    have hc : isNumberChar c = false := hr
    rw [List.takeWhile_cons_of_neg (by simp [hc]), List.dropWhile_cons_of_neg (by simp [hc])]
    exact ⟨List.append_nil t, rfl⟩

section Values
variable {ν : Type}

def NumberFormat.Writes (fmt : NumberFormat ν) (x : ν) : Prop :=
  isNumber (fmt.print x) = true ∧ fmt.read (fmt.print x) = x

variable (fmt : NumberFormat ν)

mutual

/-- A value that JSON can hold: its numbers can be written, and no object has a key twice. -/
def Proper : Value ν → Prop
  | .null => True
  | .bool _ => True
  | .num x => fmt.Writes x
  | .str _ => True
  | .arr vs => ProperItems vs
  | .obj ms => (ms.map Prod.fst).Nodup ∧ ProperMembers ms

def ProperItems : List (Value ν) → Prop
  | [] => True
  | v :: vs => Proper v ∧ ProperItems vs

def ProperMembers : List (JsString × Value ν) → Prop
  | [] => True
  | (_, v) :: ms => Proper v ∧ ProperMembers ms

end

def IsStart (c : Char) : Prop :=
  c = 'n' ∨ c = 't' ∨ c = 'f' ∨ c = '"' ∨ c = '[' ∨ c = '\x7b' ∨ c = '-' ∨ isDigit c = true

instance (c : Char) : Decidable (IsStart c) := inferInstanceAs (Decidable (_ ∨ _))

theorem isSpace_of_isNumberChar {c : Char} (h : isNumberChar c = true) : isSpace c = false := by
  by_contra hs
  rw [isNumberChar_of_isSpace (by simpa using hs)] at h
  cases h

theorem ne_of_isNumberChar {c d : Char} (h : isNumberChar c = true)
    (hd : isNumberChar d = false) : c ≠ d := by
  intro he
  rw [he, hd] at h
  cases h

/-- A value starts neither with white space nor with a bracket that closes. -/
theorem IsStart.token {c : Char} (h : IsStart c) :
    isSpace c = false ∧ c ≠ ']' ∧ c ≠ '\x7d' := by
  rcases h with rfl | rfl | rfl | rfl | rfl | rfl | rfl | h
  · decide
  · decide
  · decide
  · decide
  · decide
  · decide
  · decide
  · have hc := isNumberChar_of_isDigit h
    exact ⟨isSpace_of_isNumberChar hc, ne_of_isNumberChar hc (by decide),
      ne_of_isNumberChar hc (by decide)⟩

variable {fmt} (gap indent : List Char)

theorem head_write {v : Value ν} (hv : Proper fmt v) :
    ∃ c r, write fmt gap indent v = c :: r ∧ IsStart c := by
  cases v with
  | null => exact ⟨'n', _, rfl, by decide⟩
  | bool b =>
    cases b with
    | true => exact ⟨'t', _, rfl, by decide⟩
    | false => exact ⟨'f', _, rfl, by decide⟩
  | num x =>
    obtain ⟨c, r, hx, hc⟩ := head_of_isNumber hv.1
    refine ⟨c, r, hx, ?_⟩
    rcases hc with rfl | hc
    · decide
    · simp [IsStart, hc]
  | str s => exact ⟨'"', _, rfl, by decide⟩
  | arr vs => cases vs <;> exact ⟨'[', _, rfl, by decide⟩
  | obj ms => cases ms <;> exact ⟨'\x7b', _, rfl, by decide⟩

theorem head_writeItems {vs : List (Value ν)} (hne : vs ≠ []) (hv : ProperItems fmt vs) :
    ∃ c r, writeItems fmt gap indent vs = c :: r ∧ IsStart c := by
  cases vs with
  | nil => exact absurd rfl hne
  | cons v vs =>
    obtain ⟨c, r, hw, hc⟩ := head_write gap indent hv.1
    cases vs with
    | nil => exact ⟨c, r, hw, hc⟩
    | cons w vs => exact ⟨c, _, by rw [writeItems, hw]; rfl, hc⟩

theorem head_writeMembers (fmt : NumberFormat ν) {ms : List (JsString × Value ν)} (hne : ms ≠ []) :
    ∃ r, writeMembers fmt gap indent ms = '"' :: r := by
  cases ms with
  | nil => exact absurd rfl hne
  | cons m ms =>
    obtain ⟨k, v⟩ := m
    cases ms with
    | nil => exact ⟨_, rfl⟩
    | cons m' ms => exact ⟨_, rfl⟩

variable {gap indent}

theorem fromMembers_of_nodup {ms : List (JsString × Value ν)} (h : (ms.map Prod.fst).Nodup) :
    fromMembers ms = .obj ms := by
  have hset := OrderedMap.foldl_set (m := []) (l := ms) h
  rw [fromMembers, hset, List.nil_append]

theorem readNumber_print {x : ν} (hx : fmt.Writes x) {rest : List Char} (hr : Stops rest) :
    readNumber fmt (fmt.print x ++ rest) = some (.num x, rest) := by
  obtain ⟨htake, hdrop⟩ := takeWhile_number (isNumberChar_of_isNumber hx.1) hr
  rw [readNumber, htake, if_pos hx.1, hx.2, hdrop]

theorem readValue_number {x : ν} (hx : fmt.Writes x) {n : Nat} {w rest : List Char}
    (hw : Spaces w) (hr : Stops rest) :
    readValue fmt (n + 1) (w ++ (fmt.print x ++ rest)) = some (.num x, rest) := by
  obtain ⟨c, r, ht, hc⟩ := head_of_isNumber hx.1
  have hnumber : isNumberChar c = true := isNumberChar_of_isNumber hx.1 c (by rw [ht]; simp)
  have hread : readNumber fmt (c :: (r ++ rest)) = some (.num x, rest) := by
    rw [← List.cons_append, ← ht]
    exact readNumber_print hx hr
  have hstart : (c = '-' || isDigit c) = true := by simpa using hc
  rw [ht, List.cons_append, readValue, skip_token hw (isSpace_of_isNumberChar hnumber)]
  dsimp only
  rw [if_neg (ne_of_isNumberChar hnumber (by decide)),
    if_neg (ne_of_isNumberChar hnumber (by decide)),
    if_neg (ne_of_isNumberChar hnumber (by decide)),
    if_neg (ne_of_isNumberChar hnumber (by decide)),
    if_neg (ne_of_isNumberChar hnumber (by decide)),
    if_neg (ne_of_isNumberChar hnumber (by decide)), if_pos hstart, hread]

theorem readValue_string {s : JsString} {n : Nat} {w rest : List Char} (hw : Spaces w)
    (hn : (quote s).length ≤ n + 1) :
    readValue fmt (n + 1) (w ++ (quote s ++ rest)) = some (.str s, rest) := by
  have hbody : (quoteBody s).length < n := by
    simp only [quote, List.length_cons, List.length_append, List.length_nil] at hn
    omega
  have htext : quote s ++ rest = '"' :: (quoteBody s ++ '"' :: rest) := by simp [quote]
  rw [htext, readValue, skip_token hw (by decide)]
  dsimp only
  rw [if_neg (by decide), if_neg (by decide), if_neg (by decide), if_pos rfl,
    readString_quoteBody s hbody, Option.map_some]

/-- Items that are read, with the brackets around them. -/
theorem readValue_items {vs : List (Value ν)} {n : Nat} {w t rest : List Char} (hw : Spaces w)
    (ht : expect ']' t = none) (hread : readItems fmt n t = some (vs, rest)) :
    readValue fmt (n + 1) (w ++ '[' :: t) = some (.arr vs, rest) := by
  rw [readValue, skip_token hw (by decide)]
  dsimp only
  rw [if_neg (by decide), if_neg (by decide), if_neg (by decide), if_neg (by decide), if_pos rfl,
    ht, hread]
  rfl

theorem readValue_members {ms : List (JsString × Value ν)} {n : Nat} {w t rest : List Char}
    (hw : Spaces w) (ht : expect '\x7d' t = none) (hread : readMembers fmt n t = some (ms, rest)) :
    readValue fmt (n + 1) (w ++ '\x7b' :: t) = some (fromMembers ms, rest) := by
  rw [readValue, skip_token hw (by decide)]
  dsimp only
  rw [if_neg (by decide), if_neg (by decide), if_neg (by decide), if_neg (by decide),
    if_neg (by decide), if_pos rfl, ht, hread]
  rfl

theorem expect_items {vs : List (Value ν)} (hne : vs ≠ []) (hv : ProperItems fmt vs)
    {w rest : List Char} (hw : Spaces w) :
    expect ']' (w ++ (writeItems fmt gap indent vs ++ rest)) = none := by
  obtain ⟨d, r, ht, hd⟩ := head_writeItems gap indent hne hv
  rw [ht]
  exact expect_other hw hd.token.1 hd.token.2.1

theorem expect_members {ms : List (JsString × Value ν)} (hne : ms ≠ []) {w rest : List Char}
    (hw : Spaces w) : expect '\x7d' (w ++ (writeMembers fmt gap indent ms ++ rest)) = none := by
  obtain ⟨r, ht⟩ := head_writeMembers gap indent fmt hne
  rw [ht]
  exact expect_other hw (by decide) (by decide)

/-- Items that follow a comma. -/
theorem readItems_cons {v : Value ν} {vs : List (Value ν)} {n : Nat} {t r rest : List Char}
    (hv : readValue fmt n t = some (v, ',' :: r)) (hvs : readItems fmt n r = some (vs, rest)) :
    readItems fmt (n + 1) t = some (v :: vs, rest) := by
  have hcomma : expect ',' (',' :: r) = some r := expect_self spaces_nil (by decide)
  rw [readItems, hv]
  dsimp only
  rw [hcomma]
  dsimp only
  rw [hvs]
  rfl

theorem readItems_last {v : Value ν} {n : Nat} {t w rest : List Char} (hw : Spaces w)
    (hv : readValue fmt n t = some (v, w ++ ']' :: rest)) :
    readItems fmt (n + 1) t = some ([v], rest) := by
  rw [readItems, hv]
  dsimp only
  rw [expect_other hw (by decide) (by decide), expect_self hw (by decide)]
  rfl

/-- A key with what follows it, up to the value. -/
theorem readMembers_key {k : JsString} {n : Nat} {w t : List Char} (hw : Spaces w)
    (hn : (quoteBody k).length < n) :
    (expect '"' (w ++ (quote k ++ t))).bind (readString n) = some (k, t) := by
  have htext : quote k ++ t = '"' :: (quoteBody k ++ '"' :: t) := by simp [quote]
  rw [htext, expect_self hw (by decide), Option.bind_some, readString_quoteBody k hn]

theorem length_quote (k : JsString) : (quote k).length = (quoteBody k).length + 2 := by
  simp [quote]

theorem readMembers_value {v : Value ν} {n : Nat} {t r : List Char}
    (h : readValue fmt n t = some (v, r)) :
    (expect ':' (':' :: t)).bind (readValue fmt n) = some (v, r) := by
  have hcolon : expect ':' (':' :: t) = some t := expect_self spaces_nil (by decide)
  rw [hcolon, Option.bind_some, h]

theorem readMembers_cons {k : JsString} {v : Value ν} {ms : List (JsString × Value ν)} {n : Nat}
    {t r r' rest : List Char} (hk : (expect '"' t).bind (readString n) = some (k, r))
    (hv : (expect ':' r).bind (readValue fmt n) = some (v, ',' :: r'))
    (hms : readMembers fmt n r' = some (ms, rest)) :
    readMembers fmt (n + 1) t = some ((k, v) :: ms, rest) := by
  have hcomma : expect ',' (',' :: r') = some r' := expect_self spaces_nil (by decide)
  rw [readMembers, hk]
  dsimp only
  rw [hv]
  dsimp only
  rw [hcomma]
  dsimp only
  rw [hms]
  rfl

theorem readMembers_last {k : JsString} {v : Value ν} {n : Nat} {t r w rest : List Char}
    (hw : Spaces w) (hk : (expect '"' t).bind (readString n) = some (k, r))
    (hv : (expect ':' r).bind (readValue fmt n) = some (v, w ++ '\x7d' :: rest)) :
    readMembers fmt (n + 1) t = some ([(k, v)], rest) := by
  rw [readMembers, hk]
  dsimp only
  rw [hv]
  dsimp only
  rw [expect_other hw (by decide) (by decide), expect_self hw (by decide)]
  rfl

theorem keyword_append (word t : List Char) : keyword word (word ++ t) = some t := by
  induction word with
  | nil => rfl
  | cons c word ih => rw [List.cons_append, keyword, if_pos rfl, ih]

/-- The three names, the empty list and the empty object. -/
theorem readValue_atom {v : Value ν} (hv : v = .null ∨ v = .bool true ∨ v = .bool false ∨
    v = .arr [] ∨ v = .obj []) {w : List Char} (hw : Spaces w) (rest : List Char) (n : Nat) :
    readValue fmt (n + 1) (w ++ (write fmt gap indent v ++ rest)) = some (v, rest) := by
  rcases hv with rfl | rfl | rfl | rfl | rfl
  · rw [write, List.cons_append, readValue, skip_token hw (by decide)]
    dsimp only
    rw [if_pos rfl, keyword_append, Option.map_some]
  · rw [write, List.cons_append, readValue, skip_token hw (by decide)]
    dsimp only
    rw [if_neg (by decide), if_pos rfl, keyword_append, Option.map_some]
  · rw [write, List.cons_append, readValue, skip_token hw (by decide)]
    dsimp only
    rw [if_neg (by decide), if_neg (by decide), if_pos rfl, keyword_append, Option.map_some]
  · have hclose : expect ']' (']' :: rest) = some rest := expect_self spaces_nil (by decide)
    rw [write, List.cons_append, List.cons_append, List.nil_append, readValue,
      skip_token hw (by decide)]
    dsimp only
    rw [if_neg (by decide), if_neg (by decide), if_neg (by decide), if_neg (by decide), if_pos rfl,
      hclose]
  · have hclose : expect '\x7d' ('\x7d' :: rest) = some rest := expect_self spaces_nil (by decide)
    rw [write, List.cons_append, List.cons_append, List.nil_append, readValue,
      skip_token hw (by decide)]
    dsimp only
    rw [if_neg (by decide), if_neg (by decide), if_neg (by decide), if_neg (by decide),
      if_neg (by decide), if_pos rfl, hclose]

mutual

/-- A value is read back from its text, whatever stands before and after it. -/
theorem readValue_write (hgap : Spaces gap) {v : Value ν} (hv : Proper fmt v)
    {indent w rest : List Char} (hi : Spaces indent) (hw : Spaces w) (hr : Stops rest) {n : Nat}
    (hn : (write fmt gap indent v).length ≤ n) :
    readValue fmt n (w ++ (write fmt gap indent v ++ rest)) = some (v, rest) := by
  have hinner : Spaces (indent ++ gap) := spaces_append hi hgap
  cases n with
  | zero =>
    obtain ⟨c, r, ht, -⟩ := head_write gap indent hv
    rw [ht] at hn
    exact absurd hn (Nat.not_succ_le_zero _)
  | succ n =>
    match v with
    | .null => exact readValue_atom (by simp) hw rest n
    | .bool true => exact readValue_atom (by simp) hw rest n
    | .bool false => exact readValue_atom (by simp) hw rest n
    | .num x => exact readValue_number hv hw hr
    | .str s => exact readValue_string hw hn
    | .arr [] => exact readValue_atom (by simp) hw rest n
    | .arr (v :: vs) =>
      simp only [write, List.length_append, List.length_cons, List.length_nil] at hn
      simp only [write, List.append_assoc, List.cons_append, List.nil_append]
      apply readValue_items hw (expect_items (List.cons_ne_nil _ _) hv (spaces_newline hinner))
      exact readItems_write hgap (List.cons_ne_nil _ _) hv hinner (spaces_newline hinner)
        (spaces_newline hi) (by omega)
    | .obj [] => exact readValue_atom (by simp) hw rest n
    | .obj (m :: ms) =>
      simp only [write, List.length_append, List.length_cons, List.length_nil] at hn
      simp only [write, List.append_assoc, List.cons_append, List.nil_append]
      rw [← fromMembers_of_nodup hv.1]
      apply readValue_members hw (expect_members (List.cons_ne_nil _ _) (spaces_newline hinner))
      exact readMembers_write hgap (List.cons_ne_nil _ _) hv.2 hinner (spaces_newline hinner)
        (spaces_newline hi) (by omega)

theorem readItems_write (hgap : Spaces gap) {vs : List (Value ν)} (hne : vs ≠ [])
    (hv : ProperItems fmt vs) {indent w w' rest : List Char} (hi : Spaces indent) (hw : Spaces w)
    (hw' : Spaces w') {n : Nat} (hn : (writeItems fmt gap indent vs).length < n) :
    readItems fmt n (w ++ (writeItems fmt gap indent vs ++ (w' ++ ']' :: rest))) =
      some (vs, rest) := by
  cases n with
  | zero => exact absurd hn (Nat.not_lt_zero _)
  | succ n =>
    match vs with
    | [] => exact absurd rfl hne
    | [v] =>
      rw [writeItems] at hn ⊢
      have hstop : Stops (w' ++ ']' :: rest) := stops_token hw' (by decide)
      exact readItems_last hw' (readValue_write hgap hv.1 hi hw hstop (by omega))
    | v :: v' :: vs =>
      simp only [writeItems, List.length_append, List.length_cons] at hn
      simp only [writeItems, List.append_assoc, List.cons_append]
      have hstop : Stops (',' :: (newline gap indent ++
          (writeItems fmt gap indent (v' :: vs) ++ (w' ++ ']' :: rest)))) :=
        stops_token spaces_nil (by decide)
      apply readItems_cons (readValue_write hgap hv.1 hi hw hstop (by omega))
      exact readItems_write hgap (List.cons_ne_nil _ _) hv.2 hi (spaces_newline hi) hw' (by omega)

theorem readMembers_write (hgap : Spaces gap) {ms : List (JsString × Value ν)} (hne : ms ≠ [])
    (hv : ProperMembers fmt ms) {indent w w' rest : List Char} (hi : Spaces indent) (hw : Spaces w)
    (hw' : Spaces w') {n : Nat} (hn : (writeMembers fmt gap indent ms).length < n) :
    readMembers fmt n (w ++ (writeMembers fmt gap indent ms ++ (w' ++ '\x7d' :: rest))) =
      some (ms, rest) := by
  cases n with
  | zero => exact absurd hn (Nat.not_lt_zero _)
  | succ n =>
    match ms with
    | [] => exact absurd rfl hne
    | [(k, v)] =>
      simp only [writeMembers, List.length_append, List.length_cons] at hn
      simp only [writeMembers, List.append_assoc, List.cons_append]
      have hstop : Stops (w' ++ '\x7d' :: rest) := stops_token hw' (by decide)
      have hbody := length_quote k
      apply readMembers_last hw' (readMembers_key hw (by omega))
      exact readMembers_value (readValue_write hgap hv.1 hi (spaces_pad gap) hstop (by omega))
    | (k, v) :: m :: ms =>
      simp only [writeMembers, List.length_append, List.length_cons] at hn
      simp only [writeMembers, List.append_assoc, List.cons_append]
      have hstop : Stops (',' :: (newline gap indent ++
          (writeMembers fmt gap indent (m :: ms) ++ (w' ++ '\x7d' :: rest)))) :=
        stops_token spaces_nil (by decide)
      have hbody := length_quote k
      apply readMembers_cons (readMembers_key hw (by omega))
        (readMembers_value (readValue_write hgap hv.1 hi (spaces_pad gap) hstop (by omega)))
      exact readMembers_write hgap (List.cons_ne_nil _ _) hv.2 hi (spaces_newline hi) hw' (by omega)

end

/-- `JSON.parse` inverts `JSON.stringify`, with any white space as indentation. -/
theorem parse_stringify {v : Value ν} (hv : Proper fmt v) (hgap : Spaces gap) :
    parse fmt (stringify fmt gap v) = some v := by
  have hread : readValue fmt ((stringify fmt gap v).length + 1) (stringify fmt gap v) =
      some (v, []) := by
    have hstop : Stops [] := trivial
    have h := readValue_write hgap hv spaces_nil spaces_nil hstop
      (Nat.le_succ (stringify fmt gap v).length)
    rw [List.nil_append, List.append_nil] at h
    exact h
  rw [parse, hread]
  rfl

-- Control characters: `JSON.stringify` without an indentation writes none.

def Printable (t : List Char) : Prop := ∀ c ∈ t, 32 ≤ c.toNat

instance (t : List Char) : Decidable (Printable t) := List.decidableBAll _ _

theorem printable_cons {c : Char} {t : List Char} :
    Printable (c :: t) ↔ 32 ≤ c.toNat ∧ Printable t := List.forall_mem_cons

theorem printable_append {s t : List Char} : Printable (s ++ t) ↔ Printable s ∧ Printable t :=
  List.forall_mem_append

theorem printable_nil : Printable [] := fun _ h => absurd h List.not_mem_nil

theorem printable_unicodeEscape (u : UInt16) : Printable (unicodeEscape u) := by
  have hlower : ∀ n < 16, 32 ≤ (Hex.lower n).toNat := by decide
  have hlt : u.toNat < 65536 := u.toNat_lt
  simp only [unicodeEscape, printable_cons]
  exact ⟨by decide, by decide, hlower _ (by omega), hlower _ (by omega), hlower _ (by omega),
    hlower _ (by omega), printable_nil⟩

theorem printable_quoteChar (c : Char) : Printable (quoteChar c) := by
  unfold quoteChar
  split_ifs with h1 h2 h3 h4 h5 h6 h7 h8
  · decide
  · decide
  · decide
  · decide
  · decide
  · decide
  · decide
  · exact printable_unicodeEscape _
  · exact printable_cons.mpr ⟨Nat.le_of_not_lt h8, printable_nil⟩

theorem printable_quoteBody (s : JsString) : Printable (quoteBody s) := by
  have hunit : ∀ u, Printable (quoteUnit u) := by
    intro u
    unfold quoteUnit
    split_ifs
    · exact printable_unicodeEscape u
    · exact printable_quoteChar _
  fun_induction quoteBody s with
  | case1 => exact printable_nil
  | case2 u => exact hunit u
  | case3 u v rest h ih => exact printable_append.mpr ⟨printable_quoteChar _, ih⟩
  | case4 u v rest h ih => exact printable_append.mpr ⟨hunit u, ih⟩

theorem printable_quote (s : JsString) : Printable (quote s) := by
  rw [quote, List.cons_append, printable_cons, printable_append]
  exact ⟨by decide, printable_quoteBody s, by decide⟩

theorem printable_print {x : ν} (hx : fmt.Writes x) : Printable (fmt.print x) := by
  intro c hc
  have hnumber := isNumberChar_of_isNumber hx.1 c hc
  by_contra hlow
  have hall : ∀ n < 32, isNumberChar (Char.ofNat n) = false := by decide
  rw [← Char.ofNat_toNat c, hall _ (by omega)] at hnumber
  cases hnumber

mutual

theorem printable_write (indent : List Char) {v : Value ν} (hv : Proper fmt v) :
    Printable (write fmt [] indent v) := by
  match v with
  | .null => exact (by decide : Printable ['n', 'u', 'l', 'l'])
  | .bool true => exact (by decide : Printable ['t', 'r', 'u', 'e'])
  | .bool false => exact (by decide : Printable ['f', 'a', 'l', 's', 'e'])
  | .num x => exact printable_print hv
  | .str s => exact printable_quote s
  | .arr [] => exact (by decide : Printable ['[', ']'])
  | .arr (v :: vs) =>
    have hitems := printable_writeItems (indent ++ []) hv
    simp only [write, newline, if_true, printable_cons, printable_append]
    exact ⟨⟨⟨⟨by decide, printable_nil⟩, hitems⟩, printable_nil⟩, by decide, printable_nil⟩
  | .obj [] => exact (by decide : Printable ['\x7b', '\x7d'])
  | .obj (m :: ms) =>
    have hmembers := printable_writeMembers (indent ++ []) hv.2
    simp only [write, newline, if_true, printable_cons, printable_append]
    exact ⟨⟨⟨⟨by decide, printable_nil⟩, hmembers⟩, printable_nil⟩, by decide, printable_nil⟩

theorem printable_writeItems (indent : List Char) {vs : List (Value ν)} (hv : ProperItems fmt vs) :
    Printable (writeItems fmt [] indent vs) := by
  match vs with
  | [] => exact printable_nil
  | [v] => exact printable_write indent hv.1
  | v :: w :: vs =>
    have hrest := printable_writeItems indent hv.2
    simp only [writeItems, newline, if_true, printable_cons, printable_append]
    exact ⟨⟨printable_write indent hv.1, by decide, printable_nil⟩, hrest⟩

theorem printable_writeMembers (indent : List Char) {ms : List (JsString × Value ν)}
    (hv : ProperMembers fmt ms) : Printable (writeMembers fmt [] indent ms) := by
  match ms with
  | [] => exact printable_nil
  | [(k, v)] =>
    simp only [writeMembers, pad, if_true, printable_cons, printable_append]
    exact ⟨⟨printable_quote k, by decide, printable_nil⟩, printable_write indent hv.1⟩
  | (k, v) :: m :: ms =>
    have hrest := printable_writeMembers indent hv.2
    simp only [writeMembers, newline, pad, if_true, printable_cons, printable_append]
    exact ⟨⟨⟨⟨printable_quote k, by decide, printable_nil⟩, printable_write indent hv.1⟩,
      by decide, printable_nil⟩, hrest⟩

end

theorem printable_stringify {v : Value ν} (hv : Proper fmt v) : Printable (stringify fmt [] v) :=
  printable_write [] hv

/-- A text that starts like no value is no JSON. -/
theorem parse_eq_none {c : Char} (hspace : isSpace c = false) (hc : ¬ IsStart c) (r : List Char) :
    parse fmt (c :: r) = none := by
  simp only [IsStart, not_or] at hc
  obtain ⟨h1, h2, h3, h4, h5, h6, h7, h8⟩ := hc
  have hdigit : ¬ (c = '-' || isDigit c) = true := by simp [h7, h8]
  have hread : readValue fmt ((c :: r).length + 1) (c :: r) = none := by
    rw [readValue, skip_cons hspace]
    dsimp only
    rw [if_neg h1, if_neg h2, if_neg h3, if_neg h4, if_neg h5, if_neg h6, if_neg hdigit]
  rw [parse, hread]

end Values

end Json
