import WyzeCams.Lib.Base64
import WyzeCams.Lib.Hex
import WyzeCams.Lib.Utf16
import WyzeCams.Lib.Utf8Decode

/-! The text functions of the browser: `encodeURIComponent`, `decodeURIComponent`, `escape`,
`unescape`, `btoa` and `atob`. Readers that jump over characters count down how many are left. -/
namespace Uri
open Utf8 Utf16

def isAlphanumeric (c : Char) : Bool :=
  ('A' ≤ c && c ≤ 'Z') || ('a' ≤ c && c ≤ 'z') || ('0' ≤ c && c ≤ '9')

def percent (b : UInt8) : List Char :=
  ['%', Hex.upper (b.toNat / 16), Hex.upper (b.toNat % 16)]

/-- The characters that `encodeURIComponent` leaves as they are. -/
def isUnreserved (c : Char) : Bool :=
  isAlphanumeric c || ['-', '_', '.', '!', '~', '*', '\'', '(', ')'].contains c

def encodeURIComponent (t : List Char) : List Char :=
  t.flatMap fun c => if isUnreserved c then [c] else (String.utf8EncodeChar c).flatMap percent

/-- The characters that `escape` leaves as they are. -/
def isEscapeSafe (c : Char) : Bool :=
  isAlphanumeric c || ['@', '*', '_', '+', '-', '.', '/'].contains c

def escapeUnit (u : UInt16) : List Char :=
  if u.toNat < 128 ∧ isEscapeSafe (Char.ofNat u.toNat) = true then [Char.ofNat u.toNat]
  else if u.toNat < 256 then percent (UInt8.ofNat u.toNat)
  else ['%', 'u', Hex.upper (u.toNat / 4096), Hex.upper (u.toNat / 256 % 16),
    Hex.upper (u.toNat / 16 % 16), Hex.upper (u.toNat % 16)]

def escape (s : JsString) : List Char := s.flatMap escapeUnit

def hexByte (a b : Char) : Option Nat :=
  (Hex.value a).bind fun x => (Hex.value b).map fun y => x * 16 + y

def unicodeUnit : List Char → Option (UInt16 × Nat)
  | a :: b :: c :: d :: _ =>
    (hexByte a b).bind fun x => (hexByte c d).map fun y => (UInt16.ofNat (x * 256 + y), 5)
  | _ => none

/-- What `unescape` finds behind a percent sign: a code unit, and how long its digits are. -/
def percentUnit : List Char → Option (UInt16 × Nat)
  | a :: b :: t =>
    if a = 'u' then unicodeUnit (b :: t) else (hexByte a b).map fun x => (UInt16.ofNat x, 2)
  | _ => none

def unescapeFrom : Nat → List Char → JsString
  | _, [] => []
  | k + 1, _ :: t => unescapeFrom k t
  | 0, c :: t =>
    if c = '%' then
      match percentUnit t with
      | some (u, k) => u :: unescapeFrom k t
      | none => units c ++ unescapeFrom 0 t
    else units c ++ unescapeFrom 0 t

def unescape (t : List Char) : JsString := unescapeFrom 0 t

def percentBytes : List Char → Bytes
  | c :: a :: b :: t =>
    if c = '%' then
      match hexByte a b with
      | some x => UInt8.ofNat x :: percentBytes t
      | none => []
    else []
  | _ => []

/-- `none` for the `URIError`. -/
def decodeFrom : Nat → List Char → Option (List Char)
  | _, [] => some []
  | k + 1, _ :: t => decodeFrom k t
  | 0, c :: t =>
    if c = '%' then
      (decodeChar (percentBytes (c :: t))).bind fun d =>
        (decodeFrom (3 * d.utf8Size - 1) t).map fun r => d :: r
    else (decodeFrom 0 t).map fun r => c :: r

def decodeURIComponent (t : List Char) : Option (List Char) := decodeFrom 0 t

def ofBytes (bs : Bytes) : JsString := bs.map fun b => UInt16.ofNat b.toNat

/-- `none` where a code unit is no byte. -/
def btoa (s : JsString) : Option (List Char) :=
  if s.all fun u => u.toNat < 256 then some (Base64.encode (s.map fun u => UInt8.ofNat u.toNat))
  else none

def isAsciiSpace (c : Char) : Bool := [' ', '\t', '\n', '\r', Char.ofNat 12].contains c

def dropPadding : List Char → List Char
  | [] => []
  | [c] => if c = '=' then [] else [c]
  | c :: d :: t => if c = '=' then if d = '=' then t else d :: t else c :: d :: t

def atob (t : List Char) : Option JsString :=
  let t := t.filter fun c => !isAsciiSpace c
  let t := if t.length % 4 = 0 then (dropPadding t.reverse).reverse else t
  if t.length % 4 = 1 then none else (Base64.values t).map fun l => ofBytes (Base64.ofValues l)

theorem upper_ne {n : Nat} (h : n < 16) : Hex.upper n ≠ 'u' :=
  (by decide : ∀ n < 16, Hex.upper n ≠ 'u') n h

theorem hexByte_upper (b : UInt8) :
    hexByte (Hex.upper (b.toNat / 16)) (Hex.upper (b.toNat % 16)) = some b.toNat := by
  have hb := b.toNat_lt
  rw [hexByte, Hex.value_upper (by omega), Hex.value_upper (by omega), Option.bind_some,
    Option.map_some, Option.some_inj]
  omega

theorem unescapeFrom_percent (b : UInt8) (t : List Char) :
    unescapeFrom 0 (percent b ++ t) = UInt16.ofNat b.toNat :: unescapeFrom 0 t := by
  have hb := b.toNat_lt
  have hunit : percentUnit (Hex.upper (b.toNat / 16) :: Hex.upper (b.toNat % 16) :: t) =
      some (UInt16.ofNat b.toNat, 2) := by
    rw [percentUnit, if_neg (upper_ne (by omega)), hexByte_upper, Option.map_some]
  rw [percent, List.cons_append, List.cons_append, List.cons_append, List.nil_append, unescapeFrom,
    if_pos rfl, hunit]
  rfl

theorem unescapeFrom_percents (bs : Bytes) (t : List Char) :
    unescapeFrom 0 (bs.flatMap percent ++ t) = ofBytes bs ++ unescapeFrom 0 t := by
  induction bs with
  | nil => rfl
  | cons b bs ih =>
    rw [List.flatMap_cons, List.append_assoc, unescapeFrom_percent, ih]
    rfl

theorem percentBytes_percents (bs : Bytes) (t : List Char) :
    percentBytes (bs.flatMap percent ++ t) = bs ++ percentBytes t := by
  induction bs with
  | nil => rfl
  | cons b bs ih =>
    rw [List.flatMap_cons, List.append_assoc, percent, List.cons_append, List.cons_append,
      List.cons_append, List.nil_append, percentBytes, if_pos rfl, hexByte_upper]
    dsimp only
    rw [ih, UInt8.ofNat_toNat, List.cons_append]

theorem length_percents (bs : Bytes) : (bs.flatMap percent).length = 3 * bs.length := by
  induction bs with
  | nil => rfl
  | cons b bs ih =>
    rw [List.flatMap_cons, List.length_append, ih, List.length_cons, percent]
    simp only [List.length_cons, List.length_nil]
    omega

theorem decodeFrom_append {k : Nat} (t t' : List Char) (h : t.length = k) :
    decodeFrom k (t ++ t') = decodeFrom 0 t' := by
  induction t generalizing k with
  | nil =>
    cases h
    rfl
  | cons c t ih =>
    cases h
    exact ih rfl

/-- A character whose bytes have all been escaped is read back. -/
theorem decodeFrom_percents (c : Char) (t : List Char) :
    decodeFrom 0 ((String.utf8EncodeChar c).flatMap percent ++ t) =
      (decodeFrom 0 t).map fun r => c :: r := by
  have hlen := String.length_utf8EncodeChar c
  have hpos := Char.utf8Size_pos c
  have hdecode : decodeChar (percentBytes ((String.utf8EncodeChar c).flatMap percent ++ t)) =
      some c := by rw [percentBytes_percents, decodeChar_append]
  have hlength := length_percents (String.utf8EncodeChar c)
  cases henc : (String.utf8EncodeChar c).flatMap percent with
  | nil =>
    rw [henc] at hlength
    simp only [List.length_nil] at hlength
    omega
  | cons d rest =>
    have hd : d = '%' := by
      cases hbytes : String.utf8EncodeChar c with
      | nil =>
        rw [hbytes] at hlen
        simp only [List.length_nil] at hlen
        omega
      | cons b bs =>
        rw [hbytes, List.flatMap_cons, percent] at henc
        exact (List.cons.inj henc).1.symm
    rw [henc, List.cons_append] at hdecode
    rw [henc, List.length_cons, hlen] at hlength
    rw [List.cons_append, decodeFrom, if_pos hd, hdecode, Option.bind_some,
      decodeFrom_append rest t (by omega)]

theorem lt_of_isAlphanumeric {c : Char} (h : isAlphanumeric c = true) : c.toNat < 128 := by
  simp only [isAlphanumeric, Bool.or_eq_true, Bool.and_eq_true, decide_eq_true_eq] at h
  rcases h with (⟨-, h⟩ | ⟨-, h⟩) | ⟨-, h⟩
  · have hle : c.toNat ≤ 90 := Char.le_def.mp h
    omega
  · have hle : c.toNat ≤ 122 := Char.le_def.mp h
    omega
  · have hle : c.toNat ≤ 57 := Char.le_def.mp h
    omega

theorem lt_of_isUnreserved {c : Char} (h : isUnreserved c = true) : c.toNat < 128 := by
  rw [isUnreserved, Bool.or_eq_true] at h
  rcases h with h | h
  · exact lt_of_isAlphanumeric h
  · simp only [List.contains_iff_mem, List.mem_cons, List.not_mem_nil, or_false] at h
    rcases h with rfl | rfl | rfl | rfl | rfl | rfl | rfl | rfl | rfl <;> decide

theorem ne_percent_of_isUnreserved {c : Char} (h : isUnreserved c = true) : c ≠ '%' := by
  rintro rfl
  exact absurd h (by decide)

theorem ne_percent_of_isEscapeSafe {c : Char} (h : isEscapeSafe c = true) : c ≠ '%' := by
  rintro rfl
  exact absurd h (by decide)

theorem ofBytes_append (bs bs' : Bytes) : ofBytes (bs ++ bs') = ofBytes bs ++ ofBytes bs' :=
  List.map_append

theorem toNat_ofByte (b : UInt8) : (UInt16.ofNat b.toNat).toNat = b.toNat := by
  have hb := b.toNat_lt
  rw [UInt16.toNat_ofNat']
  omega

/-- `unescape(encodeURIComponent(text))` has one code unit for each byte of the text. -/
theorem unescape_encodeURIComponent (t : List Char) :
    unescape (encodeURIComponent t) = ofBytes (encode t) := by
  induction t with
  | nil => rfl
  | cons c t ih =>
    rw [encode, List.flatMap_cons, ofBytes_append, ← encode, ← ih, encodeURIComponent,
      List.flatMap_cons, ← encodeURIComponent, unescape]
    by_cases hc : isUnreserved c = true
    · have hlt := lt_of_isUnreserved hc
      have hbyte : ofBytes [UInt8.ofNat c.toNat] = units c := by
        have hmod : c.toNat % 2 ^ 8 = c.toNat := Nat.mod_eq_of_lt (by omega)
        rw [ofBytes, List.map_singleton, units, if_pos (by omega), UInt8.toNat_ofNat', hmod]
      rw [if_pos hc, utf8EncodeChar_of_lt hlt, hbyte, List.cons_append, List.nil_append,
        unescapeFrom, if_neg (ne_percent_of_isUnreserved hc)]
      rfl
    · rw [if_neg hc, unescapeFrom_percents]
      rfl

theorem escapeUnit_byte {b : UInt8} (h : 128 ≤ b.toNat) :
    escapeUnit (UInt16.ofNat b.toNat) = percent b := by
  have hb := b.toNat_lt
  rw [escapeUnit, toNat_ofByte, if_neg (by omega), if_pos (by omega), UInt8.ofNat_toNat]

theorem escape_append (s s' : JsString) : escape (s ++ s') = escape s ++ escape s' :=
  List.flatMap_append

theorem escape_bytes {bs : Bytes} (h : ∀ b ∈ bs, 128 ≤ b.toNat) :
    escape (ofBytes bs) = bs.flatMap percent := by
  induction bs with
  | nil => rfl
  | cons b bs ih =>
    obtain ⟨hb, hbs⟩ := List.forall_mem_cons.mp h
    rw [List.flatMap_cons, ← ih hbs, ← escapeUnit_byte hb]
    rfl

/-- `decodeURIComponent(escape(bytes))` is the text whose bytes these are. -/
theorem decodeURIComponent_escape (t : List Char) :
    decodeURIComponent (escape (ofBytes (encode t))) = some t := by
  induction t with
  | nil => rfl
  | cons c t ih =>
    rw [decodeURIComponent] at ih ⊢
    rw [encode, List.flatMap_cons, ofBytes_append, escape_append, ← encode]
    by_cases hlt : c.toNat < 128
    · have hmod : (UInt8.ofNat c.toNat).toNat = c.toNat := by
        rw [UInt8.toNat_ofNat']
        omega
      have hunit : escape (ofBytes [UInt8.ofNat c.toNat]) =
          if isEscapeSafe c = true then [c] else [UInt8.ofNat c.toNat].flatMap percent := by
        rw [ofBytes, List.map_singleton, escape, List.flatMap_singleton, escapeUnit, toNat_ofByte,
          hmod, Char.ofNat_toNat, if_pos (show c.toNat < 256 by omega), List.flatMap_singleton]
        simp only [hlt, true_and]
      rw [utf8EncodeChar_of_lt hlt, hunit]
      by_cases hsafe : isEscapeSafe c = true
      · rw [if_pos hsafe, List.cons_append, List.nil_append, decodeFrom,
          if_neg (ne_percent_of_isEscapeSafe hsafe), ih, Option.map_some]
      · rw [if_neg hsafe, ← utf8EncodeChar_of_lt hlt, decodeFrom_percents, ih, Option.map_some]
    · rw [escape_bytes (le_of_mem_utf8EncodeChar (Nat.le_of_not_lt hlt)), decodeFrom_percents, ih,
        Option.map_some]

theorem btoa_ofBytes (bs : Bytes) : btoa (ofBytes bs) = some (Base64.encode bs) := by
  have hall : ((ofBytes bs).all fun u => u.toNat < 256) = true := by
    rw [List.all_eq_true]
    intro u hu
    obtain ⟨b, -, rfl⟩ := List.mem_map.mp hu
    rw [toNat_ofByte]
    exact decide_eq_true b.toNat_lt
  have hback : (ofBytes bs).map (fun u => UInt8.ofNat u.toNat) = bs := by
    rw [ofBytes, List.map_map]
    apply List.map_id''
    intro b
    rw [Function.comp_apply, toNat_ofByte, UInt8.ofNat_toNat]
  rw [btoa, if_pos hall, hback]

theorem isSymbol_token {c : Char} (h : Base64.IsSymbol c) : isAsciiSpace c = false := by
  obtain ⟨n, hn, rfl⟩ := h
  exact (by decide : ∀ n < 64, isAsciiSpace (Base64.symbol n) = false) n hn

/-- A reversed text without padding loses nothing. -/
theorem dropPadding_of_head {t : List Char} (h : ∀ c ∈ t, c ≠ '=') : dropPadding t = t := by
  cases t with
  | nil => rfl
  | cons c t =>
    have hc := h c List.mem_cons_self
    cases t with
    | nil => exact if_neg hc
    | cons d t => exact if_neg hc

theorem dropPadding_replicate {t : List Char} (h : ∀ c ∈ t, c ≠ '=') {k : Nat} (hk : k ≤ 2) :
    dropPadding (List.replicate k '=' ++ t) = t := by
  match k with
  | 0 => exact dropPadding_of_head h
  | 1 =>
    cases t with
    | nil => rfl
    | cons c t => simp [dropPadding, h c List.mem_cons_self]
  | 2 => simp [dropPadding, List.replicate]

theorem length_pad (t : List Char) : (Base64.pad t).length % 4 = 0 := by
  rw [Base64.pad, List.length_append, List.length_replicate]
  omega

/-- `atob` reads the symbols of some bytes, once they are padded. -/
theorem atob_pad (bs : Bytes) : atob (Base64.pad (Base64.symbols bs)) = some (ofBytes bs) := by
  have hsymbol := Base64.isSymbol_of_mem bs
  have hne : ∀ c ∈ Base64.symbols bs, c ≠ '=' := by
    intro c hc
    obtain ⟨n, hn, rfl⟩ := hsymbol c hc
    exact (Base64.symbol_ne hn).1
  have hfilter : (Base64.pad (Base64.symbols bs)).filter (fun c => !isAsciiSpace c) =
      Base64.pad (Base64.symbols bs) := by
    rw [List.filter_eq_self]
    intro c hc
    rcases List.mem_append.mp hc with hc | hc
    · rw [isSymbol_token (hsymbol c hc), Bool.not_false]
    · rw [List.eq_of_mem_replicate hc]
      decide
  have hdrop : (dropPadding (Base64.pad (Base64.symbols bs)).reverse).reverse =
      Base64.symbols bs := by
    have hlen := Base64.length_symbols bs
    rw [Base64.pad, List.reverse_append, List.reverse_replicate,
      dropPadding_replicate (fun c hc => hne c (List.mem_reverse.mp hc)) (by omega),
      List.reverse_reverse]
  have hvalues := Base64.values_symbols bs
  rw [atob, hfilter, if_pos (length_pad _), hdrop, if_neg (Base64.length_symbols bs)]
  obtain ⟨l, hl, hbs⟩ := Option.map_eq_some_iff.mp hvalues
  rw [hl, Option.map_some, hbs]

/-- The bytes of the escapes that a string starts with. A surrogate is read as U+0000, which is no
digit either. -/
def unitBytes : JsString → Bytes
  | u :: a :: b :: t =>
    if u = 0x25 then
      match hexByte (Char.ofNat a.toNat) (Char.ofNat b.toNat) with
      | some x => UInt8.ofNat x :: unitBytes t
      | none => []
    else []
  | _ => []

def decodeUnitsFrom : Nat → JsString → Option JsString
  | _, [] => some []
  | k + 1, _ :: t => decodeUnitsFrom k t
  | 0, u :: t =>
    if u = 0x25 then
      (decodeChar (unitBytes (u :: t))).bind fun d =>
        (decodeUnitsFrom (3 * d.utf8Size - 1) t).map fun r => units d ++ r
    else (decodeUnitsFrom 0 t).map fun r => u :: r

/-- `decodeURIComponent` of any string; `none` for the `URIError`. -/
def decodeUnits (s : JsString) : Option JsString := decodeUnitsFrom 0 s

def escapePercents (s : JsString) : JsString :=
  s.flatMap fun u => if u = 0x25 then [0x25, 0x32, 0x35] else [u]

theorem escapePercents_escaped (s : JsString) :
    escapePercents (0x25 :: s) = 0x25 :: 0x32 :: 0x35 :: escapePercents s := rfl

theorem escapePercents_plain {u : UInt16} (hu : u ≠ 0x25) (s : JsString) :
    escapePercents (u :: s) = u :: escapePercents s := by
  rw [escapePercents, List.flatMap_cons, if_neg hu]
  rfl

/-- Where an escape `%25` stands, a single byte is read: what follows is not looked at. -/
theorem decodeUnitsFrom_escaped (t : JsString) :
    decodeUnitsFrom 0 (0x25 :: 0x32 :: 0x35 :: t) =
      (decodeUnitsFrom 0 t).map fun r => 0x25 :: r := by
  have hbytes : unitBytes (0x25 :: 0x32 :: 0x35 :: t) = 0x25 :: unitBytes t := rfl
  have hchar : decodeChar (0x25 :: unitBytes t) = some '%' := decodeChar_append '%' (unitBytes t)
  rw [decodeUnitsFrom, if_pos rfl, hbytes, hchar]
  rfl

theorem decodeUnitsFrom_plain {u : UInt16} (hu : u ≠ 0x25) (t : JsString) :
    decodeUnitsFrom 0 (u :: t) = (decodeUnitsFrom 0 t).map fun r => u :: r := by
  rw [decodeUnitsFrom, if_neg hu]

/-- No escape of several bytes and no malformed one is met, whatever the string holds. -/
theorem decodeUnits_escapePercents (s : JsString) : decodeUnits (escapePercents s) = some s := by
  rw [decodeUnits]
  induction s with
  | nil => rfl
  | cons u s ih =>
    by_cases hu : u = 0x25
    · rw [hu, escapePercents_escaped, decodeUnitsFrom_escaped, ih, Option.map_some]
    · rw [escapePercents_plain hu, decodeUnitsFrom_plain hu, ih, Option.map_some]

theorem escapePercents_of_not_mem {s : JsString} (h : 0x25 ∉ s) : escapePercents s = s := by
  induction s with
  | nil => rfl
  | cons u s ih =>
    obtain ⟨hu, hs⟩ := not_or.mp (mt List.mem_cons.mpr h)
    rw [escapePercents_plain (Ne.symm hu), ih hs]

/-- A string that holds a `%` holds `%25` when it is escaped. -/
theorem infix_escapePercents {s : JsString} (h : 0x25 ∈ s) :
    [0x25, 0x32, 0x35] <:+: escapePercents s := by
  obtain ⟨s₁, s₂, rfl⟩ := List.append_of_mem h
  refine ⟨escapePercents s₁, escapePercents s₂, ?_⟩
  rw [escapePercents, escapePercents, escapePercents, List.flatMap_append, List.flatMap_cons,
    if_pos rfl, List.append_assoc]

end Uri
