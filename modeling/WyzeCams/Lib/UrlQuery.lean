import WyzeCams.Lib.UrlPath

/-! The query of an `http` URL, and its `searchParams`: pairs of names and values, read as
`application/x-www-form-urlencoded`. -/
namespace UrlQuery
open Uri UrlPath Utf8

def isQueryEncoded (c : Char) : Bool :=
  c.toNat ≤ 0x20 || 0x7F ≤ c.toNat || ['"', '#', '<', '>', '\''].contains c

def encodeQuery (t : List Char) : List Char :=
  t.flatMap fun c => if isQueryEncoded c then (String.utf8EncodeChar c).flatMap percent else [c]

def query (t : List Char) : List Char :=
  match (clean t).dropWhile fun c => !isEnd c with
  | [] => []
  | c :: r => if c = '?' then encodeQuery (r.takeWhile fun c => c ≠ '#') else []

def escapedByte : List Char → Option UInt8
  | a :: b :: _ => (hexByte a b).map UInt8.ofNat
  | _ => none

/-- A reader that jumps over characters counts down how many are left. -/
def percentDecodeFrom : Nat → List Char → Bytes
  | _, [] => []
  | k + 1, _ :: t => percentDecodeFrom k t
  | 0, c :: t =>
    if c = '%' then
      match escapedByte t with
      | some b => b :: percentDecodeFrom 2 t
      | none => String.utf8EncodeChar c ++ percentDecodeFrom 0 t
    else String.utf8EncodeChar c ++ percentDecodeFrom 0 t

def plusToSpace (c : Char) : Char := if c = '+' then ' ' else c

def decode (t : List Char) : List Char := toText (percentDecodeFrom 0 (t.map plusToSpace))

def readPair (t : List Char) : List Char × List Char :=
  (decode (t.takeWhile fun c => c ≠ '='), decode (t.dropWhile fun c => c ≠ '=').tail)

def searchParams (q : List Char) : List (List Char × List Char) :=
  ((q.splitOn '&').filter fun t => t ≠ []).map readPair

def get (params : List (List Char × List Char)) (name : List Char) : Option (List Char) :=
  params.lookup name

def writePair (p : List Char × List Char) : List Char :=
  encodeURIComponent p.1 ++ '=' :: encodeURIComponent p.2

def write (ps : List (List Char × List Char)) : List Char := ['&'].intercalate (ps.map writePair)

variable {t : List Char} {c : Char} {ps : List (List Char × List Char)}

theorem percentDecodeFrom_percent (b : UInt8) (t : List Char) :
    percentDecodeFrom 0 (percent b ++ t) = b :: percentDecodeFrom 0 t := by
  have hbyte : escapedByte (Hex.upper (b.toNat / 16) :: Hex.upper (b.toNat % 16) :: t) =
    some b := by
    rw [escapedByte, hexByte_upper, Option.map_some, UInt8.ofNat_toNat]
  rw [percent, List.cons_append, List.cons_append, List.cons_append, List.nil_append,
    percentDecodeFrom, if_pos rfl, hbyte]
  rfl

theorem percentDecodeFrom_percents (bs : Bytes) (t : List Char) :
    percentDecodeFrom 0 (bs.flatMap percent ++ t) = bs ++ percentDecodeFrom 0 t := by
  induction bs with
  | nil => rfl
  | cons b bs ih => rw [List.flatMap_cons, List.append_assoc, percentDecodeFrom_percent, ih,
      List.cons_append]

theorem percentDecodeFrom_encodeURIComponent (t : List Char) :
    percentDecodeFrom 0 (encodeURIComponent t) = encode t := by
  induction t with
  | nil => rfl
  | cons c t ih =>
    rw [encodeURIComponent, List.flatMap_cons, ← encodeURIComponent, encode,
      List.flatMap_cons, ← encode]
    split_ifs with hc
    · rw [List.singleton_append, percentDecodeFrom, if_neg (ne_percent_of_isUnreserved hc), ih]
    · rw [percentDecodeFrom_percents, ih]

/-- What `encodeURIComponent` writes: unreserved characters, percent signs and digits. -/
theorem all_encodeURIComponent {P : Char → Prop} (hplain : ∀ c, isUnreserved c = true → P c)
    (hpercent : P '%') (t : List Char) : ∀ c ∈ encodeURIComponent t, P c := by
  have hdigits : ∀ n < 16, isUnreserved (Hex.upper n) = true := by decide
  intro c hc
  obtain ⟨d, -, hc⟩ := List.mem_flatMap.mp hc
  split_ifs at hc with hd
  · obtain rfl := List.mem_singleton.mp hc
    exact hplain c hd
  · obtain ⟨b, -, hb⟩ := List.mem_flatMap.mp hc
    have hlt := b.toNat_lt
    rw [percent] at hb
    rcases List.mem_cons.mp hb with rfl | hb
    · exact hpercent
    · rcases List.mem_cons.mp hb with rfl | hb
      · exact hplain _ (hdigits _ (by omega))
      · obtain rfl := List.mem_singleton.mp hb
        exact hplain _ (hdigits _ (by omega))

theorem ne_of_isUnreserved {d : Char} (hd : isUnreserved d = false) (hc : isUnreserved c = true) :
    c ≠ d := by
  rintro rfl
  rw [hd] at hc
  exact Bool.false_ne_true hc

/-- The separators do not occur in a component. -/
theorem separators_encodeURIComponent (t : List Char) :
    ∀ c ∈ encodeURIComponent t, c ≠ '&' ∧ c ≠ '=' ∧ c ≠ '+' := by
  refine all_encodeURIComponent (fun c hc => ⟨?_, ?_, ?_⟩) (by decide) t
  · exact ne_of_isUnreserved (by decide) hc
  · exact ne_of_isUnreserved (by decide) hc
  · exact ne_of_isUnreserved (by decide) hc

theorem decode_encodeURIComponent (t : List Char) : decode (encodeURIComponent t) = t := by
  have hplus : (encodeURIComponent t).map plusToSpace = encodeURIComponent t := by
    refine (List.map_congr_left fun c hc => ?_).trans (List.map_id _)
    exact if_neg (separators_encodeURIComponent t c hc).2.2
  rw [decode, hplus, percentDecodeFrom_encodeURIComponent, toText_encode]

theorem readPair_writePair (p : List Char × List Char) : readPair (writePair p) = p := by
  have hname : ∀ c ∈ encodeURIComponent p.1, decide (c ≠ '=') = true :=
    fun c hc => decide_eq_true (separators_encodeURIComponent p.1 c hc).2.1
  rw [readPair, writePair, takeWhile_append_cons hname (by decide),
    List.dropWhile_append_of_pos hname,
    List.dropWhile_cons_of_neg (by decide), List.tail_cons, decode_encodeURIComponent,
    decode_encodeURIComponent]

theorem not_mem_writePair (p : List Char × List Char) : '&' ∉ writePair p := by
  intro h
  rcases List.mem_append.mp h with h | h
  · exact (separators_encodeURIComponent p.1 _ h).1 rfl
  · rcases List.mem_cons.mp h with h | h
    · exact absurd h (by decide)
    · exact (separators_encodeURIComponent p.2 _ h).1 rfl

/-- The pairs of a query are those that have been written. -/
theorem searchParams_write (h : ps ≠ []) : searchParams (write ps) = ps := by
  have hsplit : (write ps).splitOn '&' = ps.map writePair := by
    refine List.splitOn_intercalate '&' (fun t ht => ?_) (by simpa using h)
    obtain ⟨p, -, rfl⟩ := List.mem_map.mp ht
    exact not_mem_writePair p
  have hfilter : (ps.map writePair).filter (fun t => t ≠ []) = ps.map writePair := by
    refine List.filter_eq_self.mpr fun t ht => ?_
    obtain ⟨p, -, rfl⟩ := List.mem_map.mp ht
    exact decide_eq_true (List.append_ne_nil_of_right_ne_nil _ (List.cons_ne_nil _ _))
  rw [searchParams, hsplit, hfilter, List.map_map]
  exact (List.map_congr_left fun p _ => readPair_writePair p).trans (List.map_id _)

def percents (c : Char) : List Char := (String.utf8EncodeChar c).flatMap percent

/-- The second text is the first one with some characters escaped, none of which an escape is made
of. -/
inductive Escaped : List Char → List Char → Prop where
  | nil : Escaped [] []
  | kept {t u : List Char} (c : Char) (h : Escaped t u) : Escaped (c :: t) (c :: u)
  | escaped {t u : List Char} {c : Char} (hc : c ≠ '%') (hdigit : Hex.value c = none)
      (h : Escaped t u) : Escaped (c :: t) (percents c ++ u)

theorem percents_cons (c : Char) : ∃ r, percents c = '%' :: r := by
  have hlen := String.length_utf8EncodeChar c
  have hpos := Char.utf8Size_pos c
  cases henc : String.utf8EncodeChar c with
  | nil =>
    rw [henc, List.length_nil] at hlen
    omega
  | cons b rest =>
    rw [percents, henc, List.flatMap_cons, percent]
    exact ⟨_, rfl⟩

theorem hexByte_percent (a : Char) : hexByte '%' a = none ∧ hexByte a '%' = none := by
  have hvalue : Hex.value '%' = none := by decide
  rw [hexByte, hexByte, hvalue]
  cases Hex.value a <;> exact ⟨rfl, rfl⟩

theorem Escaped.escapedByte {t u : List Char} (h : Escaped t u) :
    escapedByte u = escapedByte t ∧
      ∀ b, escapedByte t = some b → ∃ x y t' u', t = x :: y :: t' ∧ u = x :: y :: u' ∧
        Escaped t' u' := by
  cases h with
  | nil => exact ⟨rfl, fun b hb => by cases hb⟩
  | @escaped t u c hc hdigit h =>
    have hnone : UrlQuery.escapedByte (c :: t) = none := by
      cases t with
      | nil => rfl
      | cons d t =>
        rw [UrlQuery.escapedByte, hexByte, hdigit]
        rfl
    obtain ⟨r, hr⟩ := percents_cons c
    refine ⟨?_, fun b hb => absurd (hnone.symm.trans hb) (Option.some_ne_none b).symm⟩
    rw [hnone, hr, List.cons_append]
    cases r ++ u with
    | nil => rfl
    | cons d s => rw [UrlQuery.escapedByte, (hexByte_percent d).1, Option.map_none]
  | kept c h =>
    cases h with
    | nil => exact ⟨rfl, fun b hb => by cases hb⟩
    | kept d h => exact ⟨rfl, fun b _ => ⟨c, d, _, _, rfl, rfl, h⟩⟩
    | @escaped t u d hd hdigit h =>
      have hnone : UrlQuery.escapedByte (c :: d :: t) = none := by
        rw [UrlQuery.escapedByte, hexByte, hdigit]
        cases Hex.value c <;> rfl
      obtain ⟨r, hr⟩ := percents_cons d
      refine ⟨?_, fun b hb => absurd (hnone.symm.trans hb) (Option.some_ne_none b).symm⟩
      rw [hnone, hr, List.cons_append, UrlQuery.escapedByte, (hexByte_percent c).2, Option.map_none]

/-- The bytes are the same. -/
theorem Escaped.percentDecodeFrom {t u : List Char} (h : Escaped t u) :
    percentDecodeFrom 0 u = percentDecodeFrom 0 t := by
  induction hn : t.length using Nat.strong_induction_on generalizing t u with
  | h n ih =>
    cases h with
    | nil => rfl
    | @escaped t u c hc hdigit h =>
      rw [percents, percentDecodeFrom_percents, UrlQuery.percentDecodeFrom, if_neg hc]
      rw [ih t.length (by rw [← hn]; exact Nat.lt_succ_self _) h rfl]
    | @kept t u c h =>
      obtain ⟨hbyte, hpair⟩ := h.escapedByte
      have hrest : UrlQuery.percentDecodeFrom 0 u = UrlQuery.percentDecodeFrom 0 t :=
        ih t.length (by rw [← hn]; exact Nat.lt_succ_self _) h rfl
      rw [UrlQuery.percentDecodeFrom, UrlQuery.percentDecodeFrom, hbyte, hrest]
      cases hb : UrlQuery.escapedByte t with
      | none => rfl
      | some b =>
        obtain ⟨x, y, t', u', rfl, rfl, h'⟩ := hpair b hb
        have hlt : t'.length < n := by
          rw [← hn]
          simp only [List.length_cons]
          omega
        have htail : UrlQuery.percentDecodeFrom 2 (x :: y :: u') =
            UrlQuery.percentDecodeFrom 2 (x :: y :: t') := ih t'.length hlt h' rfl
        dsimp only
        rw [htail]

/-- An escape is not made of characters that a query escapes. -/
theorem of_isQueryEncoded (h : isQueryEncoded c = true) :
    c ≠ '%' ∧ c ≠ '+' ∧ Hex.value c = none := by
  refine ⟨by rintro rfl; exact absurd h (by decide), by rintro rfl; exact absurd h (by decide), ?_⟩
  by_cases hc : c.toNat < 128
  · have hall : ∀ n < 128, isQueryEncoded (Char.ofNat n) = true →
      Hex.value (Char.ofNat n) = none := by
      decide
    have hone := hall c.toNat hc
    rw [Char.ofNat_toNat] at hone
    exact hone h
  · have hle : ∀ {d : Char}, c ≤ d → c.toNat ≤ d.toNat := fun hcd => hcd
    have hnot : ∀ {d : Char}, d.toNat < 128 → ¬ c ≤ d :=
      fun hd hcd => hc (Nat.lt_of_le_of_lt (hle hcd) hd)
    rw [Hex.value, if_neg fun h => hnot (by decide) h.2, if_neg fun h => hnot (by decide) h.2,
      if_neg fun h => hnot (by decide) h.2]

theorem percents_ne {d : Char} (hd : isUnreserved d = false) (hpercent : d ≠ '%') :
    ∀ c' ∈ percents c, c' ≠ d := by
  have hdigits : ∀ n < 16, isUnreserved (Hex.upper n) = true := by decide
  intro c' hc
  obtain ⟨b, -, hb⟩ := List.mem_flatMap.mp hc
  have hlt := b.toNat_lt
  rw [percent] at hb
  rcases List.mem_cons.mp hb with rfl | hb
  · exact hpercent.symm
  · rcases List.mem_cons.mp hb with rfl | hb
    · exact ne_of_isUnreserved hd (hdigits _ (by omega))
    · obtain rfl := List.mem_singleton.mp hb
      exact ne_of_isUnreserved hd (hdigits _ (by omega))

theorem escaped_encodeQuery (t : List Char) :
    Escaped (t.map plusToSpace) ((encodeQuery t).map plusToSpace) := by
  induction t with
  | nil => exact .nil
  | cons c t ih =>
    rw [encodeQuery, List.flatMap_cons, ← encodeQuery, List.map_append, List.map_cons]
    split_ifs with hc
    · obtain ⟨hpercent, hplus, hdigit⟩ := of_isQueryEncoded hc
      have hmap : (percents c).map plusToSpace = percents c := by
        refine (List.map_congr_left fun d hd => if_neg ?_).trans (List.map_id _)
        exact percents_ne (by decide) (by decide) d hd
      have hsame : plusToSpace c = c := if_neg hplus
      rw [hsame]
      exact hmap ▸ .escaped hpercent hdigit ih
    · exact .kept _ ih

theorem decode_encodeQuery (t : List Char) : decode (encodeQuery t) = decode t := by
  rw [decode, decode, (escaped_encodeQuery t).percentDecodeFrom]

-- Where each character is written as itself or as some that `p` does not stop at, a text splits as
-- before.

section Splits
variable {p : Char → Bool} {f : Char → List Char}

theorem takeWhile_flatMap (hstop : ∀ c, p c = false → f c = [c])
    (hgo : ∀ c, p c = true → ∀ x ∈ f c, p x = true) (t : List Char) :
    (t.flatMap f).takeWhile p = (t.takeWhile p).flatMap f := by
  induction t with
  | nil => rfl
  | cons c t ih =>
    rw [List.flatMap_cons, List.takeWhile_cons]
    cases hc : p c with
    | true =>
      rw [List.takeWhile_append_of_pos (hgo c hc), ih]
      exact (List.flatMap_cons ..).symm
    | false =>
      rw [hstop c hc, List.singleton_append, List.takeWhile_cons, hc]
      rfl

theorem dropWhile_flatMap (hstop : ∀ c, p c = false → f c = [c])
    (hgo : ∀ c, p c = true → ∀ x ∈ f c, p x = true) (t : List Char) :
    (t.flatMap f).dropWhile p = (t.dropWhile p).flatMap f := by
  induction t with
  | nil => rfl
  | cons c t ih =>
    rw [List.flatMap_cons, List.dropWhile_cons]
    cases hc : p c with
    | true =>
      rw [List.dropWhile_append_of_pos (hgo c hc), ih]
      rfl
    | false =>
      rw [hstop c hc, List.singleton_append, List.dropWhile_cons, hc, if_neg Bool.false_ne_true,
        if_neg Bool.false_ne_true, List.flatMap_cons, hstop c hc]
      rfl

theorem splitOnP_append {l : List Char} (hl : ∀ c ∈ l, p c = true) (t : List Char) :
    (l ++ t).splitOnP (fun c => !p c) = (t.splitOnP fun c => !p c).modifyHead (l ++ ·) := by
  induction l with
  | nil =>
    rw [List.nil_append]
    cases t.splitOnP fun c => !p c <;> rfl
  | cons c l ih =>
    obtain ⟨hc, hrest⟩ := List.forall_mem_cons.mp hl
    rw [List.cons_append, List.splitOnP_cons_eq_if_modifyHead,
      if_neg (by rw [hc]; decide), ih hrest]
    cases t.splitOnP fun c => !p c <;> rfl

theorem splitOnP_flatMap (hstop : ∀ c, p c = false → f c = [c])
    (hgo : ∀ c, p c = true → ∀ x ∈ f c, p x = true) (t : List Char) :
    (t.flatMap f).splitOnP (fun c => !p c) =
      (t.splitOnP fun c => !p c).map fun l => l.flatMap f := by
  induction t with
  | nil => rfl
  | cons c t ih =>
    rw [List.flatMap_cons, List.splitOnP_cons_eq_if_modifyHead]
    cases hc : p c with
    | true =>
      rw [splitOnP_append (hgo c hc), ih, if_neg (by decide)]
      cases t.splitOnP fun c => !p c with
      | nil => rfl
      | cons l ls => exact congrArg (· :: _) (List.flatMap_cons ..).symm
    | false =>
      rw [hstop c hc, List.singleton_append, List.splitOnP_cons_eq_if_modifyHead, hc,
        if_pos (by decide),
        if_pos (by decide), ih]
      rfl

end Splits

def encodeChar (c : Char) : List Char := if isQueryEncoded c then percents c else [c]

theorem encodeQuery_eq (t : List Char) : encodeQuery t = t.flatMap encodeChar := rfl

/-- A separator is kept, and nothing else is written with one. -/
theorem encodeChar_separator {d : Char} (hd : isUnreserved d = false ∧ d ≠ '%' ∧
    isQueryEncoded d = false) :
    (∀ c, decide (c ≠ d) = false → encodeChar c = [c]) ∧
      ∀ c, decide (c ≠ d) = true → ∀ x ∈ encodeChar c, decide (x ≠ d) = true := by
  obtain ⟨hreserved, hpercent, hkept⟩ := hd
  refine ⟨fun c hc => ?_, fun c hc x hx => ?_⟩
  · obtain rfl : c = d := not_not.mp (of_decide_eq_false hc)
    exact if_neg (by rw [hkept]; exact Bool.false_ne_true)
  · refine decide_eq_true ?_
    rw [encodeChar] at hx
    split_ifs at hx
    · exact percents_ne hreserved hpercent x hx
    · rw [List.mem_singleton.mp hx]
      exact of_decide_eq_true hc

theorem readPair_encodeQuery (t : List Char) : readPair (encodeQuery t) = readPair t := by
  obtain ⟨hstop, hgo⟩ := encodeChar_separator (d := '=') (by decide)
  have htail : ((t.dropWhile fun c => c ≠ '=').flatMap encodeChar).tail =
      encodeQuery (t.dropWhile fun c => c ≠ '=').tail := by
    cases hdrop : t.dropWhile fun c => c ≠ '=' with
    | nil => rfl
    | cons c r =>
      have hc : decide (c ≠ '=') = false := by
        have hhead := List.head?_dropWhile_not (fun c => decide (c ≠ '=')) t
        rw [hdrop] at hhead
        exact Bool.eq_false_iff.mpr (by simpa using hhead)
      rw [List.flatMap_cons, hstop c hc]
      rfl
  rw [readPair, encodeQuery_eq, takeWhile_flatMap hstop hgo, dropWhile_flatMap hstop hgo, htail,
    ← encodeQuery_eq, decode_encodeQuery, decode_encodeQuery, ← readPair]

theorem encodeQuery_ne_nil : encodeQuery t ≠ [] ↔ t ≠ [] := by
  cases t with
  | nil => exact Iff.rfl
  | cons c t =>
    refine iff_of_true ?_ (List.cons_ne_nil c t)
    rw [encodeQuery_eq, List.flatMap_cons, encodeChar]
    split_ifs
    · obtain ⟨r, hr⟩ := percents_cons c
      rw [hr]
      exact List.cons_ne_nil _ _
    · exact List.cons_ne_nil _ _

/-- The encoding of a query does not change its parameters. -/
theorem searchParams_encodeQuery (q : List Char) :
    searchParams (encodeQuery q) = searchParams q := by
  obtain ⟨hstop, hgo⟩ := encodeChar_separator (d := '&') (by decide)
  have hsplit : (encodeQuery q).splitOn '&' = (q.splitOn '&').map encodeQuery := by
    have hp : ∀ t : List Char, t.splitOn '&' = t.splitOnP fun c => !decide (c ≠ '&') := by
      intro t
      refine congrArg (fun p => t.splitOnP p) (funext fun c => ?_)
      by_cases hc : c = '&' <;> simp [hc]
    rw [hp, hp, encodeQuery_eq, splitOnP_flatMap hstop hgo]
    rfl
  rw [searchParams, searchParams, hsplit, List.filter_map, List.map_map]
  have hfilter : (q.splitOn '&').filter ((fun t => decide (t ≠ [])) ∘ encodeQuery) =
      (q.splitOn '&').filter fun t => decide (t ≠ []) :=
    List.filter_congr fun t _ => decide_eq_decide.mpr encodeQuery_ne_nil
  rw [hfilter]
  exact List.map_congr_left fun t _ => readPair_encodeQuery t

/-- A character that stands in a query neither ends it nor is removed from it. -/
theorem of_not_isQueryEncoded (h : isQueryEncoded c = false) : c ≠ '#' ∧ isControl c = false := by
  refine ⟨by rintro rfl; exact absurd h (by decide), ?_⟩
  simp only [isQueryEncoded, Bool.or_eq_false_iff] at h
  exact h.1.1

theorem not_isQueryEncoded_of_mem {q : List Char} :
    ∀ c ∈ encodeQuery q, isQueryEncoded c = false := by
  have hdigits : ∀ n < 16, isQueryEncoded (Hex.upper n) = false := by decide
  intro c hc
  obtain ⟨d, -, hc⟩ := List.mem_flatMap.mp hc
  split_ifs at hc with hd
  · obtain ⟨b, -, hb⟩ := List.mem_flatMap.mp hc
    have hlt := b.toNat_lt
    rw [percent] at hb
    rcases List.mem_cons.mp hb with rfl | hb
    · decide
    · rcases List.mem_cons.mp hb with rfl | hb
      · exact hdigits _ (by omega)
      · obtain rfl := List.mem_singleton.mp hb
        exact hdigits _ (by omega)
  · obtain rfl := List.mem_singleton.mp hc
    exact Bool.eq_false_iff.mpr hd

/-- What follows the question mark of a URL is its query, unless it ends it. -/
theorem query_append {l q : List Char} (hl : ∀ c ∈ l, isEncoded c = false)
    (hq : ∀ c ∈ q, c ≠ '#' ∧ isControl c = false) : query (l ++ '?' :: q) = encodeQuery q := by
  have hplain : ∀ c, isControl c = false → (!isNewline c) = true := by
    intro c hc
    by_contra hn
    have hnewline : isNewline c = true := by simpa using hn
    have hall : ['\t', '\n', '\r'].all isControl = true := by decide
    have hcontrol := List.all_eq_true.mp hall c (List.contains_iff_mem.mp hnewline)
    exact Bool.false_ne_true (hc.symm.trans hcontrol)
  have hchars : ∀ c ∈ l ++ '?' :: q, isControl c = false := by
    refine List.forall_mem_append.mpr ⟨fun c hc => (keep_of_not_isEncoded (hl c hc)).2.2, ?_⟩
    exact List.forall_mem_cons.mpr ⟨by decide, fun c hc => (hq c hc).2⟩
  have hclean : clean (l ++ '?' :: q) = l ++ '?' :: q := by
    rw [clean, List.filter_eq_self.mpr fun c hc => hplain c (hchars c hc),
      List.rdropWhile_eq_self_iff]
    intro hne
    exact Bool.eq_false_iff.mp (hchars _ (List.getLast_mem hne))
  have hpath : ∀ c ∈ l, (!isEnd c) = true :=
    fun c hc => by rw [(keep_of_not_isEncoded (hl c hc)).1]; rfl
  have hquery : q.takeWhile (fun c => c ≠ '#') = q :=
    List.takeWhile_eq_self_iff.mpr fun c hc => decide_eq_true (hq c hc).1
  rw [query, hclean, List.dropWhile_append_of_pos hpath, List.dropWhile_cons_of_neg (by decide)]
  exact (if_pos rfl).trans (congrArg encodeQuery hquery)

theorem write_singleton (p : List Char × List Char) : write [p] = writePair p :=
  List.intercalate_singleton

theorem write_cons (h : ps ≠ []) (p : List Char × List Char) :
    write (p :: ps) = writePair p ++ '&' :: write ps := by
  rw [write, List.map_cons, List.intercalate_cons_of_ne_nil (by simpa using h), List.append_assoc]
  rfl

theorem write_ne_nil (h : ps ≠ []) : write ps ≠ [] := by
  intro hnil
  have hread := searchParams_write h
  rw [hnil] at hread
  exact h hread.symm

theorem write_kept (ps : List (List Char × List Char)) :
    ∀ c ∈ write ps, c ≠ '#' ∧ isControl c = false := by
  have hcomponent : ∀ t, ∀ c ∈ encodeURIComponent t, c ≠ '#' ∧ isControl c = false := by
    refine all_encodeURIComponent (fun c hc => ?_) (by decide)
    obtain ⟨hencoded, -⟩ := safe_of_isUnreserved hc
    exact ⟨ne_of_isUnreserved (by decide) hc, (keep_of_not_isEncoded hencoded).2.2⟩
  have hpair : ∀ p, ∀ c ∈ writePair p, c ≠ '#' ∧ isControl c = false := by
    refine fun p => List.forall_mem_append.mpr ⟨hcomponent p.1, ?_⟩
    exact List.forall_mem_cons.mpr ⟨by decide, hcomponent p.2⟩
  induction ps with
  | nil => exact fun _ h => absurd h List.not_mem_nil
  | cons p ps ih =>
    by_cases hps : ps = []
    · rw [hps, write_singleton]
      exact hpair p
    · rw [write_cons hps]
      exact List.forall_mem_append.mpr ⟨hpair p, List.forall_mem_cons.mpr ⟨by decide, ih⟩⟩

end UrlQuery
