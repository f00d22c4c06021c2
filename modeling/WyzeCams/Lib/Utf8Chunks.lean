import WyzeCams.Lib.Utf8Decode

/-! A text in UTF-8 that is read in chunks, each of them by itself: what is left of a character that
the chunks cut. -/
namespace Utf8

abbrev REPLACEMENT : Char := Char.ofNat 0xFFFD

def readChunks (chunks : List Bytes) : List Char := chunks.flatMap toText

/-- Every chunk is UTF-8 by itself: none of them ends within a character. -/
def Aligned (chunks : List Bytes) : Prop := ∀ chunk ∈ chunks, ∃ t, chunk = encode t

/-- The second text is the first one with some characters torn, if `torn` is true: each of those
has become two replacement characters or more. -/
inductive Torn : Bool → List Char → List Char → Prop
  | nil : Torn false [] []
  | keep {torn : Bool} {t u : List Char} (c : Char) (h : Torn torn t u) :
      Torn torn (c :: t) (c :: u)
  | cut {torn : Bool} {t u : List Char} {c : Char} {k : Nat} (hc : 128 ≤ c.toNat) (hk : 2 ≤ k)
      (h : Torn torn t u) : Torn true (c :: t) (List.replicate k REPLACEMENT ++ u)

theorem encode_cons (c : Char) (t : List Char) :
    encode (c :: t) = String.utf8EncodeChar c ++ encode t :=
  List.flatMap_cons

theorem readChunks_cons (chunk : Bytes) (chunks : List Bytes) :
    readChunks (chunk :: chunks) = toText chunk ++ readChunks chunks :=
  List.flatMap_cons

def IsContinuation (b : UInt8) : Prop := 128 ≤ b.toNat ∧ b.toNat < 192

theorem isContinuation_ofNat (n : Nat) : IsContinuation (UInt8.ofNat (n % 64 + 128)) := by
  rw [IsContinuation, UInt8.toNat_ofNat']
  omega

theorem not_isContinuation_ofNat {n : Nat} (hn : n < 128 ∨ 192 ≤ n) (hlt : n < 256) :
    ¬ IsContinuation (UInt8.ofNat n) := by
  rw [IsContinuation, UInt8.toNat_ofNat']
  omega

/-- A first byte, and continuation bytes behind it. -/
theorem utf8EncodeChar_cons (c : Char) : ∃ b rest, String.utf8EncodeChar c = b :: rest ∧
    ¬ IsContinuation b ∧ ∀ d ∈ rest, IsContinuation d := by
  rw [String.utf8EncodeChar]
  split_ifs with h1 h2 h3
  · exact ⟨_, _, rfl, not_isContinuation_ofNat (by omega) (by omega), List.forall_mem_nil _⟩
  · refine ⟨_, _, rfl, not_isContinuation_ofNat (by omega) (by omega), ?_⟩
    simp only [List.forall_mem_cons, List.not_mem_nil, false_imp_iff, implies_true, and_true]
    exact isContinuation_ofNat _
  · refine ⟨_, _, rfl, not_isContinuation_ofNat (by omega) (by omega), ?_⟩
    simp only [List.forall_mem_cons, List.not_mem_nil, false_imp_iff, implies_true, and_true]
    exact ⟨isContinuation_ofNat _, isContinuation_ofNat _⟩
  · refine ⟨_, _, rfl, not_isContinuation_ofNat (by omega) (by omega), ?_⟩
    simp only [List.forall_mem_cons, List.not_mem_nil, false_imp_iff, implies_true, and_true]
    exact ⟨isContinuation_ofNat _, isContinuation_ofNat _, isContinuation_ofNat _⟩

/-- What is read at the head of some bytes stands there. -/
theorem eq_of_decodeChar {bs : Bytes} {c : Char} (h : decodeChar bs = some c) :
    ∃ rest, bs = String.utf8EncodeChar c ++ rest := by
  obtain ⟨l, hl⟩ := ByteArray.exists_of_utf8DecodeChar?_eq_some h
  refine ⟨l.data.toList, ?_⟩
  have hlist := congrArg (fun a => a.data.toList) hl
  simpa using hlist

theorem decodeChar_continuation {b : UInt8} (hb : IsContinuation b) (bs : Bytes) :
    decodeChar (b :: bs) = none := by
  by_contra hne
  obtain ⟨c, hc⟩ := Option.ne_none_iff_exists'.mp hne
  obtain ⟨rest, heq⟩ := eq_of_decodeChar hc
  obtain ⟨d, ds, henc, hd, -⟩ := utf8EncodeChar_cons c
  rw [henc, List.cons_append] at heq
  exact hd ((List.cons.inj heq).1 ▸ hb)

/-- A part of the bytes of a character is read as none. -/
theorem decodeChar_part {c : Char} {p s : Bytes} (h : String.utf8EncodeChar c = p ++ s)
    (hs : s ≠ []) : decodeChar p = none := by
  by_contra hne
  obtain ⟨d, hd⟩ := Option.ne_none_iff_exists'.mp hne
  obtain ⟨rest, heq⟩ := eq_of_decodeChar hd
  have hwhole : decodeChar (String.utf8EncodeChar c) = some c := by
    have hc := decodeChar_append c []
    rwa [List.append_nil] at hc
  have hsame : decodeChar (String.utf8EncodeChar c) = some d := by
    rw [h, heq, List.append_assoc]
    exact decodeChar_append d _
  have hcd : c = d := Option.some.inj (hwhole.symm.trans hsame)
  rw [heq, hcd, List.append_assoc] at h
  have hnil := List.append_cancel_left ((List.append_nil _).trans h)
  exact hs (List.append_eq_nil_iff.mp hnil.symm).2

/-- Bytes at none of which a character can be read. -/
theorem toTextFrom_unreadable {bs : Bytes} (h : ∀ q, q <:+ bs → q ≠ [] → decodeChar q = none)
    (k : Nat) : ∃ m, toTextFrom k bs = List.replicate m REPLACEMENT ∧
    (k = 0 → bs ≠ [] → 1 ≤ m) := by
  induction bs generalizing k with
  | nil => exact ⟨0, by rw [toTextFrom]; rfl, fun _ hne => absurd rfl hne⟩
  | cons b bs ih =>
    have hrest : ∀ q, q <:+ bs → q ≠ [] → decodeChar q = none :=
      fun q hq => h q (hq.trans (List.suffix_cons b bs))
    cases k with
    | succ k =>
      obtain ⟨m, hm, -⟩ := ih hrest k
      exact ⟨m, hm, fun hk => absurd hk (Nat.succ_ne_zero k)⟩
    | zero =>
      obtain ⟨m, hm, -⟩ := ih hrest (subpart (b :: bs) - 1)
      refine ⟨m + 1, ?_, fun _ _ => Nat.le_add_left 1 m⟩
      rw [toTextFrom, h _ List.suffix_rfl (List.cons_ne_nil _ _)]
      dsimp only
      rw [hm, List.replicate_succ]

theorem subpart_continuation {b : UInt8} (hb : IsContinuation b) (bs : Bytes) :
    subpart (b :: bs) = 1 := by
  obtain ⟨hlow, hhigh⟩ := hb
  have hfits : ∀ c, secondFits b c = false := by
    intro c
    have hne : ∀ d : UInt8, 192 ≤ d.toNat → b ≠ d := by
      rintro d hd rfl
      omega
    have hlt : ¬ (0xE1 : UInt8) ≤ b := by
      rw [UInt8.le_iff_toNat_le]
      exact Nat.not_le_of_lt (Nat.lt_of_lt_of_le hhigh (by decide))
    rw [secondFits, if_neg (hne 0xE0 (by decide)), if_neg (hne 0xED (by decide)),
      if_neg (hne 0xF0 (by decide)), if_neg (hne 0xF4 (by decide)), decide_eq_false hlt]
    rfl
  match bs with
  | [] => rfl
  | [c] => simp [subpart, hfits]
  | c :: d :: bs => simp [subpart, hfits]

/-- Continuation bytes are replaced one by one. -/
theorem toText_continuation {s : Bytes} (hs : ∀ b ∈ s, IsContinuation b) (bs : Bytes) :
    toText (s ++ bs) = List.replicate s.length REPLACEMENT ++ toText bs := by
  induction s with
  | nil => rfl
  | cons b s ih =>
    have hb := hs b List.mem_cons_self
    rw [List.cons_append, toText, toTextFrom, decodeChar_continuation hb]
    dsimp only
    rw [subpart_continuation hb, List.length_cons, List.replicate_succ, List.cons_append,
      ← ih fun c hc => hs c (List.mem_cons_of_mem b hc)]
    rfl

/-- The first bytes of a character, but not all. -/
theorem toText_part {c : Char} {p s : Bytes} (h : String.utf8EncodeChar c = p ++ s) (hp : p ≠ [])
    (hs : s ≠ []) : ∃ m, 1 ≤ m ∧ toText p = List.replicate m REPLACEMENT := by
  obtain ⟨b, rest, henc, -, hrest⟩ := utf8EncodeChar_cons c
  have hunreadable : ∀ q, q <:+ p → q ≠ [] → decodeChar q = none := by
    rintro q ⟨r, hr⟩ hq
    cases r with
    | nil =>
      rw [List.nil_append] at hr
      rw [hr]
      exact decodeChar_part h hs
    | cons a r =>
      cases q with
      | nil => exact absurd rfl hq
      | cons d q =>
        rw [henc, ← hr, List.cons_append, List.cons_append] at h
        apply decodeChar_continuation (hrest d ?_)
        rw [(List.cons.inj h).2]
        simp
  obtain ⟨m, hm, hpos⟩ := toTextFrom_unreadable hunreadable 0
  exact ⟨m, hpos rfl hp, hm⟩

/-- The rest of a character that the chunks before have begun. -/
theorem readChunks_continuation {chunks : List Bytes} {s bs : Bytes}
    (hs : ∀ b ∈ s, IsContinuation b) (h : chunks.flatten = s ++ bs) :
    ∃ chunks', chunks'.flatten = bs ∧
      readChunks chunks = List.replicate s.length REPLACEMENT ++ readChunks chunks' := by
  induction chunks generalizing s with
  | nil =>
    obtain ⟨rfl, rfl⟩ := List.append_eq_nil_iff.mp h.symm
    exact ⟨[], rfl, rfl⟩
  | cons chunk chunks ih =>
    rw [List.flatten_cons] at h
    rcases List.append_eq_append_iff.mp h with ⟨as, hsplit, hrest⟩ | ⟨cs, hsplit, hrest⟩
    · rw [hsplit] at hs
      obtain ⟨chunks', hflat, hread⟩ := ih (fun b hb => hs b (List.mem_append_right _ hb)) hrest
      have hchunk := toText_continuation (fun b hb => hs b (List.mem_append_left _ hb)) []
      have hnil : toText [] = [] := rfl
      rw [List.append_nil, hnil, List.append_nil] at hchunk
      refine ⟨chunks', hflat, ?_⟩
      rw [readChunks_cons, hchunk, hread, hsplit, List.length_append, List.replicate_add,
        List.append_assoc]
    · refine ⟨cs :: chunks, by rw [List.flatten_cons, hrest], ?_⟩
      rw [readChunks_cons, readChunks_cons, hsplit, toText_continuation hs, List.append_assoc]

/-- The first character of a text is whole in its chunk, or it is cut. -/
theorem readChunks_char {chunks : List Bytes} {c : Char} {bs : Bytes}
    (h : chunks.flatten = String.utf8EncodeChar c ++ bs) :
    (∃ chunks', chunks'.flatten = bs ∧ readChunks chunks = c :: readChunks chunks' ∧
      (Aligned chunks' → Aligned chunks)) ∨
    ∃ chunks' k, 128 ≤ c.toNat ∧ 2 ≤ k ∧ chunks'.flatten = bs ∧
      readChunks chunks = List.replicate k REPLACEMENT ++ readChunks chunks' := by
  obtain ⟨b, rest, henc, -, hrest⟩ := utf8EncodeChar_cons c
  induction chunks with
  | nil =>
    rw [henc] at h
    exact absurd h.symm (List.cons_ne_nil _ _)
  | cons chunk chunks ih =>
    rw [List.flatten_cons] at h
    rcases List.append_eq_append_iff.mp h with ⟨as, hsplit, hflat⟩ | ⟨cs, hsplit, hflat⟩
    · by_cases hempty : chunk = []
      · subst hempty
        rw [List.nil_append] at hsplit
        rw [← hsplit] at hflat
        have hread : readChunks ([] :: chunks) = readChunks chunks := rfl
        rw [hread]
        refine (ih hflat).imp (fun ⟨chunks', hbs, hkeep, halign⟩ => ⟨chunks', hbs, hkeep, ?_⟩) id
        exact fun hchunks => List.forall_mem_cons.mpr ⟨⟨[], rfl⟩, halign hchunks⟩
      · by_cases hwhole : as = []
        · subst hwhole
          rw [List.append_nil] at hsplit
          have htext : toText chunk = [c] := by
            have hone := toText_encode [c]
            rwa [encode_cons, encode, List.flatMap_nil, List.append_nil, hsplit] at hone
          refine .inl ⟨chunks, hflat, by rw [readChunks_cons, htext]; rfl, fun hchunks => ?_⟩
          exact List.forall_mem_cons.mpr ⟨⟨[c], by rw [← hsplit]; simp [encode]⟩, hchunks⟩
        · obtain ⟨m, hm, hpart⟩ := toText_part hsplit hempty hwhole
          have hlen := congrArg List.length hsplit
          have hpos := List.length_pos_iff.mpr hempty
          have hpos' := List.length_pos_iff.mpr hwhole
          rw [List.length_append] at hlen
          have hcont : ∀ d ∈ as, IsContinuation d := by
            intro d hd
            cases chunk with
            | nil => exact absurd rfl hempty
            | cons a chunk =>
              rw [henc, List.cons_append] at hsplit
              apply hrest
              rw [(List.cons.inj hsplit).2]
              exact List.mem_append_right _ hd
          obtain ⟨chunks', hbs, hread⟩ := readChunks_continuation hcont hflat
          have hwide : 128 ≤ c.toNat := by
            by_contra hlow
            rw [utf8EncodeChar_of_lt (by omega), List.length_singleton] at hlen
            omega
          refine .inr ⟨chunks', m + as.length, hwide, by omega, hbs, ?_⟩
          rw [readChunks_cons, hpart, hread, List.replicate_add, List.append_assoc]
    · refine .inl ⟨cs :: chunks, by rw [List.flatten_cons, hflat], ?_, fun hchunks => ?_⟩
      · rw [readChunks_cons, readChunks_cons, hsplit, toText, toTextFrom_char]
        rfl
      · obtain ⟨⟨t, ht⟩, hrest⟩ := List.forall_mem_cons.mp hchunks
        exact List.forall_mem_cons.mpr ⟨⟨c :: t, by rw [hsplit, ht, encode_cons]⟩, hrest⟩

/-- Read in chunks a text has its characters, but for those that the chunks cut. -/
theorem torn_readChunks {chunks : List Bytes} {text : List Char}
    (h : chunks.flatten = encode text) :
    ∃ torn, Torn torn text (readChunks chunks) ∧ (torn = false → Aligned chunks) := by
  induction text generalizing chunks with
  | nil =>
    have hempty : ∀ chunk ∈ chunks, chunk = [] := List.flatten_eq_nil_iff.mp h
    have hread : readChunks chunks = [] := by
      rw [readChunks, List.flatMap_eq_nil_iff]
      intro chunk hchunk
      rw [hempty chunk hchunk]
      rfl
    rw [hread]
    exact ⟨false, .nil, fun _ chunk hchunk => ⟨[], hempty chunk hchunk⟩⟩
  | cons c text ih =>
    rw [encode_cons] at h
    rcases readChunks_char h with ⟨chunks', hflat, hread, halign⟩ | ⟨chunks', k, hc,
      hk, hflat, hread⟩
    · obtain ⟨torn, htorn, hall⟩ := ih hflat
      rw [hread]
      exact ⟨torn, .keep c htorn, fun hno => halign (hall hno)⟩
    · obtain ⟨torn, htorn, -⟩ := ih hflat
      rw [hread]
      exact ⟨true, .cut hc hk htorn, nofun⟩

/-- Chunks that cut no character are read as the text. -/
theorem readChunks_aligned {chunks : List Bytes} {text : List Char}
    (h : chunks.flatten = encode text) (haligned : Aligned chunks) : readChunks chunks = text := by
  have hflat : chunks.flatten = encode (readChunks chunks) := by
    clear h
    induction chunks with
    | nil => rfl
    | cons chunk chunks ih =>
      obtain ⟨⟨t, ht⟩, hrest⟩ := List.forall_mem_cons.mp haligned
      rw [List.flatten_cons, readChunks_cons, ht, toText_encode, ih hrest, encode, encode, encode,
        List.flatMap_append]
  have hencode := congrArg toText (hflat.symm.trans h)
  rwa [toText_encode, toText_encode] at hencode

end Utf8
