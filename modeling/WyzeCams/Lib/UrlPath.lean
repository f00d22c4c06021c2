import WyzeCams.Lib.Uri
import Mathlib.Data.List.DropRight

/-! The path of an `http` URL as the URL standard parses it: characters percent-encoded, segments
split at slashes of both kinds, dot segments resolved. A parsed path is a list of segments. -/
namespace UrlPath
open Uri

def isEncoded (c : Char) : Bool :=
  c.toNat ≤ 0x20 || 0x7F ≤ c.toNat ||
    ['"', '#', '<', '>', '?', '^', Char.ofNat 96, '{', '}'].contains c

def isSlash (c : Char) : Bool := c = '/' || c = '\\'

def isEnd (c : Char) : Bool := c = '?' || c = '#'

def isNewline (c : Char) : Bool := ['\t', '\n', '\r'].contains c

def isControl (c : Char) : Bool := c.toNat ≤ 0x20

def encodePath (t : List Char) : List Char :=
  t.flatMap fun c => if isEncoded c then (String.utf8EncodeChar c).flatMap percent else [c]

def isSingleDot (seg : List Char) : Bool :=
  [['.'], ['%', '2', 'e'], ['%', '2', 'E']].contains seg

def isDoubleDot (seg : List Char) : Bool :=
  let dots := [['.'], ['%', '2', 'e'], ['%', '2', 'E']]
  (dots.flatMap fun a => dots.map fun b => a ++ b).contains seg

/-- The end of a segment in the path state; after a dot segment the path ends with a slash. -/
def pushSegment (path : List (List Char)) (seg : List Char) (last : Bool) : List (List Char) :=
  if isDoubleDot seg then if last then path.dropLast ++ [[]] else path.dropLast
  else if isSingleDot seg then if last then path ++ [[]] else path
  else path ++ [seg]

def pushSegments : List (List Char) → List (List Char) → List (List Char)
  | path, [] => path
  | path, [seg] => pushSegment path seg true
  | path, seg :: segs => pushSegments (pushSegment path seg false) segs

/-- Tabs and newlines are removed from a URL, and controls and spaces from its end. -/
def clean (t : List Char) : List Char :=
  (t.filter fun c => !isNewline c).rdropWhile isControl

def segments (t : List Char) : List (List Char) :=
  pushSegments [] ((((clean t).takeWhile fun c => !isEnd c).splitOnP isSlash).map encodePath)

def pathname (path : List (List Char)) : List Char := path.flatMap fun seg => '/' :: seg

structure Plain (seg : List Char) : Prop where
  chars : ∀ c ∈ seg, isEncoded c = false ∧ isSlash c = false
  single : isSingleDot seg = false
  double : isDoubleDot seg = false

structure Normal (path : List (List Char)) : Prop where
  plain : ∀ seg ∈ path, Plain seg
  ne_nil : path ≠ []

variable {t seg : List Char} {path segs : List (List Char)} {c : Char}

theorem percent_safe (b : UInt8) : ∀ c ∈ percent b, isEncoded c = false ∧ isSlash c = false := by
  have hb := b.toNat_lt
  have hdigit : ∀ n < 16, isEncoded (Hex.upper n) = false ∧
    isSlash (Hex.upper n) = false := by decide
  rw [percent]
  refine List.forall_mem_cons.mpr ⟨by decide, List.forall_mem_cons.mpr ⟨hdigit _ (by omega), ?_⟩⟩
  exact List.forall_mem_singleton.mpr (hdigit _ (by omega))

theorem encodePath_safe (h : ∀ c ∈ t, isSlash c = false) :
    ∀ c ∈ encodePath t, isEncoded c = false ∧ isSlash c = false := by
  intro c hc
  obtain ⟨d, hd, hc⟩ := List.mem_flatMap.mp hc
  split_ifs at hc with hencoded
  · obtain ⟨b, -, hb⟩ := List.mem_flatMap.mp hc
    exact percent_safe b c hb
  · obtain rfl := List.mem_singleton.mp hc
    exact ⟨Bool.eq_false_iff.mpr hencoded, h c hd⟩

def Safe (seg : List Char) : Prop := ∀ c ∈ seg, isEncoded c = false ∧ isSlash c = false

theorem safe_of_all (h : seg.all (fun c => !isEncoded c && !isSlash c) = true) : Safe seg := by
  intro c hc
  have hboth := List.all_eq_true.mp h c hc
  rwa [Bool.and_eq_true, Bool.not_eq_true', Bool.not_eq_true'] at hboth

theorem plain_nil : Plain [] := ⟨fun _ h => absurd h List.not_mem_nil, rfl, by decide⟩

theorem pushSegment_plain (h : ∀ seg ∈ path, Plain seg) (hseg : Safe seg) (last : Bool) :
    ∀ seg' ∈ pushSegment path seg last, Plain seg' := by
  have hdrop : ∀ seg ∈ path.dropLast, Plain seg := fun seg' hs =>
    h seg' (List.dropLast_subset path hs)
  have hnil : ∀ seg ∈ [([] : List Char)], Plain seg := List.forall_mem_singleton.mpr plain_nil
  unfold pushSegment
  split_ifs with hdouble hlast hsingle hlast
  · exact List.forall_mem_append.mpr ⟨hdrop, hnil⟩
  · exact hdrop
  · exact List.forall_mem_append.mpr ⟨h, hnil⟩
  · exact h
  · exact List.forall_mem_append.mpr ⟨h, List.forall_mem_singleton.mpr
      ⟨hseg, Bool.eq_false_iff.mpr hsingle, Bool.eq_false_iff.mpr hdouble⟩⟩

theorem pushSegment_last_ne_nil (path : List (List Char)) (seg : List Char) :
    pushSegment path seg true ≠ [] := by
  unfold pushSegment
  rw [if_pos rfl, if_pos rfl]
  split_ifs
  · exact List.append_ne_nil_of_right_ne_nil _ (List.cons_ne_nil _ _)
  · exact List.append_ne_nil_of_right_ne_nil _ (List.cons_ne_nil _ _)
  · exact List.append_ne_nil_of_right_ne_nil _ (List.cons_ne_nil _ _)

theorem pushSegments_normal (h : ∀ seg ∈ path, Plain seg) (hsegs : ∀ seg ∈ segs, Safe seg)
    (hne : segs ≠ []) : Normal (pushSegments path segs) := by
  induction segs generalizing path with
  | nil => exact absurd rfl hne
  | cons seg segs ih =>
    obtain ⟨hseg, hrest⟩ := List.forall_mem_cons.mp hsegs
    cases segs with
    | nil => exact ⟨pushSegment_plain h hseg true, pushSegment_last_ne_nil path seg⟩
    | cons next segs => exact ih (pushSegment_plain h hseg false) hrest (List.cons_ne_nil next segs)

theorem not_isSlash_of_mem_splitOnP {l : List Char} (hseg : seg ∈ l.splitOnP isSlash) :
    ∀ c ∈ seg, isSlash c = false := by
  induction l generalizing seg with
  | nil =>
    rw [List.splitOnP_nil, List.mem_singleton] at hseg
    rw [hseg]
    exact fun _ h => absurd h List.not_mem_nil
  | cons c l ih =>
    rw [List.splitOnP_cons_eq_if_modifyHead] at hseg
    split_ifs at hseg with hc
    · rcases List.mem_cons.mp hseg with rfl | hseg
      · exact fun _ h => absurd h List.not_mem_nil
      · exact ih hseg
    · cases hsplit : l.splitOnP isSlash with
      | nil => exact absurd hsplit (List.splitOnP_ne_nil _ _)
      | cons first rest =>
        rw [hsplit] at ih hseg
        rw [List.modifyHead_cons] at hseg
        rcases List.mem_cons.mp hseg with rfl | hseg
        · exact List.forall_mem_cons.mpr ⟨Bool.eq_false_iff.mpr hc, ih List.mem_cons_self⟩
        · exact ih (List.mem_cons_of_mem _ hseg)

theorem segments_normal (t : List Char) : Normal (segments t) := by
  refine pushSegments_normal (fun _ h => absurd h List.not_mem_nil) ?_ ?_
  · intro seg hseg
    obtain ⟨raw, hraw, rfl⟩ := List.mem_map.mp hseg
    exact encodePath_safe (not_isSlash_of_mem_splitOnP hraw)
  · exact fun h => List.splitOnP_ne_nil _ _ (List.map_eq_nil_iff.mp h)

theorem pushSegment_of_plain (h : Plain seg) (last : Bool) :
    pushSegment path seg last = path ++ [seg] := by
  unfold pushSegment
  rw [if_neg (by rw [h.double]; decide), if_neg (by rw [h.single]; decide)]

theorem pushSegments_of_plain (h : ∀ seg ∈ segs, Plain seg) :
    pushSegments path segs = path ++ segs := by
  induction segs generalizing path with
  | nil => exact (List.append_nil path).symm
  | cons seg segs ih =>
    obtain ⟨hseg, hrest⟩ := List.forall_mem_cons.mp h
    cases segs with
    | nil => exact pushSegment_of_plain hseg true
    | cons next segs =>
      rw [pushSegments, pushSegment_of_plain hseg, ih hrest, List.append_assoc]
      · rfl
      · exact List.cons_ne_nil next segs

theorem encodePath_of_safe (h : Safe seg) : encodePath seg = seg := by
  induction seg with
  | nil => rfl
  | cons c seg ih =>
    obtain ⟨hc, hrest⟩ := List.forall_mem_cons.mp h
    rw [encodePath, List.flatMap_cons, ← encodePath, ih hrest, if_neg (by rw [hc.1]; decide)]
    rfl

/-- A character that is not encoded is no end of the path and is not removed. -/
theorem keep_of_not_isEncoded (h : isEncoded c = false) :
    isEnd c = false ∧ isNewline c = false ∧ isControl c = false := by
  have hall : ['?', '#', '\t', '\n', '\r'].all isEncoded = true := by decide
  have hends : ∀ d ∈ ['?', '#', '\t', '\n', '\r'], c ≠ d := by
    rintro d hd rfl
    exact absurd (List.all_eq_true.mp hall c hd) (Bool.eq_false_iff.mp h)
  simp only [isEncoded, Bool.or_eq_false_iff] at h
  refine ⟨?_, ?_, h.1.1⟩
  · simp [isEnd, hends]
  · simp [isNewline, hends]

theorem rdropWhile_append_cons {p : Char → Bool} (hc : p c = false) (l t : List Char) :
    (l ++ c :: t).rdropWhile p = l ++ c :: t.rdropWhile p := by
  induction t using List.reverseRecOn with
  | nil => rw [List.rdropWhile_concat_neg _ _ _ (by rw [hc]; decide), List.rdropWhile_nil]
  | append_singleton t d ih =>
    rw [← List.cons_append, ← List.append_assoc, List.rdropWhile_concat, ih, List.rdropWhile_concat]
    split_ifs
    · rfl
    · rw [← List.cons_append, List.append_assoc]

def Tail (t : List Char) : Prop := t = [] ∨ ∃ c r, t = c :: r ∧ isEnd c = true

theorem takeWhile_append_cons {p : Char → Bool} {l : List Char} (hl : ∀ c ∈ l, p c = true)
    (hc : p c = false) (t : List Char) : (l ++ c :: t).takeWhile p = l := by
  rw [List.takeWhile_append_of_pos hl, List.takeWhile_cons_of_neg (by rw [hc]; decide),
    List.append_nil]

/-- The parser reads the path of a URL, and not what follows. -/
theorem takeWhile_clean {l tail : List Char} (hl : ∀ c ∈ l, isEncoded c = false)
    (htail : Tail tail) :
    (clean (l ++ tail)).takeWhile (fun c => !isEnd c) = l := by
  have hend : ∀ c ∈ l, (!isEnd c) = true :=
    fun c hc => by rw [(keep_of_not_isEncoded (hl c hc)).1]; rfl
  have hfilter : l.filter (fun c => !isNewline c) = l :=
    List.filter_eq_self.mpr fun c hc => by rw [(keep_of_not_isEncoded (hl c hc)).2.1]; rfl
  rw [clean, List.filter_append, hfilter]
  rcases htail with rfl | ⟨c, r, rfl, hc⟩
  · have hlast : l.rdropWhile isControl = l :=
      List.rdropWhile_eq_self_iff.mpr fun hne =>
        Bool.eq_false_iff.mp (keep_of_not_isEncoded (hl _ (List.getLast_mem hne))).2.2
    rw [List.filter_nil, List.append_nil, hlast]
    exact List.takeWhile_eq_self_iff.mpr hend
  · have hkeep : (!isNewline c) = true ∧ isControl c = false := by
      rw [isEnd, Bool.or_eq_true, decide_eq_true_eq, decide_eq_true_eq] at hc
      rcases hc with rfl | rfl
      · decide
      · decide
    rw [List.filter_cons, if_pos hkeep.1, rdropWhile_append_cons hkeep.2]
    exact takeWhile_append_cons hend (by rw [hc]; rfl) _

theorem splitOnP_pathname (h : ∀ seg ∈ segs, ∀ c ∈ seg, isSlash c = false)
    (hseg : ∀ c ∈ seg, isSlash c = false) :
    (seg ++ pathname segs).splitOnP isSlash = seg :: segs := by
  induction segs generalizing seg with
  | nil =>
    rw [pathname, List.flatMap_nil, List.append_nil]
    exact List.splitOnP_eq_singleton hseg
  | cons next segs ih =>
    obtain ⟨hnext, hrest⟩ := List.forall_mem_cons.mp h
    rw [pathname, List.flatMap_cons, List.cons_append, ← pathname,
      List.splitOnP_append_cons_of_forall_mem hseg _ (by decide), ih hrest hnext]

/-- A normal path is parsed to itself, whatever follows it in the URL. -/
theorem segments_pathname (h : Normal (seg :: segs)) {tail : List Char} (htail : Tail tail) :
    segments (seg ++ pathname segs ++ tail) = seg :: segs := by
  obtain ⟨hseg, hsegs⟩ := List.forall_mem_cons.mp h.plain
  have hslash : isEncoded '/' = false := by decide
  have hchars : ∀ c ∈ seg ++ pathname segs, isEncoded c = false := by
    refine List.forall_mem_append.mpr ⟨fun c hc => (hseg.chars c hc).1, fun c hc => ?_⟩
    obtain ⟨s, hs, hc⟩ := List.mem_flatMap.mp hc
    rcases List.mem_cons.mp hc with rfl | hc
    · exact hslash
    · exact ((hsegs s hs).chars c hc).1
  have hsplit : (seg ++ pathname segs).splitOnP isSlash = seg :: segs :=
    splitOnP_pathname (fun s hs c hc => ((hsegs s hs).chars c hc).2) fun c hc => (hseg.chars c hc).2
  have hencode : (seg :: segs).map encodePath = seg :: segs :=
    (List.map_congr_left fun s hs => encodePath_of_safe (h.plain s hs).chars).trans (List.map_id _)
  rw [segments, takeWhile_clean hchars htail, hsplit, hencode, pushSegments_of_plain h.plain]
  rfl

/-- A parsed path is parsed to itself again. -/
theorem segments_tail (h : Normal path) {tail : List Char} (htail : Tail tail) :
    segments ((pathname path).tail ++ tail) = path := by
  cases path with
  | nil => exact absurd rfl h.ne_nil
  | cons seg segs => exact segments_pathname h htail

theorem segments_tail_pathname (h : Normal path) : segments (pathname path).tail = path := by
  have hsegments := segments_tail h (.inl rfl : Tail [])
  rwa [List.append_nil] at hsegments

/-- A query does not change the path. -/
theorem segments_append {l tail : List Char} (hl : ∀ c ∈ l, isEncoded c = false)
    (htail : Tail tail) :
    segments (l ++ tail) = segments l := by
  have hnil := takeWhile_clean hl (.inl rfl : Tail [])
  rw [List.append_nil] at hnil
  rw [segments, segments, takeWhile_clean hl htail, hnil]

theorem pathname_append (path segs : List (List Char)) :
    pathname (path ++ segs) = pathname path ++ pathname segs := List.flatMap_append

theorem tail_pathname_concat (h : path ≠ []) (seg : List Char) :
    (pathname (path ++ [seg])).tail = (pathname path).tail ++ '/' :: seg := by
  obtain ⟨first, path, rfl⟩ := List.exists_cons_of_ne_nil h
  have hseg : pathname [seg] = '/' :: seg := List.append_nil ('/' :: seg)
  have hne : pathname (first :: path) ≠ [] := List.cons_ne_nil _ _
  rw [pathname_append, hseg, List.tail_append_of_ne_nil hne]

theorem decodeURIComponent_encodeURIComponent (t : List Char) :
    decodeURIComponent (encodeURIComponent t) = some t := by
  rw [decodeURIComponent]
  induction t with
  | nil => rfl
  | cons c t ih =>
    rw [encodeURIComponent, List.flatMap_cons, ← encodeURIComponent]
    split_ifs with hc
    · rw [List.singleton_append, decodeFrom, if_neg (ne_percent_of_isUnreserved hc), ih,
        Option.map_some]
    · rw [decodeFrom_percents, ih, Option.map_some]

theorem safe_of_isUnreserved (h : isUnreserved c = true) :
    isEncoded c = false ∧ isSlash c = false := by
  have hall : ∀ n < 128, isUnreserved (Char.ofNat n) = true →
      isEncoded (Char.ofNat n) = false ∧ isSlash (Char.ofNat n) = false := by decide
  have hc := hall c.toNat (lt_of_isUnreserved h)
  rw [Char.ofNat_toNat] at hc
  exact hc h

theorem safe_encodeURIComponent (t : List Char) : Safe (encodeURIComponent t) := by
  intro c hc
  obtain ⟨d, -, hc⟩ := List.mem_flatMap.mp hc
  split_ifs at hc with hd
  · obtain rfl := List.mem_singleton.mp hc
    exact safe_of_isUnreserved hd
  · obtain ⟨b, -, hb⟩ := List.mem_flatMap.mp hc
    exact percent_safe b c hb

/-- A component that is written like a dot segment is one. -/
theorem plain_encodeURIComponent (hsingle : t ≠ ['.']) (hdouble : t ≠ ['.', '.']) :
    Plain (encodeURIComponent t) := by
  have hsome := decodeURIComponent_encodeURIComponent t
  refine ⟨safe_encodeURIComponent t, Bool.eq_false_iff.mpr fun h => hsingle ?_,
    Bool.eq_false_iff.mpr fun h => hdouble ?_⟩
  · have hall : ∀ seg ∈ [['.'], ['%', '2', 'e'], ['%', '2', 'E']],
        decodeURIComponent seg = some ['.'] := by decide
    exact Option.some.inj (hsome.symm.trans (hall _ (List.contains_iff_mem.mp h)))
  · have hall : ∀ seg ∈ ([['.'], ['%', '2', 'e'], ['%', '2', 'E']].flatMap fun a =>
        [['.'], ['%', '2', 'e'], ['%', '2', 'E']].map fun b => a ++ b),
        decodeURIComponent seg = some ['.', '.'] := by decide
    exact Option.some.inj (hsome.symm.trans (hall _ (List.contains_iff_mem.mp h)))

theorem encodeURIComponent_ne_nil (h : t ≠ []) : encodeURIComponent t ≠ [] := by
  intro hnil
  have hsome := decodeURIComponent_encodeURIComponent t
  rw [hnil] at hsome
  exact h (Option.some.inj hsome).symm

end UrlPath
