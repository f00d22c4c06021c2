import WyzeCams.Lib.JsonMembers
import WyzeCams.Lib.JsonText

/-! JSON texts that differ only in runs of characters outside ASCII: they are read alike, and their
values differ where the runs do. -/
namespace Json
open Utf16

def Wide (ws : List Char) : Prop := ws ≠ [] ∧ ∀ c ∈ ws, 128 ≤ c.toNat

inductive Alike (ρ : List Char → List Char → Prop) : List Char → List Char → Prop
  | nil : Alike ρ [] []
  | keep {t u : List Char} (c : Char) (h : Alike ρ t u) : Alike ρ (c :: t) (c :: u)
  | run {ws ds t u : List Char} (hrun : ρ ws ds) (h : Alike ρ t u) : Alike ρ (ws ++ t) (ds ++ u)

def Runs (ρ : List Char → List Char → Prop) : Prop := ∀ ws ds, ρ ws ds → Wide ws ∧ Wide ds

/-- The right side is no shorter, and a string tells which side it has. -/
def Faithful (ρ : List Char → List Char → Prop) : Prop := ∀ ws ds, ρ ws ds →
  (ofText ws).length ≤ (ofText ds).length ∧
    ∀ s s' : JsString, s.length ≤ s'.length → ofText ws ++ s ≠ ofText ds ++ s'

variable {ρ : List Char → List Char → Prop}

theorem Alike.flip {t u : List Char} (h : Alike ρ t u) : Alike (fun ws ds => ρ ds ws) u t := by
  induction h with
  | nil => exact .nil
  | keep c _ ih => exact .keep c ih
  | run hrun _ ih => exact .run hrun ih

theorem Runs.flip (hρ : Runs ρ) : Runs fun ws ds => ρ ds ws :=
  fun ws ds h => ⟨(hρ ds ws h).2, (hρ ds ws h).1⟩

theorem Wide.exists_cons {ws : List Char} (h : Wide ws) :
    ∃ c rest, ws = c :: rest ∧ 128 ≤ c.toNat := by
  obtain ⟨hne, hwide⟩ := h
  cases ws with
  | nil => exact absurd rfl hne
  | cons c rest => exact ⟨c, rest, rfl, hwide c List.mem_cons_self⟩

theorem Wide.length_pos {ws : List Char} (h : Wide ws) : 0 < ws.length :=
  List.length_pos_iff.mpr h.1

/-- Both texts start with the same character, or with characters outside ASCII. -/
theorem Alike.head (hρ : Runs ρ) {t u : List Char} (h : Alike ρ t u) :
    (t = [] ∧ u = []) ∨ (∃ c t' u', t = c :: t' ∧ u = c :: u' ∧ Alike ρ t' u') ∨
      ∃ c d t' u', t = c :: t' ∧ u = d :: u' ∧ 128 ≤ c.toNat ∧ 128 ≤ d.toNat := by
  cases h with
  | nil => exact .inl ⟨rfl, rfl⟩
  | keep c h => exact .inr (.inl ⟨c, _, _, rfl, rfl, h⟩)
  | run hrun h =>
    obtain ⟨hws, hds⟩ := hρ _ _ hrun
    obtain ⟨c, ws, rfl, hc⟩ := hws.exists_cons
    obtain ⟨d, ds, rfl, hd⟩ := hds.exists_cons
    exact .inr (.inr ⟨c, d, _, _, rfl, rfl, hc, hd⟩)

/-- A character of ASCII stands in both texts. -/
theorem Alike.ascii (hρ : Runs ρ) {c : Char} {t u : List Char} (hc : c.toNat < 128)
    (h : Alike ρ (c :: t) u) : ∃ u', u = c :: u' ∧ Alike ρ t u' := by
  rcases h.head hρ with ⟨hnil, -⟩ | ⟨d, t', u', ht, hu, h⟩ | ⟨d, e, t', u', ht, hu, hd, he⟩
  · exact absurd hnil (List.cons_ne_nil _ _)
  · obtain ⟨rfl, rfl⟩ := List.cons.inj ht
    exact ⟨u', hu, h⟩
  · obtain ⟨rfl, -⟩ := List.cons.inj ht
    omega

/-- Characters that are all of ASCII are the same at the head of both texts. -/
theorem Alike.span (hρ : Runs ρ) {p : Char → Bool} (hp : ∀ c, p c = true → c.toNat < 128)
    {t u : List Char} (h : Alike ρ t u) :
    t.takeWhile p = u.takeWhile p ∧ Alike ρ (t.dropWhile p) (u.dropWhile p) := by
  have hwide : ∀ {c : Char}, 128 ≤ c.toNat → ¬ p c = true := fun hc hpc => by
    have hlt := hp _ hpc
    omega
  induction h with
  | nil => exact ⟨rfl, .nil⟩
  | keep c h ih =>
    by_cases hc : p c = true
    · rw [List.takeWhile_cons_of_pos hc, List.takeWhile_cons_of_pos hc,
        List.dropWhile_cons_of_pos hc, List.dropWhile_cons_of_pos hc, ih.1]
      exact ⟨rfl, ih.2⟩
    · rw [List.takeWhile_cons_of_neg hc, List.takeWhile_cons_of_neg hc,
        List.dropWhile_cons_of_neg hc, List.dropWhile_cons_of_neg hc]
      exact ⟨rfl, .keep c h⟩
  | run hrun h _ =>
    obtain ⟨hws, hds⟩ := hρ _ _ hrun
    obtain ⟨c, ws, hwc, hc⟩ := hws.exists_cons
    obtain ⟨d, ds, hdd, hd⟩ := hds.exists_cons
    have hrest := Alike.run hrun h
    rw [hwc, hdd, List.cons_append, List.cons_append] at hrest ⊢
    rw [List.takeWhile_cons_of_neg (hwide hc), List.takeWhile_cons_of_neg (hwide hd),
      List.dropWhile_cons_of_neg (hwide hc), List.dropWhile_cons_of_neg (hwide hd)]
    exact ⟨rfl, hrest⟩

/-- What has been read at the heads of `t` and `u`, up to `r` and `r'`: where it is the `same` and
so are the rests, the texts are the same. -/
structure ReadAlike (ρ : List Char → List Char → Prop) (t u r r' : List Char) (same : Prop) : Prop
    where
  rest : Alike ρ r r'
  shorter : r'.length < u.length
  inj : Faithful ρ → same → r = r' → t = u

theorem ReadAlike.trans {t u r r' q q' : List Char} {same same' : Prop}
    (h : ReadAlike ρ t u r r' same) (h' : ReadAlike ρ r r' q q' same') :
    ReadAlike ρ t u q q' (same ∧ same') where
  rest := h'.rest
  shorter := Nat.lt_trans h'.shorter h.shorter
  inj hf hsame hq := h.inj hf hsame.1 (h'.inj hf hsame.2 hq)

theorem ReadAlike.imp {t u r r' : List Char} {same same' : Prop} (h : ReadAlike ρ t u r r' same)
    (himp : same' → same) : ReadAlike ρ t u r r' same' :=
  ⟨h.rest, h.shorter, fun hf hsame => h.inj hf (himp hsame)⟩

theorem readAlike_cons {t u : List Char} (c : Char) (h : Alike ρ t u) :
    ReadAlike ρ (c :: t) (c :: u) t u True :=
  ⟨h, Nat.lt_succ_self _, fun _ _ heq => by rw [heq]⟩

theorem toNat_of_isSpace {c : Char} (h : isSpace c = true) : c.toNat < 128 := by
  simp only [isSpace, Bool.or_eq_true, decide_eq_true_iff] at h
  rcases h with ((rfl | rfl) | rfl) | rfl <;> decide

/-- White space is passed over in both texts. -/
theorem Alike.skip (hρ : Runs ρ) {t u : List Char} (h : Alike ρ t u) :
    Alike ρ (skip t) (skip u) ∧ (skip u).length ≤ u.length ∧ (skip t = skip u → t = u) := by
  obtain ⟨htake, hdrop⟩ := h.span hρ fun _ => toNat_of_isSpace
  refine ⟨hdrop, (List.dropWhile_suffix _).length_le, fun heq => ?_⟩
  rw [← List.takeWhile_append_dropWhile (p := isSpace) (l := t),
    ← List.takeWhile_append_dropWhile (p := isSpace) (l := u), htake]
  exact congrArg _ heq

/-- A character that is read behind white space. -/
theorem Alike.token (hρ : Runs ρ) {t u r : List Char} {c : Char} (hc : c.toNat < 128)
    (h : Alike ρ t u) (hskip : Json.skip t = c :: r) :
    ∃ r', Json.skip u = c :: r' ∧ ReadAlike ρ t u r r' True := by
  obtain ⟨halike, hlen, hsame⟩ := h.skip hρ
  rw [hskip] at halike hsame
  obtain ⟨r', hr', hrest⟩ := halike.ascii hρ hc
  rw [hr', List.length_cons] at hlen
  refine ⟨r', hr', hrest, hlen, fun _ _ heq => hsame ?_⟩
  rw [hr', heq]

theorem Alike.expect (hρ : Runs ρ) {t u r : List Char} {c : Char} (hc : c.toNat < 128)
    (h : Alike ρ t u) (hread : expect c t = some r) :
    ∃ r', Json.expect c u = some r' ∧ ReadAlike ρ t u r r' True := by
  rw [Json.expect] at hread
  cases hskip : Json.skip t with
  | nil => rw [hskip] at hread; cases hread
  | cons d q =>
    rw [hskip] at hread
    dsimp only at hread
    split_ifs at hread with hd
    obtain rfl := Option.some.inj hread
    obtain ⟨r', hr', hboth⟩ := h.token hρ (by rw [hd]; exact hc) hskip
    refine ⟨r', ?_, hboth⟩
    rw [Json.expect, hr']
    exact if_pos hd

theorem Alike.expect_none (hρ : Runs ρ) {t u : List Char} {c : Char} (hc : c.toNat < 128)
    (h : Alike ρ t u) (hread : Json.expect c t = none) : Json.expect c u = none := by
  cases hexpect : Json.expect c u with
  | none => rfl
  | some r =>
    obtain ⟨r', hr', -⟩ := h.flip.expect hρ.flip hc hexpect
    rw [hread] at hr'
    cases hr'

theorem Alike.append (hρ : Runs ρ) {w : List Char} (hw : ∀ c ∈ w, c.toNat < 128) {t u : List Char}
    (h : Alike ρ (w ++ t) u) : ∃ u', u = w ++ u' ∧ Alike ρ t u' := by
  induction w generalizing u with
  | nil => exact ⟨u, rfl, h⟩
  | cons c w ih =>
    obtain ⟨q, rfl, hq⟩ := Alike.ascii hρ (hw c List.mem_cons_self) h
    obtain ⟨u', rfl, hu⟩ := ih (fun d hd => hw d (List.mem_cons_of_mem c hd)) hq
    exact ⟨u', rfl, hu⟩

theorem readAlike_append {w : List Char} (hw : w ≠ []) {t u : List Char} (h : Alike ρ t u) :
    ReadAlike ρ (w ++ t) (w ++ u) t u True := by
  have hpos := List.length_pos_iff.mpr hw
  refine ⟨h, ?_, fun _ _ heq => by rw [heq]⟩
  rw [List.length_append]
  omega

def Takes {α : Type} (read : List Char → Option (α × List Char)) : Prop :=
  ∀ t a r, read t = some (a, r) → ∃ w : List Char, w ≠ [] ∧ (∀ c ∈ w, c.toNat < 128) ∧ t = w ++ r ∧
    ∀ r', read (w ++ r') = some (a, r')

theorem Alike.takes (hρ : Runs ρ) {α : Type} {read : List Char → Option (α × List Char)}
    (hread : Takes read) {t u r : List Char} {a : α} (h : Alike ρ t u) (ha : read t = some (a, r)) :
    ∃ r', read u = some (a, r') ∧ ReadAlike ρ t u r r' True := by
  obtain ⟨w, hne, hw, rfl, hrest⟩ := hread t a r ha
  obtain ⟨r', rfl, halike⟩ := h.append hρ hw
  exact ⟨r', hrest r', readAlike_append hne halike⟩

theorem append_of_keyword {word t r : List Char} (h : keyword word t = some r) : t = word ++ r := by
  induction word generalizing t with
  | nil => exact Option.some.inj h
  | cons a word ih =>
    cases t with
    | nil => cases h
    | cons c t =>
      rw [keyword] at h
      split_ifs at h with hc
      rw [hc, ih h, List.cons_append]

theorem ascii_of_all {word : List Char} (h : word.all (fun c => decide (c.toNat < 128)) = true) :
    ∀ c ∈ word, c.toNat < 128 :=
  fun c hc => of_decide_eq_true (List.all_eq_true.mp h c hc)

theorem takes_keyword {α : Type} {word : List Char} (hne : word ≠ [])
    (hword : ∀ c ∈ word, c.toNat < 128) (a : α) :
    Takes fun t => (keyword word t).map fun r => (a, r) := by
  intro t b r h
  obtain ⟨q, hq, heq⟩ := Option.map_eq_some_iff.mp h
  obtain ⟨rfl, rfl⟩ := Prod.mk.inj heq
  refine ⟨word, hne, hword, append_of_keyword hq, fun r' => ?_⟩
  dsimp only
  rw [keyword_append, Option.map_some]

theorem toNat_of_hexValue {c : Char} {n : Nat} (h : Hex.value c = some n) : c.toNat < 128 := by
  rw [Hex.value] at h
  have hle : ∀ {d : Char}, c ≤ d → c.toNat ≤ d.toNat := fun hcd => hcd
  split_ifs at h with h1 h2 h3
  · exact Nat.lt_of_le_of_lt (hle h1.2) (by decide)
  · exact Nat.lt_of_le_of_lt (hle h2.2) (by decide)
  · exact Nat.lt_of_le_of_lt (hle h3.2) (by decide)

theorem takes_readHex : Takes fun t => (readHex t).map fun p => ([p.1], p.2) := by
  intro t s r h
  obtain ⟨⟨x, q⟩, hq, heq⟩ := Option.map_eq_some_iff.mp h
  obtain ⟨rfl, rfl⟩ := Prod.mk.inj heq
  match t with
  | a :: b :: c :: d :: rest =>
    simp only [readHex, Option.bind_eq_bind, Option.bind_eq_some_iff] at hq
    obtain ⟨i, hi, j, hj, k, hk, l, hl, hx⟩ := hq
    obtain ⟨rfl, rfl⟩ := Prod.mk.inj (Option.some.inj hx)
    refine ⟨[a, b, c, d], List.cons_ne_nil _ _, ?_, rfl, fun r' => ?_⟩
    · simp only [List.forall_mem_cons, List.not_mem_nil, false_imp_iff, implies_true, and_true]
      exact ⟨toNat_of_hexValue hi, toNat_of_hexValue hj, toNat_of_hexValue hk, toNat_of_hexValue hl⟩
    · simp only [List.cons_append, List.nil_append, readHex, hi, hj, hk, hl, Option.bind_eq_bind,
        Option.bind_some, Option.map_some]
  | [] => cases hq
  | [_] => cases hq
  | [_, _] => cases hq
  | [_, _, _] => cases hq

theorem toNat_of_simpleEscape {c : Char} {u : UInt16} (h : simpleEscape c = some u) :
    c.toNat < 128 := by
  rw [simpleEscape] at h
  split_ifs at h with h1 h2 h3 h4 h5 h6 h7 h8
  · rw [h1]; decide
  · rw [h2]; decide
  · rw [h3]; decide
  · rw [h4]; decide
  · rw [h5]; decide
  · rw [h6]; decide
  · rw [h7]; decide
  · rw [h8]; decide

theorem takes_readEscape : Takes readEscape := by
  intro t s r h
  cases t with
  | nil => cases h
  | cons c t =>
    rw [readEscape] at h
    split_ifs at h with hc
    · obtain ⟨w, -, hw, rfl, hrest⟩ := takes_readHex t s r h
      refine ⟨c :: w, List.cons_ne_nil _ _, List.forall_mem_cons.mpr ⟨by rw [hc]; decide, hw⟩, rfl,
        fun r' => ?_⟩
      rw [List.cons_append, readEscape, if_pos hc]
      exact hrest r'
    · obtain ⟨u, hu, heq⟩ := Option.map_eq_some_iff.mp h
      obtain ⟨rfl, rfl⟩ := Prod.mk.inj heq
      refine ⟨[c], List.cons_ne_nil _ _, ?_, rfl, fun r' => ?_⟩
      · simpa using toNat_of_simpleEscape hu
      · rw [List.singleton_append, readEscape, if_neg hc, hu, Option.map_some]

/-- Wide characters are read one by one. -/
theorem readString_wide {c : Char} (hc : 128 ≤ c.toNat) (n : Nat) (t : List Char) :
    readString (n + 1) (c :: t) = (readString n t).map fun q => (units c ++ q.1, q.2) := by
  have hne : ∀ d : Char, d.toNat < 128 → c ≠ d := by
    rintro d hd rfl
    omega
  rw [readString, if_neg (hne '"' (by decide)), if_neg (hne '\\' (by decide)), if_neg (by omega)]

theorem of_readString_wide {ws : List Char} (hws : ∀ c ∈ ws, 128 ≤ c.toNat) {n : Nat}
    {t r : List Char} {s : JsString} (h : readString n (ws ++ t) = some (s, r)) :
    ∃ m s', n = m + ws.length ∧ readString m t = some (s', r) ∧ s = ofText ws ++ s' := by
  induction ws generalizing n s with
  | nil => exact ⟨n, s, rfl, h, rfl⟩
  | cons c ws ih =>
    cases n with
    | zero => cases h
    | succ n =>
      rw [List.cons_append, readString_wide (hws c List.mem_cons_self)] at h
      obtain ⟨⟨s', q⟩, hq, heq⟩ := Option.map_eq_some_iff.mp h
      obtain ⟨rfl, rfl⟩ := Prod.mk.inj heq
      obtain ⟨m, s'', rfl, hread, rfl⟩ := ih (fun d hd => hws d (List.mem_cons_of_mem c hd)) hq
      refine ⟨m, s'', by rw [List.length_cons, Nat.add_assoc], hread, ?_⟩
      rw [ofText_cons, List.append_assoc]

theorem readString_wides {ws : List Char} (hws : ∀ c ∈ ws, 128 ≤ c.toNat) {m : Nat}
    {t r : List Char} {s : JsString} (h : readString m t = some (s, r)) :
    readString (m + ws.length) (ws ++ t) = some (ofText ws ++ s, r) := by
  induction ws with
  | nil => exact h
  | cons c ws ih =>
    rw [List.length_cons, ← Nat.add_assoc, List.cons_append,
      readString_wide (hws c List.mem_cons_self), ih fun d hd => hws d (List.mem_cons_of_mem c hd),
      Option.map_some, ofText_cons, List.append_assoc]

/-- With a bound that allows for what it takes, the reader takes `x` from the head of `u`. -/
def ReadsTo {α : Type} (read : Nat → List Char → Option (α × List Char)) (u : List Char) (x : α)
    (r : List Char) : Prop := ∀ m, u.length ≤ m + r.length → read m u = some (x, r)

theorem readsTo_of {α : Type} {read : Nat → List Char → Option (α × List Char)} {u r : List Char}
    {x : α} (hlt : r.length < u.length)
    (h : ∀ m, u.length ≤ m + 1 + r.length → read (m + 1) u = some (x, r)) : ReadsTo read u x r := by
  intro m hm
  cases m with
  | zero => omega
  | succ m => exact h m hm

/-- A string is read in both texts; where a run differs, so does the string. -/
theorem Alike.readString (hρ : Runs ρ) {n : Nat} {t u r : List Char} {s : JsString}
    (h : Alike ρ t u) (hread : readString n t = some (s, r)) :
    ∃ s' r', ReadsTo Json.readString u s' r' ∧ ReadAlike ρ t u r r' (s = s') ∧
      (Faithful ρ → s.length ≤ s'.length) := by
  induction n using Nat.strongRecOn generalizing t u s with
  | ind n ih =>
    cases h with
    | nil => cases n <;> cases hread
    | @keep t u c h =>
      cases n with
      | zero => cases hread
      | succ n =>
        rw [Json.readString] at hread
        split_ifs at hread with hquote hescape hcontrol
        · obtain ⟨rfl, rfl⟩ := Prod.mk.inj (Option.some.inj hread)
          refine ⟨[], u, readsTo_of (Nat.lt_succ_self _) fun m _ => ?_, (readAlike_cons c h).imp
            fun _ => trivial, fun _ => Nat.le_refl _⟩
          rw [Json.readString, if_pos hquote]
        · obtain ⟨⟨e, q⟩, hq, hrest⟩ := Option.bind_eq_some_iff.mp hread
          obtain ⟨⟨s₁, r₁⟩, hs₁, heq⟩ := Option.map_eq_some_iff.mp hrest
          obtain ⟨rfl, rfl⟩ := Prod.mk.inj heq
          obtain ⟨q', hq', hescaped⟩ := h.takes hρ takes_readEscape hq
          obtain ⟨s', r', hs', hstring, hlen⟩ := ih n (Nat.lt_succ_self n) hescaped.rest hs₁
          have hboth := ((readAlike_cons c h).trans hescaped).trans hstring
          refine ⟨e ++ s', r', readsTo_of hboth.shorter fun m hm => ?_, hboth.imp fun hsame =>
            ⟨⟨trivial, trivial⟩, List.append_cancel_left hsame⟩, fun hf => ?_⟩
          · have hshort := hescaped.shorter
            rw [List.length_cons] at hm
            rw [Json.readString, if_neg hquote, if_pos hescape, hq', Option.bind_some,
              hs' m (by omega), Option.map_some]
          · rw [List.length_append, List.length_append]
            exact Nat.add_le_add_left (hlen hf) _
        · obtain ⟨⟨s₁, r₁⟩, hs₁, heq⟩ := Option.map_eq_some_iff.mp hread
          obtain ⟨rfl, rfl⟩ := Prod.mk.inj heq
          obtain ⟨s', r', hs', hstring, hlen⟩ := ih n (Nat.lt_succ_self n) h hs₁
          have hboth := (readAlike_cons c h).trans hstring
          refine ⟨units c ++ s', r', readsTo_of hboth.shorter fun m hm => ?_, hboth.imp
            fun hsame => ⟨trivial, List.append_cancel_left hsame⟩, fun hf => ?_⟩
          · rw [List.length_cons] at hm
            rw [Json.readString, if_neg hquote, if_neg hescape, if_neg hcontrol, hs' m (by omega),
              Option.map_some]
          · rw [List.length_append, List.length_append]
            exact Nat.add_le_add_left (hlen hf) _
    | @run ws ds t u hrun h =>
      obtain ⟨hws, hds⟩ := hρ ws ds hrun
      have hpos := hws.length_pos
      obtain ⟨m, s₁, rfl, hs₁, rfl⟩ := of_readString_wide hws.2 hread
      obtain ⟨s', r', hs', hstring, hlen⟩ := ih m (by omega) h hs₁
      have hshort := hstring.shorter
      have hlength : (ds ++ u).length = ds.length + u.length := List.length_append
      refine ⟨ofText ds ++ s', r', fun k hk => ?_, ⟨hstring.rest, by omega, fun hf hsame _ => ?_⟩,
        fun hf => ?_⟩
      · rw [hlength] at hk
        have hread' := readString_wides hds.2 (hs' (k - ds.length) (by omega))
        rwa [Nat.sub_add_cancel (by omega)] at hread'
      · exact absurd hsame ((hf ws ds hrun).2 s₁ s' (hlen hf))
      · rw [List.length_append, List.length_append]
        exact Nat.add_le_add (hf ws ds hrun).1 (hlen hf)

section Values
variable {ν : Type} {fmt : NumberFormat ν}

theorem toNat_of_isDigit {c : Char} (h : isDigit c = true) : c.toNat < 128 := by
  rw [isDigit, Bool.and_eq_true, decide_eq_true_iff, decide_eq_true_iff] at h
  have hle : c.toNat ≤ '9'.toNat := h.2
  exact Nat.lt_of_le_of_lt hle (by decide)

theorem toNat_of_isNumberChar {c : Char} (h : isNumberChar c = true) : c.toNat < 128 := by
  simp only [isNumberChar, Bool.or_eq_true, decide_eq_true_iff] at h
  rcases h with ((((h | rfl) | rfl) | rfl) | rfl) | rfl
  · exact toNat_of_isDigit h
  all_goals decide

theorem Alike.number (hρ : Runs ρ) {t u r : List Char} {v : Value ν} (h : Alike ρ t u)
    (hread : readNumber fmt t = some (v, r)) :
    ∃ r', readNumber fmt u = some (v, r') ∧ ReadAlike ρ t u r r' True := by
  obtain ⟨htake, hdrop⟩ := h.span hρ fun _ => toNat_of_isNumberChar
  rw [readNumber] at hread
  split_ifs at hread with hnumber
  obtain ⟨rfl, rfl⟩ := Prod.mk.inj (Option.some.inj hread)
  refine ⟨u.dropWhile isNumberChar, ?_, hdrop, ?_, fun _ _ heq => ?_⟩
  · rw [readNumber, ← htake, if_pos hnumber]
  · have hne : u.takeWhile isNumberChar ≠ [] := by
      intro hnil
      rw [htake, hnil] at hnumber
      cases hnumber
    have hpos := List.length_pos_iff.mpr hne
    have hlen := congrArg List.length (List.takeWhile_append_dropWhile (p := isNumberChar) (l := u))
    rw [List.length_append] at hlen
    omega
  · rw [← List.takeWhile_append_dropWhile (p := isNumberChar) (l := t),
      ← List.takeWhile_append_dropWhile (p := isNumberChar) (l := u), htake, heq]

theorem Alike.keyword (hρ : Runs ρ) {word t u r : List Char} (hne : word ≠ [])
    (hword : ∀ c ∈ word, c.toNat < 128) (h : Alike ρ t u) (hread : keyword word t = some r) :
    ∃ r', Json.keyword word u = some r' ∧ ReadAlike ρ t u r r' True := by
  obtain ⟨r', hr', hboth⟩ := h.takes hρ (takes_keyword hne hword ()) (r := r) (a := ()) (by
    rw [hread, Option.map_some])
  obtain ⟨q, hq, heq⟩ := Option.map_eq_some_iff.mp hr'
  obtain ⟨-, rfl⟩ := Prod.mk.inj heq
  exact ⟨q, hq, hboth⟩

def readMember (fmt : NumberFormat ν) (n : Nat) (t : List Char) :
    Option ((JsString × Value ν) × List Char) :=
  ((expect '"' t).bind (readString n)).bind fun p =>
    ((expect ':' p.2).bind (readAll fmt n)).map fun q => ((p.1, q.1), q.2)

theorem readAllItems_succ (n : Nat) (t : List Char) :
    readAllItems fmt (n + 1) t = (readAll fmt n t).bind fun p =>
      match expect ',' p.2 with
      | some r => (readAllItems fmt n r).map fun q => (p.1 :: q.1, q.2)
      | none => (expect ']' p.2).map fun r => ([p.1], r) := by
  rw [readAllItems]
  cases readAll fmt n t with
  | none => rfl
  | some p => rfl

theorem readAllMembers_succ (n : Nat) (t : List Char) :
    readAllMembers fmt (n + 1) t = (readMember fmt n t).bind fun p =>
      match expect ',' p.2 with
      | some r => (readAllMembers fmt n r).map fun q => (p.1 :: q.1, q.2)
      | none => (expect '\x7d' p.2).map fun r => ([p.1], r) := by
  rw [readAllMembers, readMember]
  cases (expect '"' t).bind (readString n) with
  | none => rfl
  | some p =>
    obtain ⟨k, r⟩ := p
    dsimp only [Option.bind_some]
    cases (expect ':' r).bind (readAll fmt n) with
    | none => rfl
    | some q => rfl

/-- What has been read of `t` is read of `u` too, in the same shape. -/
def ValueAlike (ρ : List Char → List Char → Prop) {α β : Type}
    (read : Nat → List Char → Option (α × List Char)) (shape : α → β) (t u : List Char) (v : α)
    (r : List Char) : Prop :=
  ∃ v' r', ReadsTo read u v' r' ∧ ReadAlike ρ t u r r' (v = v') ∧ shape v = shape v'

theorem valueAlike_keyword (hρ : Runs ρ) {word : List Char} (hne : word ≠ [])
    (hword : ∀ c ∈ word, c.toNat < 128) {c : Char} (hc : c.toNat < 128) {a : Value ν}
    (hall : ∀ n t r, skip t = c :: r →
      readAll fmt (n + 1) t = (keyword word r).map fun r => (a, r))
    {t u q r : List Char} {v : Value ν} (h : Alike ρ t u) (hskip : skip t = c :: q)
    (hread : ((keyword word q).map fun r => (a, r)) = some (v, r)) :
    ValueAlike ρ (readAll fmt) skeleton t u v r := by
  obtain ⟨q', hq', htoken⟩ := h.token hρ hc hskip
  obtain ⟨r₁, hr₁, heq⟩ := Option.map_eq_some_iff.mp hread
  obtain ⟨rfl, rfl⟩ := Prod.mk.inj heq
  obtain ⟨r', hr', hkeyword⟩ := htoken.rest.keyword hρ hne hword hr₁
  have hboth := htoken.trans hkeyword
  refine ⟨a, r', readsTo_of hboth.shorter fun m _ => ?_, hboth.imp fun _ => ⟨trivial, trivial⟩, rfl⟩
  rw [hall m u q' hq', hr', Option.map_some]

/-- Arrays and objects: a bracket, and the other one, or something `inner` up to it. -/
theorem valueAlike_bracket (hρ : Runs ρ) {α β : Type} {c close : Char} (hc : c.toNat < 128)
    (hclose : close.toNat < 128) {inner : Nat → List Char → Option (List α × List Char)}
    {shape : List α → List β} {mk : List α → Value ν} (hmk : ∀ xs ys, mk xs = mk ys → xs = ys)
    (hshape : ∀ xs ys, shape xs = shape ys → skeleton (mk xs) = skeleton (mk ys))
    (hall : ∀ n t r, skip t = c :: r → readAll fmt (n + 1) t =
      match expect close r with
      | some r => some (mk [], r)
      | none => (inner n r).map fun p => (mk p.1, p.2))
    {n : Nat} (hinner : ∀ {t u r : List Char} {xs : List α}, Alike ρ t u →
      inner n t = some (xs, r) → ValueAlike ρ inner shape t u xs r)
    {t u q r : List Char} {v : Value ν} (h : Alike ρ t u) (hskip : skip t = c :: q)
    (hread : (match expect close q with
      | some r => some (mk [], r)
      | none => (inner n q).map fun p => (mk p.1, p.2)) = some (v, r)) :
    ValueAlike ρ (readAll fmt) skeleton t u v r := by
  obtain ⟨q', hq', htoken⟩ := h.token hρ hc hskip
  have hshort := htoken.shorter
  cases hend : expect close q with
  | some r₁ =>
    rw [hend] at hread
    obtain ⟨rfl, rfl⟩ := Prod.mk.inj (Option.some.inj hread)
    obtain ⟨r', hr', hexpect⟩ := htoken.rest.expect hρ hclose hend
    have hboth := htoken.trans hexpect
    refine ⟨mk [], r', readsTo_of hboth.shorter fun m _ => ?_, hboth.imp fun _ =>
      ⟨trivial, trivial⟩, rfl⟩
    rw [hall m u q' hq', hr']
  | none =>
    rw [hend] at hread
    obtain ⟨⟨xs, r₁⟩, hr₁, heq⟩ := Option.map_eq_some_iff.mp hread
    obtain ⟨rfl, rfl⟩ := Prod.mk.inj heq
    have hend' := htoken.rest.expect_none hρ hclose hend
    obtain ⟨ys, r', hr', hrest, hskel⟩ := hinner htoken.rest hr₁
    have hboth := htoken.trans hrest
    refine ⟨mk ys, r', readsTo_of hboth.shorter fun m hm => ?_, hboth.imp fun hsame =>
      ⟨trivial, hmk xs ys hsame⟩, hshape xs ys hskel⟩
    rw [hall m u q' hq', hend']
    dsimp only
    rw [hr' m (by omega), Option.map_some]

/-- The entries of an array or an object: after each comes a comma and more of them, or the closing
bracket. -/
theorem valueAlike_entries (hρ : Runs ρ) {α β : Type} (close : Char) (hclose : close.toNat < 128)
    {entry : Nat → List Char → Option (α × List Char)}
    {entries : Nat → List Char → Option (List α × List Char)} {shape : α → β}
    {shapes : List α → List β} (hshapes : ∀ x xs, shapes (x :: xs) = shape x :: shapes xs)
    (hentries : ∀ n t, entries (n + 1) t = (entry n t).bind fun p =>
      match expect ',' p.2 with
      | some r => (entries n r).map fun q => (p.1 :: q.1, q.2)
      | none => (expect close p.2).map fun r => ([p.1], r))
    {n : Nat} (hentry : ∀ {t u r : List Char} {x : α}, Alike ρ t u →
      entry n t = some (x, r) → ValueAlike ρ entry shape t u x r)
    (hmore : ∀ {t u r : List Char} {xs : List α}, Alike ρ t u →
      entries n t = some (xs, r) → ValueAlike ρ entries shapes t u xs r)
    {t u r : List Char} {xs : List α} (h : Alike ρ t u) (hread : entries (n + 1) t = some (xs, r)) :
    ValueAlike ρ entries shapes t u xs r := by
  rw [hentries] at hread
  obtain ⟨⟨x, q⟩, hx, hread⟩ := Option.bind_eq_some_iff.mp hread
  dsimp only at hread
  obtain ⟨x', q', hx', halike, hshape⟩ := hentry h hx
  have hshort := halike.shorter
  cases hcomma : expect ',' q with
  | some q₁ =>
    rw [hcomma] at hread
    obtain ⟨⟨ws, r₁⟩, hws, heq⟩ := Option.map_eq_some_iff.mp hread
    obtain ⟨rfl, rfl⟩ := Prod.mk.inj heq
    obtain ⟨q₁', hcomma', hexpect⟩ := halike.rest.expect hρ (by decide) hcomma
    obtain ⟨ws', r', hws', hrest, hshape'⟩ := hmore hexpect.rest hws
    have hboth := (halike.trans hexpect).trans hrest
    have hshort' := hexpect.shorter
    have hshort'' := hrest.shorter
    refine ⟨x' :: ws', r', readsTo_of hboth.shorter fun m hm => ?_, hboth.imp fun hsame => ?_, ?_⟩
    · rw [hentries, hx' m (by omega), Option.bind_some]
      dsimp only
      rw [hcomma']
      dsimp only
      rw [hws' m (by omega), Option.map_some]
    · obtain ⟨hhead, htail⟩ := List.cons.inj hsame
      exact ⟨⟨hhead, trivial⟩, htail⟩
    · rw [hshapes, hshapes, hshape, hshape']
  | none =>
    rw [hcomma] at hread
    obtain ⟨r₁, hend, heq⟩ := Option.map_eq_some_iff.mp hread
    obtain ⟨rfl, rfl⟩ := Prod.mk.inj heq
    have hcomma' := halike.rest.expect_none hρ (by decide) hcomma
    obtain ⟨r', hend', hexpect⟩ := halike.rest.expect hρ hclose hend
    have hboth := halike.trans hexpect
    have hshort' := hexpect.shorter
    refine ⟨[x'], r', readsTo_of hboth.shorter fun m hm => ?_, hboth.imp fun hsame => ?_, ?_⟩
    · rw [hentries, hx' m (by omega), Option.bind_some]
      dsimp only
      rw [hcomma']
      dsimp only
      rw [hend', Option.map_some]
    · exact ⟨(List.cons.inj hsame).1, trivial⟩
    · rw [hshapes, hshapes, hshape]

theorem valueAlike_member (hρ : Runs ρ) {n : Nat}
    (hvalue : ∀ {t u r : List Char} {v : Value ν}, Alike ρ t u →
      readAll fmt n t = some (v, r) → ValueAlike ρ (readAll fmt) skeleton t u v r)
    {t u r : List Char} {m : JsString × Value ν} (h : Alike ρ t u)
    (hread : readMember fmt n t = some (m, r)) :
    ValueAlike ρ (readMember fmt) (fun m => (([] : JsString), skeleton m.2)) t u m r := by
  rw [readMember] at hread
  obtain ⟨⟨k, q⟩, hname, hread⟩ := Option.bind_eq_some_iff.mp hread
  obtain ⟨⟨v, r₁⟩, hval, heq⟩ := Option.map_eq_some_iff.mp hread
  obtain ⟨rfl, rfl⟩ := Prod.mk.inj heq
  obtain ⟨t₁, ht₁, hname⟩ := Option.bind_eq_some_iff.mp hname
  obtain ⟨t₂, ht₂, hval⟩ := Option.bind_eq_some_iff.mp hval
  obtain ⟨u₁, hu₁, hquote⟩ := h.expect hρ (by decide) ht₁
  obtain ⟨k', q', hk', hstring, -⟩ := hquote.rest.readString hρ hname
  obtain ⟨u₂, hu₂, hcolon⟩ := hstring.rest.expect hρ (by decide) ht₂
  obtain ⟨v', r', hv', halike, hskel⟩ := hvalue hcolon.rest hval
  have hmember := ((hquote.trans hstring).trans hcolon).trans halike
  have hshort₁ := hquote.shorter
  have hshort₂ := hstring.shorter
  have hshort₃ := hcolon.shorter
  have hshort₄ := halike.shorter
  refine ⟨(k', v'), r', fun m hm => ?_, hmember.imp fun hsame => ?_, ?_⟩
  · rw [readMember, hu₁, Option.bind_some, hk' m (by omega), Option.bind_some, hu₂,
      Option.bind_some, hv' m (by omega), Option.map_some]
  · obtain ⟨hkey, hval⟩ := Prod.mk.inj hsame
    exact ⟨⟨⟨trivial, hkey⟩, trivial⟩, hval⟩
  · dsimp only
    rw [hskel]

mutual

theorem Alike.value (hρ : Runs ρ) (n : Nat) {t u r : List Char} {v : Value ν} (h : Alike ρ t u)
    (hread : readAll fmt n t = some (v, r)) :
    ValueAlike ρ (readAll fmt) skeleton t u v r := by
  cases n with
  | zero => cases hread
  | succ n =>
    rw [readAll] at hread
    cases hskip : Json.skip t with
    | nil =>
      rw [hskip] at hread
      cases hread
    | cons c q =>
      rw [hskip] at hread
      dsimp only at hread
      split_ifs at hread with hn ht hf hs ha ho hd
      · subst hn
        exact valueAlike_keyword hρ (List.cons_ne_nil _ _) (ascii_of_all rfl) (by decide)
          (fun n t r h => by rw [readAll, h]; rfl) h hskip hread
      · subst ht
        exact valueAlike_keyword hρ (List.cons_ne_nil _ _) (ascii_of_all rfl) (by decide)
          (fun n t r h => by rw [readAll, h]; rfl) h hskip hread
      · subst hf
        exact valueAlike_keyword hρ (List.cons_ne_nil _ _) (ascii_of_all rfl) (by decide)
          (fun n t r h => by rw [readAll, h]; rfl) h hskip hread
      · subst hs
        obtain ⟨q', hq', htoken⟩ := h.token hρ (by decide) hskip
        obtain ⟨⟨s, r₁⟩, hr₁, heq⟩ := Option.map_eq_some_iff.mp hread
        obtain ⟨rfl, rfl⟩ := Prod.mk.inj heq
        obtain ⟨s', r', hr', hstring, -⟩ := htoken.rest.readString hρ hr₁
        have hboth := htoken.trans hstring
        refine ⟨.str s', r', readsTo_of hboth.shorter fun m hm => ?_, hboth.imp fun hsame =>
          ⟨trivial, Value.str.inj hsame⟩, rfl⟩
        have hshort := htoken.shorter
        have hall : readAll fmt (m + 1) u =
            (Json.readString m q').map fun p => (Value.str p.1, p.2) := by
          rw [readAll, hq']
          rfl
        rw [hall, hr' m (by omega), Option.map_some]
      · subst ha
        exact valueAlike_bracket hρ (by decide) (by decide) (fun _ _ h => Value.arr.inj h)
          (fun _ _ h => by rw [skeleton, skeleton, h]) (fun n t r h => by rw [readAll, h]; rfl)
          (fun h hread => h.items hρ n hread) h hskip hread
      · subst ho
        exact valueAlike_bracket hρ (by decide) (by decide) (fun _ _ h => Value.obj.inj h)
          (fun _ _ h => by rw [skeleton, skeleton, h]) (fun n t r h => by rw [readAll, h]; rfl)
          (fun h hread => h.members hρ n hread) h hskip hread
      · have hc : c.toNat < 128 := by
          rw [Bool.or_eq_true, decide_eq_true_iff] at hd
          obtain rfl | hdigit := hd
          · decide
          · exact toNat_of_isDigit hdigit
        obtain ⟨q', hq', htoken⟩ := h.token hρ hc hskip
        obtain ⟨r', hr', hnumber⟩ := (Alike.keep c htoken.rest).number hρ hread
        have hshort := htoken.shorter
        have hshort' := hnumber.shorter
        rw [List.length_cons] at hshort'
        refine ⟨v, r', readsTo_of (by omega) fun m _ => ?_, ⟨hnumber.rest, by omega,
          fun hfaithful _ heq => ?_⟩, rfl⟩
        · rw [readAll, hq']
          dsimp only
          rw [if_neg hn, if_neg ht, if_neg hf, if_neg hs, if_neg ha, if_neg ho, if_pos hd, hr']
        · exact htoken.inj hfaithful trivial (List.cons.inj (hnumber.inj hfaithful trivial heq)).2

theorem Alike.items (hρ : Runs ρ) (n : Nat) {t u r : List Char} {vs : List (Value ν)}
    (h : Alike ρ t u) (hread : readAllItems fmt n t = some (vs, r)) :
    ValueAlike ρ (readAllItems fmt) skeletonItems t u vs r := by
  cases n with
  | zero => cases hread
  | succ n =>
    exact valueAlike_entries hρ ']' (by decide) (fun v vs => by rw [skeletonItems])
      readAllItems_succ (fun h hread => h.value hρ n hread) (fun h hread => h.items hρ n hread)
      h hread

theorem Alike.members (hρ : Runs ρ) (n : Nat) {t u r : List Char}
    {ms : List (JsString × Value ν)} (h : Alike ρ t u)
    (hread : readAllMembers fmt n t = some (ms, r)) :
    ValueAlike ρ (readAllMembers fmt) skeletonMembers t u ms r := by
  cases n with
  | zero => cases hread
  | succ n =>
    exact valueAlike_entries hρ '\x7d' (by decide) (fun m ms => by rw [skeletonMembers])
      readAllMembers_succ (valueAlike_member hρ fun h hread => h.value hρ n hread)
      (fun h hread => h.members hρ n hread) h hread

end

/-- A text is read exactly when the other one is, and where strings tell the runs apart the values
tell the texts apart. -/
theorem Alike.parseAll (hρ : Runs ρ) {t u : List Char} (h : Alike ρ t u) {v : Value ν}
    (hv : parseAll fmt t = some v) :
    ∃ v', Json.parseAll fmt u = some v' ∧ skeleton v = skeleton v' ∧
      (Faithful ρ → v = v' → t = u) := by
  rw [Json.parseAll] at hv
  cases hread : readAll fmt (t.length + 1) t with
  | none =>
    rw [hread] at hv
    cases hv
  | some p =>
    obtain ⟨w, r⟩ := p
    rw [hread] at hv
    dsimp only at hv
    split_ifs at hv with hend
    obtain rfl := Option.some.inj hv
    obtain ⟨v', r', hv', halike, hskel⟩ := h.value hρ _ hread
    obtain ⟨hskips, -, hsame⟩ := halike.rest.skip hρ
    have hend' : Json.skip r' = [] := by
      rw [hend] at hskips
      rcases hskips.head hρ with ⟨-, hnil⟩ | ⟨c, t', u', hcons, -⟩ | ⟨c, d, t', u', hcons, -⟩
      · exact hnil
      · cases hcons
      · cases hcons
    refine ⟨v', ?_, hskel, fun hf heq => halike.inj hf heq (hsame (by rw [hend, hend']))⟩
    rw [Json.parseAll, hv' _ (by omega)]
    exact if_pos hend'

theorem Alike.parseAll_none (hρ : Runs ρ) {t u : List Char} (h : Alike ρ t u) :
    Json.parseAll fmt t = none ↔ Json.parseAll fmt u = none := by
  constructor
  · intro hnone
    by_contra hne
    obtain ⟨v, hv⟩ := Option.ne_none_iff_exists'.mp hne
    obtain ⟨v', hv', -⟩ := h.flip.parseAll hρ.flip hv
    rw [hnone] at hv'
    cases hv'
  · intro hnone
    by_contra hne
    obtain ⟨v, hv⟩ := Option.ne_none_iff_exists'.mp hne
    obtain ⟨v', hv', -⟩ := h.parseAll hρ hv
    rw [hnone] at hv'
    cases hv'

end Values

end Json
