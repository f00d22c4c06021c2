import WyzeCams.Lib.JsonTorn

/-! What `JSON.stringify` writes of well-formed strings, read in chunks: a cut character stays in
the string that it stood in. -/
namespace Json
open Utf16 Utf8

/-- The string of a text is quoted character by character. -/
theorem quoteBody_ofText (t : List Char) : quoteBody (ofText t) = t.flatMap quoteChar := by
  induction t with
  | nil => rfl
  | cons c t ih =>
    rw [ofText_cons, List.flatMap_cons, ← ih]
    rcases units_inv c with ⟨u, hu, hhigh, hlow, hc⟩ | ⟨u, v, huv, hhigh, hlow, hc⟩
    · have hunit : quoteUnit u = quoteChar c := by
        rw [quoteUnit, if_neg (not_or.mpr ⟨hhigh, hlow⟩), hc]
      rw [hu, List.singleton_append]
      cases ofText t with
      | nil => simp only [quoteBody, hunit, List.append_nil]
      | cons v rest => rw [quoteBody, if_neg fun h => hhigh h.1, hunit]
    · rw [huv, List.cons_append, List.singleton_append, quoteBody, if_pos ⟨hhigh, hlow⟩, hc]

theorem quoteChar_wide {c : Char} (hc : 128 ≤ c.toNat) : quoteChar c = [c] := by
  have hne : ∀ d : Char, d.toNat < 128 → c ≠ d := by
    rintro d hd rfl
    omega
  rw [quoteChar, if_neg (hne _ (by decide)), if_neg (hne _ (by decide)), if_neg (hne _ (by decide)),
    if_neg (hne _ (by decide)), if_neg (hne _ (by decide)), if_neg (hne _ (by decide)),
    if_neg (hne _ (by decide)), if_neg (by omega)]

theorem quoteChar_ascii {c : Char} (hc : c.toNat < 128) : ∀ d ∈ quoteChar c, d.toNat < 128 := by
  have hall : (List.range 128).all
      (fun n => (quoteChar (Char.ofNat n)).all fun d => d.toNat < 128) = true := by decide +kernel
  have hone := List.all_eq_true.mp hall c.toNat (List.mem_range.mpr hc)
  rw [Char.ofNat_toNat] at hone
  exact fun d hd => of_decide_eq_true (List.all_eq_true.mp hone d hd)

variable {torn : Bool} {t r u : List Char}

theorem torn_ascii (ht : ∀ c ∈ t, c.toNat < 128) (h : Torn torn (t ++ r) u) :
    ∃ u', u = t ++ u' ∧ Torn torn r u' := by
  induction t generalizing u with
  | nil => exact ⟨u, rfl, h⟩
  | cons c t ih =>
    rw [List.cons_append] at h
    cases h with
    | keep c h =>
      obtain ⟨u', rfl, hu'⟩ := ih (fun d hd => ht d (List.mem_cons_of_mem c hd)) h
      exact ⟨u', rfl, hu'⟩
    | cut hc => exact absurd (ht c List.mem_cons_self) (Nat.not_lt.mpr hc)

theorem flatMap_quoteChar_replacements (k : Nat) :
    (List.replicate k REPLACEMENT).flatMap quoteChar = List.replicate k REPLACEMENT := by
  induction k with
  | zero => rfl
  | succ k ih =>
    rw [List.replicate_succ, List.flatMap_cons, ih, quoteChar_wide (by decide)]
    rfl

/-- What stands between the quotes of a string is torn as the string is. -/
theorem torn_quoted (h : Torn torn (t.flatMap quoteChar ++ r) u) :
    ∃ t' u' b b', u = t'.flatMap quoteChar ++ u' ∧ Torn b t t' ∧ Torn b' r u' := by
  induction t generalizing torn u with
  | nil => exact ⟨[], u, false, torn, rfl, .nil, h⟩
  | cons c t ih =>
    rw [List.flatMap_cons, List.append_assoc] at h
    by_cases hc : c.toNat < 128
    · obtain ⟨u₁, rfl, h₁⟩ := torn_ascii (quoteChar_ascii hc) h
      obtain ⟨t', u', b, b', rfl, ht', hu'⟩ := ih h₁
      exact ⟨c :: t', u', b, b', by rw [List.flatMap_cons, List.append_assoc], .keep c ht', hu'⟩
    · rw [Nat.not_lt] at hc
      rw [quoteChar_wide hc, List.singleton_append] at h
      cases h with
      | keep c h =>
        obtain ⟨t', u', b, b', rfl, ht', hu'⟩ := ih h
        refine ⟨c :: t', u', b, b', ?_, .keep c ht', hu'⟩
        rw [List.flatMap_cons, quoteChar_wide hc, List.append_assoc, List.singleton_append]
      | @cut _ _ u₁ _ k _ hk h =>
        obtain ⟨t', u', b, b', rfl, ht', hu'⟩ := ih h
        refine ⟨List.replicate k REPLACEMENT ++ t', u', true, b', ?_, .cut hc hk ht', hu'⟩
        rw [List.flatMap_append, flatMap_quoteChar_replacements, List.append_assoc]

end Json
