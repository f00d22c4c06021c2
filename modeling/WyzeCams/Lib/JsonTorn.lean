import WyzeCams.Lib.JsonRuns
import WyzeCams.Lib.Utf8Chunks

/-! JSON texts in UTF-8 that are read in chunks: what the cut characters do to the value. -/
namespace Json
open Utf16 Utf8

/-- One character on the left; on the right what is left of it. -/
def Cut (ws ds : List Char) : Prop :=
  ∃ c k, 128 ≤ c.toNat ∧ 2 ≤ k ∧ ws = [c] ∧ ds = List.replicate k REPLACEMENT

theorem alike_of_torn {torn : Bool} {t u : List Char} (h : Torn torn t u) : Alike Cut t u := by
  induction h with
  | nil => exact .nil
  | keep c _ ih => exact .keep c ih
  | @cut _ _ _ c k hc hk _ ih => exact .run ⟨c, k, hc, hk, rfl, rfl⟩ ih

theorem runs_cut : Runs Cut := by
  rintro ws ds ⟨c, k, hc, hk, rfl, rfl⟩
  refine ⟨⟨List.cons_ne_nil _ _, fun d hd => ?_⟩, fun hnil => ?_, fun d hd => ?_⟩
  · rwa [List.mem_singleton.mp hd]
  · have hzero := (List.replicate_eq_nil_iff _).mp hnil
    omega
  · rw [List.eq_of_mem_replicate hd]
    decide

theorem ofText_replacements (k : Nat) :
    ofText (List.replicate k REPLACEMENT) = List.replicate k 0xFFFD := by
  induction k with
  | zero => rfl
  | succ k ih =>
    rw [List.replicate_succ, ofText_cons, ih]
    rfl

/-- One unit, or a surrogate and another one. -/
theorem units_cases (c : Char) : (∃ x, units c = [x]) ∨ ∃ x y, units c = [x, y] ∧ x ≠ 0xFFFD := by
  rw [units]
  split_ifs with hlow
  · exact .inl ⟨_, rfl⟩
  · refine .inr ⟨_, _, rfl, fun hx => ?_⟩
    have hval := congrArg UInt16.toNat hx
    have hlt : c.toNat < 0x110000 := by
      rcases c.valid with h | h
      · exact Nat.lt_trans h (by decide)
      · exact h.2
    rw [UInt16.toNat_ofNat'] at hval
    have hmax : (0xFFFD : UInt16).toNat = 65533 := rfl
    omega

theorem faithful_cut : Faithful Cut := by
  rintro ws ds ⟨c, k, hc, hk, rfl, rfl⟩
  rw [ofText_singleton, ofText_replacements, List.length_replicate]
  rcases units_cases c with ⟨x, hx⟩ | ⟨x, y, hxy, hne⟩
  · rw [hx]
    refine ⟨Nat.le_trans (Nat.le_succ 1) hk, fun s s' hlen heq => ?_⟩
    have hlength := congrArg List.length heq
    simp only [List.length_append, List.length_singleton, List.length_replicate] at hlength
    omega
  · rw [hxy]
    refine ⟨hk, fun s s' _ heq => ?_⟩
    obtain ⟨j, rfl⟩ : ∃ j, k = j + 1 := ⟨k - 1, by omega⟩
    rw [List.replicate_succ] at heq
    exact hne (List.cons.inj heq).1

theorem length_torn {torn : Bool} {t u : List Char} (h : Torn torn t u) :
    t.length ≤ u.length ∧ (torn = true → t.length < u.length) ∧
      (ofText t).length ≤ (ofText u).length := by
  induction h with
  | nil => exact ⟨Nat.le_refl _, fun h => Bool.noConfusion h, Nat.le_refl _⟩
  | keep c _ ih =>
    refine ⟨Nat.succ_le_succ ih.1, fun h => Nat.succ_lt_succ (ih.2.1 h), ?_⟩
    rw [ofText_cons, ofText_cons, List.length_append, List.length_append]
    exact Nat.add_le_add_left ih.2.2 _
  | @cut _ t u c k hc hk _ ih =>
    have hrun := (faithful_cut _ _ ⟨c, k, hc, hk, rfl, rfl⟩).1
    rw [ofText_singleton] at hrun
    rw [List.length_append, List.length_replicate, List.length_cons, ofText_cons, ofText_append,
      List.length_append, List.length_append]
    omega

theorem eq_nil_of_torn {torn : Bool} {t u : List Char} (h : Torn torn t u) : t = [] ↔ u = [] := by
  cases h with
  | nil => exact Iff.rfl
  | keep c h => exact iff_of_false (List.cons_ne_nil _ _) (List.cons_ne_nil _ _)
  | cut hc hk h =>
    refine iff_of_false (List.cons_ne_nil _ _) fun hnil => ?_
    have hzero := (List.replicate_eq_nil_iff _).mp (List.append_eq_nil_iff.mp hnil).1
    omega

section Parse
variable {ν : Type} {fmt : NumberFormat ν}

theorem parse_none_iff (t : List Char) : parse fmt t = none ↔ parseAll fmt t = none := by
  rw [parse_eq, Option.map_eq_none_iff]

/-- Cut characters do not make a text JSON, or keep it from being JSON. -/
theorem parse_none_of_torn {torn : Bool} {t u : List Char} (h : Torn torn t u) :
    parse fmt t = none ↔ parse fmt u = none := by
  rw [parse_none_iff, parse_none_iff]
  exact (alike_of_torn h).parseAll_none runs_cut

/-- Where no object names a member twice a cut character shows in the value. -/
theorem not_torn_of_parse {torn : Bool} {t u : List Char} (h : Torn torn t u) {v : Value ν}
    (hv : parseAll fmt t = some v) (hdistinct : Distinct v) (hsame : parse fmt u = parse fmt t) :
    torn = false := by
  obtain ⟨v', hv', hskel, hinj⟩ := (alike_of_torn h).parseAll runs_cut hv
  rw [parse_eq, parse_eq, hv, hv', Option.map_some, Option.map_some, Option.some_inj,
    settle_of_distinct hdistinct] at hsame
  have hvalue : v' = v := eq_of_settle hsame hskel.symm
  cases torn with
  | false => rfl
  | true =>
    have hlt := (length_torn h).2.1 rfl
    rw [hinj faithful_cut hvalue.symm] at hlt
    exact absurd hlt (Nat.lt_irrefl _)

end Parse

end Json
