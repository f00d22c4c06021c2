import Mathlib.Data.List.Basic
import Mathlib.Tactic.Common

/-! Lists put together with separators between them, and taken apart again. -/
namespace Separated
variable {α : Type*} {a : α}

/-- A separator after each part, without the last one, is a separator between the parts. -/
theorem dropLast_flatMap {κ : Type*} (f : κ → List α) (a : α) (ks : List κ) :
    (ks.flatMap fun k => f k ++ [a]).dropLast = [a].intercalate (ks.map f) := by
  induction ks with
  | nil => rfl
  | cons k ks ih =>
    cases ks with
    | nil => simp
    | cons k' ks =>
      have hne : ((k' :: ks).flatMap fun k => f k ++ [a]) ≠ [] := by simp
      rw [List.flatMap_cons, List.dropLast_append_of_ne_nil hne, ih, List.map_cons, List.map_cons,
        List.map_cons, List.intercalate_cons_cons, List.append_assoc]

/-- Lists without the separator, none of them empty, are told by their join. -/
theorem intercalate_inj [DecidableEq α] {xs ys : List (List α)} (hxs : ∀ x ∈ xs, a ∉ x ∧ x ≠ [])
    (hys : ∀ y ∈ ys, a ∉ y ∧ y ≠ []) (h : [a].intercalate xs = [a].intercalate ys) : xs = ys := by
  have hempty : ∀ {zs : List (List α)}, (∀ z ∈ zs, a ∉ z ∧ z ≠ []) →
      [a].intercalate zs = [] → zs = [] := by
    intro zs hzs hnil
    by_contra hne
    have hsplit := List.splitOn_intercalate a (fun z hz => (hzs z hz).1) hne
    rw [hnil] at hsplit
    have hmem : [] ∈ zs := by
      rw [← hsplit]
      exact List.mem_cons_self
    exact (hzs [] hmem).2 rfl
  by_cases hx : xs = []
  · rw [hx] at h ⊢
    exact (hempty hys h.symm).symm
  · by_cases hy : ys = []
    · rw [hy] at h
      exact absurd (hempty hxs h) hx
    · have hleft := List.splitOn_intercalate a (fun x hx => (hxs x hx).1) hx
      rw [h, List.splitOn_intercalate a (fun y hy => (hys y hy).1) hy] at hleft
      exact hleft.symm

/-- The first separator ends the part in front of it. -/
theorem append_cons_inj {k k' v v' : List α} (hk : a ∉ k) (hk' : a ∉ k')
    (h : k ++ a :: v = k' ++ a :: v') : k = k' ∧ v = v' := by
  induction k generalizing k' with
  | nil =>
    cases k' with
    | nil => exact ⟨rfl, (List.cons.inj h).2⟩
    | cons b k' =>
      have hb : a = b := (List.cons.inj h).1
      exact absurd (hb ▸ List.mem_cons_self) hk'
  | cons b k ih =>
    cases k' with
    | nil =>
      have hb : b = a := (List.cons.inj h).1
      exact absurd (hb ▸ List.mem_cons_self) hk
    | cons b' k' =>
      obtain ⟨hb, hrest⟩ := List.cons.inj h
      obtain ⟨hkk, hv⟩ := ih (fun hmem => hk (List.mem_cons_of_mem b hmem))
        (fun hmem => hk' (List.mem_cons_of_mem b' hmem)) hrest
      exact ⟨by rw [hb, hkk], hv⟩

end Separated
