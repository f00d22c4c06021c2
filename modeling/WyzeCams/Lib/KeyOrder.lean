import Mathlib.Data.List.Dedup

/-! Lists of keyed items, and the loop that puts them in the order of a list of keys: one key after
the other moves the first item that has it to the end. -/
namespace KeyOrder
variable {α κ : Type*} [DecidableEq κ] (key : α → κ)

def toEnd (items : List α) (k : κ) : List α :=
  match items.find? fun a => key a = k with
  | none => items
  | some a => items.eraseP (fun a => key a = k) ++ [a]

def arrange (order : List κ) (items : List α) : List α := order.foldl (toEnd key) items

variable {key} {order : List κ} {items : List α} {k : κ}

theorem toEnd_of_not_mem (h : k ∉ items.map key) : toEnd key items k = items := by
  unfold toEnd
  have hnone : items.find? (fun a => key a = k) = none := by
    rw [List.find?_eq_none]
    intro a ha hk
    exact h (List.mem_map.mpr ⟨a, ha, of_decide_eq_true hk⟩)
  rw [hnone]

theorem toEnd_of_mem (h : k ∈ items.map key) : ∃ as a bs, items = as ++ a :: bs ∧ key a = k ∧
    k ∉ as.map key ∧ toEnd key items k = as ++ bs ++ [a] := by
  cases hfind : items.find? fun a => key a = k with
  | none =>
    obtain ⟨a, ha, hk⟩ := List.mem_map.mp h
    exact absurd (decide_eq_true hk) (List.find?_eq_none.mp hfind a ha)
  | some a =>
    obtain ⟨hk, as, bs, rfl, hbefore⟩ := List.find?_eq_some_iff_append.mp hfind
    have hbefore : ∀ b ∈ as, ¬ key b = k := by simpa using hbefore
    refine ⟨as, a, bs, rfl, of_decide_eq_true hk, by simpa using hbefore, ?_⟩
    unfold toEnd
    rw [hfind]
    rw [List.eraseP_append_right _ (by simpa using hbefore)]
    rw [List.eraseP_cons_of_pos (p := fun a => decide (key a = k)) hk]

theorem toEnd_perm (items : List α) (k : κ) : (toEnd key items k).Perm items := by
  by_cases hk : k ∈ items.map key
  · obtain ⟨as, a, bs, rfl, -, -, heq⟩ := toEnd_of_mem hk
    rw [heq]
    exact (List.perm_append_singleton a (as ++ bs)).trans List.perm_middle.symm
  · rw [toEnd_of_not_mem hk]

theorem arrange_perm (order : List κ) (items : List α) : (arrange key order items).Perm items := by
  induction order generalizing items with
  | nil => exact .refl _
  | cons k order ih => exact (ih (toEnd key items k)).trans (toEnd_perm items k)

/-- The keys, where no two items have the same one. -/
theorem map_toEnd (h : (items.map key).Nodup) (hk : k ∈ items.map key) :
    (toEnd key items k).map key = (items.map key).filter (· ≠ k) ++ [k] := by
  obtain ⟨as, a, bs, rfl, rfl, has, heq⟩ := toEnd_of_mem hk
  rw [List.map_append, List.map_cons, List.nodup_append, List.nodup_cons] at h
  have hbefore : (as.map key).filter (· ≠ key a) = as.map key :=
    List.filter_eq_self.mpr fun b hb => decide_eq_true fun hba => has (hba ▸ hb)
  have hafter : (bs.map key).filter (· ≠ key a) = bs.map key :=
    List.filter_eq_self.mpr fun b hb => decide_eq_true fun hba => h.2.1.1 (hba ▸ hb)
  have hself : ((a :: bs).map key).filter (· ≠ key a) = (bs.map key).filter (· ≠ key a) :=
    List.filter_cons_of_neg (by simp)
  rw [heq, List.map_append, List.map_append, List.map_append, List.filter_append,
    hbefore, hself, hafter]
  rfl

/-- The items whose keys are in the order come last, and in that order; of a key that is there twice
the last place counts. The others keep their places. -/
theorem map_arrange (h : (items.map key).Nodup) : (arrange key order items).map key =
    (items.map key).filter (· ∉ order) ++ order.dedup.filter (· ∈ items.map key) := by
  induction order generalizing items with
  | nil => simp [arrange]
  | cons k order ih =>
    have hperm : ((toEnd key items k).map key).Perm (items.map key) := (toEnd_perm items k).map key
    have hrest : order.dedup.filter (· ∈ (toEnd key items k).map key) =
        order.dedup.filter (· ∈ items.map key) :=
      List.filter_congr fun x _ => by simp only [hperm.mem_iff]
    have harrange : (arrange key (k :: order) items).map key =
        ((toEnd key items k).map key).filter (· ∉ order) ++
        order.dedup.filter (· ∈ items.map key) :=
      hrest ▸ ih (hperm.nodup_iff.mpr h)
    rw [harrange]
    by_cases hk : k ∈ items.map key
    · have hfront : (items.map key).filter (· ∉ k :: order) =
          ((items.map key).filter (· ≠ k)).filter (· ∉ order) := by
        rw [List.filter_filter]
        exact List.filter_congr fun x _ => by simp [Bool.and_comm]
      rw [map_toEnd h hk, List.filter_append, hfront, List.append_assoc]
      by_cases hlater : k ∈ order
      · rw [List.dedup_cons_of_mem hlater, List.filter_cons_of_neg (by simpa using hlater)]
        rfl
      · rw [List.dedup_cons_of_notMem hlater, List.filter_cons_of_pos (by simpa using hlater),
          List.filter_cons_of_pos (by simpa using hk)]
        rfl
    · have hfront : (items.map key).filter (· ∉ k :: order) = (items.map key).filter (· ∉ order) :=
        List.filter_congr fun x hx => by
          have hxk : x ≠ k := fun hxk => hk (hxk ▸ hx)
          simp [hxk]
      have hback : (k :: order).dedup.filter (· ∈ items.map key) =
          order.dedup.filter (· ∈ items.map key) := by
        by_cases hlater : k ∈ order
        · rw [List.dedup_cons_of_mem hlater]
        · rw [List.dedup_cons_of_notMem hlater, List.filter_cons, if_neg (by simpa using hk)]
      rw [toEnd_of_not_mem hk, hfront, hback]

end KeyOrder
