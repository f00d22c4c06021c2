import Mathlib.Tactic.Common

/-! Lists used as tables: a new entry is appended, an old one is replaced at its index. -/
namespace Table
variable {α : Type*} {l : List α} {a x : α} {i k : Nat}

/-- What a table holds at an index once an entry has been added. -/
theorem getElem?_concat (h : (l ++ [a])[i]? = some x) : l[i]? = some x ∨ i = l.length ∧ x = a := by
  rw [List.getElem?_append] at h
  split_ifs at h with hlt
  · exact .inl h
  · rw [List.getElem?_singleton] at h
    split_ifs at h with hi
    exact .inr ⟨by omega, (Option.some.inj h).symm⟩

/-- What a table holds at an index once an entry has been replaced. -/
theorem getElem?_replace (h : (l.set k a)[i]? = some x) :
    k = i ∧ x = a ∨ k ≠ i ∧ l[i]? = some x := by
  rw [List.getElem?_set] at h
  split_ifs at h with he hl
  · exact .inl ⟨he, (Option.some.inj h).symm⟩
  · exact .inr ⟨he, h⟩

/-- What a table holds at an index once an entry has been changed. -/
theorem getElem?_modified {f : α → α} (h : (l.modify k f)[i]? = some x) :
    (∃ a, l[i]? = some a ∧ k = i ∧ x = f a) ∨ k ≠ i ∧ l[i]? = some x := by
  rw [List.getElem?_modify, Option.map_eq_map, Option.map_eq_some_iff] at h
  obtain ⟨a, ha, hx⟩ := h
  by_cases hk : k = i
  · rw [if_pos hk] at hx
    exact .inl ⟨a, ha, hk, hx.symm⟩
  · rw [if_neg hk] at hx
    obtain rfl : a = x := hx
    exact .inr ⟨hk, ha⟩

theorem mem_modified {f : α → α} (h : x ∈ l.modify k f) :
    x ∈ l ∨ ∃ a, l[k]? = some a ∧ x = f a := by
  obtain ⟨i, hi⟩ := List.mem_iff_getElem?.mp h
  rcases getElem?_modified hi with ⟨a, ha, hk, hx⟩ | ⟨-, hx⟩
  · rw [← hk] at ha
    exact .inr ⟨a, ha, hx⟩
  · exact .inl (List.mem_of_getElem? hx)

theorem getElem?_old (h : l[i]? = some x) : (l ++ [a])[i]? = some x := by
  rw [List.getElem?_append_left (List.getElem?_eq_some_iff.mp h).1, h]

end Table
