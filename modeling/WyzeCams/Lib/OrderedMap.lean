import Mathlib.Data.List.Basic

/-! Maps that remember the order in which their keys were added, and the loop that walks over
the keys and deletes some of them. -/
namespace OrderedMap
variable {κ ν : Type*} [DecidableEq κ]

abbrev Entries (κ ν : Type*) := List (κ × ν)

def get (m : Entries κ ν) (k : κ) : Option ν := m.lookup k

/-- A new key is added at the end, an old one keeps its place. -/
def set : Entries κ ν → κ → ν → Entries κ ν
  | [], k, v => [(k, v)]
  | (k', v') :: m, k, v => if k' = k then (k, v) :: m else (k', v') :: set m k v

def delete (m : Entries κ ν) (k : κ) : Entries κ ν := m.filter fun e => e.1 ≠ k

def keys (m : Entries κ ν) : List κ := m.map Prod.fst

/-- `for (const k of keys) if (p(k)) map.delete(k)`. -/
def deleteKeys (p : κ → Bool) : List κ → Entries κ ν → Entries κ ν
  | [], m => m
  | k :: ks, m => deleteKeys p ks (if p k then delete m k else m)

def deleteWhere (p : κ → Bool) (m : Entries κ ν) : Entries κ ν := deleteKeys p (keys m) m

variable {m : Entries κ ν} {k k' : κ} {v : ν} {p : κ → Bool}

theorem get_cons (e : κ × ν) : get (e :: m) k = if k = e.1 then some e.2 else get m k := by
  rw [get, get, List.lookup_cons]
  by_cases h : k = e.1
  · rw [if_pos h, beq_iff_eq.mpr h]
  · rw [if_neg h, beq_false_of_ne h]

theorem get_set : get (set m k v) k' = if k' = k then some v else get m k' := by
  induction m with
  | nil => exact get_cons (k, v)
  | cons e m ih =>
    rw [set]
    by_cases he : e.1 = k
    · rw [if_pos he, get_cons, get_cons, he]
      by_cases h : k' = k
      · rw [if_pos h, if_pos h]
      · rw [if_neg h, if_neg h, if_neg h]
    · rw [if_neg he, get_cons, get_cons, ih]
      by_cases h : k' = e.1
      · rw [if_pos h, if_pos h, if_neg (by rw [h]; exact he)]
      · rw [if_neg h, if_neg h]

theorem set_of_not_mem (h : k ∉ keys m) : set m k v = m ++ [(k, v)] := by
  induction m with
  | nil => rfl
  | cons e m ih =>
    rw [keys, List.map_cons, List.mem_cons, not_or] at h
    rw [set, if_neg (Ne.symm h.1), ih h.2, List.cons_append]

theorem mem_of_mem_set {e : κ × ν} (h : e ∈ set m k v) : e = (k, v) ∨ e ∈ m := by
  induction m with
  | nil => exact .inl (List.mem_singleton.mp h)
  | cons e' m ih =>
    rw [set] at h
    split_ifs at h with he
    · rcases List.mem_cons.mp h with h | h
      · exact .inl h
      · exact .inr (List.mem_cons_of_mem _ h)
    · rcases List.mem_cons.mp h with h | h
      · exact .inr (by rw [h]; exact List.mem_cons_self)
      · exact (ih h).imp id (List.mem_cons_of_mem _)

theorem mem_of_mem_foldl_set {l : Entries κ ν} {e : κ × ν}
    (h : e ∈ l.foldl (fun m e => set m e.1 e.2) m) : e ∈ m ∨ e ∈ l := by
  induction l generalizing m with
  | nil => exact .inl h
  | cons e' l ih =>
    rcases ih h with h | h
    · rcases mem_of_mem_set h with h | h
      · exact .inr (by rw [h]; exact List.mem_cons_self)
      · exact .inl h
    · exact .inr (List.mem_cons_of_mem _ h)

/-- Entries with distinct keys, added one by one, are there in the order in which they came. -/
theorem foldl_set {l : Entries κ ν} (h : (keys (m ++ l)).Nodup) :
    l.foldl (fun m e => set m e.1 e.2) m = m ++ l := by
  induction l generalizing m with
  | nil => exact (List.append_nil m).symm
  | cons e l ih =>
    have hnew : e.1 ∉ keys m := by
      rw [keys, List.map_append, List.nodup_append] at h
      exact fun hmem => h.2.2 e.1 hmem e.1 List.mem_cons_self rfl
    rw [List.foldl_cons, set_of_not_mem hnew, ih, List.append_assoc]
    · rfl
    · rwa [List.append_assoc]

/-- A key that is there already does not add an entry. -/
theorem length_set_le (m : Entries κ ν) (k : κ) (v : ν) :
    (set m k v).length ≤ m.length + 1 ∧ (k ∈ keys m → (set m k v).length ≤ m.length) := by
  induction m with
  | nil => exact ⟨Nat.le_refl 1, fun h => absurd h List.not_mem_nil⟩
  | cons e m ih =>
    rw [set, keys, List.map_cons, List.mem_cons]
    split_ifs with he
    · exact ⟨Nat.le_succ _, fun _ => Nat.le_refl _⟩
    · refine ⟨Nat.succ_le_succ ih.1, fun h => Nat.succ_le_succ (ih.2 (h.resolve_left ?_))⟩
      exact fun hk => he hk.symm

theorem length_foldl_set_le (m l : Entries κ ν) :
    (l.foldl (fun m e => set m e.1 e.2) m).length ≤ m.length + l.length := by
  induction l generalizing m with
  | nil => exact Nat.le_refl _
  | cons e l ih =>
    have hset := (length_set_le m e.1 e.2).1
    have hrest := ih (set m e.1 e.2)
    rw [List.foldl_cons, List.length_cons]
    omega

/-- Where as many entries are left as there were, none has been replaced. -/
theorem foldl_set_of_length {m l : Entries κ ν}
    (h : (l.foldl (fun m e => set m e.1 e.2) m).length = m.length + l.length) :
    l.foldl (fun m e => set m e.1 e.2) m = m ++ l := by
  induction l generalizing m with
  | nil => exact (List.append_nil m).symm
  | cons e l ih =>
    rw [List.foldl_cons] at h ⊢
    rw [List.length_cons] at h
    have hrest := length_foldl_set_le (set m e.1 e.2) l
    have hnew : e.1 ∉ keys m := by
      intro hmem
      have hset := (length_set_le m e.1 e.2).2 hmem
      omega
    have hset := set_of_not_mem (v := e.2) hnew
    rw [hset] at h ⊢
    rw [ih (by rw [h, List.length_append, List.length_singleton]; omega), List.append_assoc]
    rfl

theorem get_delete : get (delete m k) k' = if k' = k then none else get m k' := by
  induction m with
  | nil => rw [delete, List.filter_nil, get, List.lookup_nil, ite_self]
  | cons e m ih =>
    rw [delete, List.filter_cons]
    by_cases he : e.1 = k
    · rw [if_neg (by simpa using he), ← delete, ih, get_cons, he]
      by_cases h : k' = k
      · rw [if_pos h, if_pos h]
      · rw [if_neg h, if_neg h, if_neg h]
    · rw [if_pos (by simpa using he), get_cons, get_cons, ← delete, ih]
      by_cases h : k' = e.1
      · rw [if_pos h, if_pos h, if_neg (by rw [h]; exact he)]
      · rw [if_neg h, if_neg h]

theorem get_deleteKeys {ks : List κ} :
    get (deleteKeys p ks m) k = if k ∈ ks ∧ p k = true then none else get m k := by
  induction ks generalizing m with
  | nil => simp [deleteKeys]
  | cons k' ks ih =>
    rw [deleteKeys, ih]
    by_cases hp : p k' = true
    · rw [if_pos hp, get_delete]
      by_cases h : k = k'
      · simp [h, hp]
      · simp [h]
    · rw [if_neg hp]
      by_cases h : k = k'
      · simp [h, hp]
      · simp [h]

theorem get_eq_none_of_not_mem (h : k ∉ keys m) : get m k = none := by
  induction m with
  | nil => rfl
  | cons e m ih =>
    rw [keys, List.map_cons, List.mem_cons, not_or] at h
    rw [get_cons, if_neg h.1, ih h.2]

/-- The loop deletes exactly the keys that it is meant to delete. -/
theorem get_deleteWhere : get (deleteWhere p m) k = if p k = true then none else get m k := by
  rw [deleteWhere, get_deleteKeys]
  by_cases hk : k ∈ keys m
  · simp [hk]
  · rw [get_eq_none_of_not_mem hk, ite_self, ite_self]

theorem keys_set : keys (set m k v) = if k ∈ keys m then keys m else keys m ++ [k] := by
  induction m with
  | nil => rfl
  | cons e m ih =>
    have hkeys : keys (e :: m) = e.1 :: keys m := rfl
    rw [set, hkeys]
    by_cases he : e.1 = k
    · rw [if_pos he, if_pos (by rw [he]; exact List.mem_cons_self), he]
      rfl
    · have hset : keys (e :: set m k v) = e.1 :: keys (set m k v) := rfl
      rw [if_neg he, hset, ih]
      by_cases hk : k ∈ keys m
      · rw [if_pos hk, if_pos (List.mem_cons_of_mem _ hk)]
      · rw [if_neg hk, if_neg (by rw [List.mem_cons, not_or]; exact ⟨Ne.symm he, hk⟩)]
        rfl

theorem nodup_set (h : (keys m).Nodup) : (keys (set m k v)).Nodup := by
  rw [keys_set]
  split_ifs with hk
  · exact h
  · rw [List.nodup_append]
    refine ⟨h, by simp, fun a ha b hb hab => ?_⟩
    rw [List.mem_singleton] at hb
    rw [hab, hb] at ha
    exact hk ha

theorem nodup_foldl_set {l : Entries κ ν} (h : (keys m).Nodup) :
    (keys (l.foldl (fun m e => set m e.1 e.2) m)).Nodup := by
  induction l generalizing m with
  | nil => exact h
  | cons e l ih => exact ih (nodup_set h)

theorem nodup_delete (h : (keys m).Nodup) : (keys (delete m k)).Nodup :=
  h.sublist (List.filter_sublist.map _)

theorem get_eq_some_iff (h : (keys m).Nodup) : get m k = some v ↔ (k, v) ∈ m := by
  induction m with
  | nil => simp [get]
  | cons e m ih =>
    rw [keys, List.map_cons, List.nodup_cons] at h
    rw [get_cons, List.mem_cons, Prod.ext_iff]
    by_cases hk : k = e.1
    · have hnot : (k, v) ∉ m := fun hmem => h.1 (hk ▸ List.mem_map_of_mem hmem)
      rw [if_pos hk, or_iff_left hnot, Option.some_inj, eq_comm]
      exact (and_iff_right hk).symm
    · rw [if_neg hk, ih h.2]
      simp [hk]

theorem get_perm {m' : Entries κ ν} (h : (keys m).Nodup) (hm : m.Perm m') : get m k = get m' k := by
  have h' : (keys m').Nodup := (hm.map Prod.fst).nodup_iff.mp h
  apply Option.ext
  intro v
  rw [get_eq_some_iff h, get_eq_some_iff h', hm.mem_iff]

end OrderedMap
