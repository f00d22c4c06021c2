import WyzeCams.Lib.Json

/-! `String(value)` of JSON values. What `JSON.parse` builds inherits `toString` and `valueOf`,
unless members of the value hide them: such an object cannot be converted. -/
namespace Json
open Utf16 OrderedMap

structure NumberText (ν : Type) where
  text : ν → JsString
  head : ∀ x, ∃ c t, text x = ofText (c :: t) ∧ (isDigit c = true ∨ c ∈ ['-', 'I', 'N'])

variable {ν : Type} (nums : NumberText ν)

mutual

/-- `String(v)`; `none` stands for the `TypeError`. -/
def toStr : Value ν → Option JsString
  | .null => some (ofText "null".toList)
  | .bool true => some (ofText "true".toList)
  | .bool false => some (ofText "false".toList)
  | .num x => some (nums.text x)
  | .str s => some s
  | .arr items => join items
  | .obj ms =>
    if (get ms (ofText "toString".toList)).isSome then none
    else some (ofText "[object Object]".toList)

def join : List (Value ν) → Option JsString
  | [] => some []
  | [v] => if isNull v then some [] else toStr v
  | v :: w :: vs =>
    (if isNull v then some [] else toStr v).bind fun s =>
      (join (w :: vs)).map fun r => s ++ ofText [','] ++ r

end

/-- A string, or an array of one item that is a string or such an array. -/
inductive Wraps (s : JsString) : Value ν → Prop where
  | str : Wraps s (.str s)
  | arr {v : Value ν} (h : Wraps s v) : Wraps s (.arr [v])

/-- A text that only a string has, or arrays around it. -/
structure Plain (s : JsString) : Prop where
  nonempty : s ≠ []
  comma : ∀ u ∈ ofText [','], u ∉ s
  null : s ≠ ofText "null".toList
  bool : s ≠ ofText "true".toList ∧ s ≠ ofText "false".toList
  object : s ≠ ofText "[object Object]".toList
  number : ∀ x, nums.text x ≠ s

variable {nums} {s : JsString}

/-- The text of a number does not start like a word in lower case. -/
theorem NumberText.head_lt (nums : NumberText ν) (x : ν) :
    ∃ u r, nums.text x = u :: r ∧ u.toNat < 97 := by
  obtain ⟨c, t, htext, hc⟩ := nums.head x
  have hlt : c.toNat < 97 := by
    rcases hc with hc | hc
    · rw [isDigit, Bool.and_eq_true, decide_eq_true_eq, decide_eq_true_eq] at hc
      exact Nat.lt_of_le_of_lt (Char.le_def.mp hc.2) (by decide)
    · have hall : ['-', 'I', 'N'].all (fun c => c.toNat < 97) = true := by decide
      exact of_decide_eq_true (List.all_eq_true.mp hall c hc)
  refine ⟨UInt16.ofNat c.toNat, ofText t, ?_, ?_⟩
  · rw [htext, ofText_cons, units, if_pos (by omega), List.singleton_append]
  · rw [UInt16.toNat_ofNat']
    omega

theorem Wraps.not_null {v : Value ν} (h : Wraps s v) : isNull v = false := by
  cases h <;> rfl

theorem Wraps.eq_of_str {t : JsString} (h : Wraps (ν := ν) s (.str t)) : s = t := by
  cases h
  rfl

theorem Wraps.toStr {v : Value ν} (h : Wraps s v) (nums : NumberText ν) :
    toStr nums v = some s := by
  induction h with
  | str => rw [Json.toStr]
  | arr h ih => rw [Json.toStr, join, h.not_null, ih, if_neg Bool.false_ne_true]

theorem comma_mem_join {v w : Value ν} {vs : List (Value ν)}
    (h : join nums (v :: w :: vs) = some s) :
    ∀ u ∈ ofText [','], u ∈ s := by
  rw [join] at h
  obtain ⟨a, -, h⟩ := Option.bind_eq_some_iff.mp h
  obtain ⟨r, -, rfl⟩ := Option.map_eq_some_iff.mp h
  intro u hu
  simp [hu]

theorem wraps_of_toStr (hs : Plain nums s) : ∀ v : Value ν, toStr nums v = some s → Wraps s v
  | .null, h => absurd (Option.some.inj h).symm hs.null
  | .bool true, h => absurd (Option.some.inj h).symm hs.bool.1
  | .bool false, h => absurd (Option.some.inj h).symm hs.bool.2
  | .num x, h => absurd (Option.some.inj h) (hs.number x)
  | .str t, h => Option.some.inj h ▸ .str
  | .arr [], h => absurd (Option.some.inj h).symm hs.nonempty
  | .arr [v], h => by
    rw [toStr, join] at h
    split_ifs at h with hv
    · exact absurd (Option.some.inj h).symm hs.nonempty
    · exact .arr (wraps_of_toStr hs v h)
  | .arr (v :: w :: vs), h => by
    rw [toStr] at h
    obtain ⟨u, hu⟩ : ∃ u, u ∈ ofText [','] := ⟨_, List.mem_singleton.mpr rfl⟩
    exact absurd (comma_mem_join h u hu) (hs.comma u hu)
  | .obj ms, h => by
    rw [toStr] at h
    split_ifs at h
    exact absurd (Option.some.inj h).symm hs.object

/-- Only a string, or arrays around it, has a plain text. -/
theorem toStr_eq_iff (hs : Plain nums s) (v : Value ν) : toStr nums v = some s ↔ Wraps s v :=
  ⟨wraps_of_toStr hs v, fun h => h.toStr nums⟩

end Json
