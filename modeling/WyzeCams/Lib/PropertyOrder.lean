import WyzeCams.Lib.OrderedMap
import WyzeCams.Lib.Utf16
import Mathlib.Data.List.Sort

/-! The order in which an object lists its properties: the array indices first, by their size, then
the other names in the order in which they were added. -/
namespace PropertyOrder
open OrderedMap Utf16

def decimal (k : JsString) : Nat := k.foldl (fun n u => n * 10 + (u.toNat - 48)) 0

def IsIndex (k : JsString) : Prop :=
  ofText (toString (decimal k)).toList = k ∧ decimal k < 4294967295

instance (k : JsString) : Decidable (IsIndex k) := inferInstanceAs (Decidable (_ ∧ _))

variable {ν : Type*}

/-- The properties of the object to which `es` were added. -/
def ownProperties (es : Entries JsString ν) : Entries JsString ν :=
  (es.filter fun e => IsIndex e.1).insertionSort (fun e e' => decimal e.1 ≤ decimal e'.1) ++
    es.filter fun e => ¬ IsIndex e.1

theorem ownProperties_perm (es : Entries JsString ν) : (ownProperties es).Perm es := by
  have hsort := List.perm_insertionSort
    (fun e e' : JsString × ν => decimal e.1 ≤ decimal e'.1) (es.filter fun e => IsIndex e.1)
  apply (hsort.append_right _).trans
  have hsplit := List.filter_append_perm (fun e : JsString × ν => IsIndex e.1) es
  simpa using hsplit

/-- The order does not depend on the values. -/
theorem ownProperties_map {μ : Type*} (f : ν → μ) (es : Entries JsString ν) :
    ownProperties (es.map fun e => (e.1, f e.2)) =
      (ownProperties es).map fun e => (e.1, f e.2) := by
  have hsort := List.map_insertionSort (fun e e' : JsString × ν => decimal e.1 ≤ decimal e'.1)
    (fun e e' : JsString × μ => decimal e.1 ≤ decimal e'.1) (fun e => (e.1, f e.2))
    (es.filter fun e => IsIndex e.1) fun _ _ _ _ => Iff.rfl
  rw [ownProperties, ownProperties, List.map_append, List.filter_map, List.filter_map, hsort]
  rfl

example : ownProperties [(ofText ['b'], 0), (ofText ['1', '0'], 1), (ofText ['0', '1'], 2),
    (ofText ['9'], 3)] =
    [(ofText ['9'], 3), (ofText ['1', '0'], 1), (ofText ['b'], 0), (ofText ['0', '1'], 2)] := by
  decide

end PropertyOrder
