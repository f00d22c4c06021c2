import Mathlib.Data.List.Lex
import Mathlib.Data.List.Sort
import WyzeCams.Lib.Utf16

/-! The order of strings by their code units, and `sort` without a comparison. -/
namespace Utf16

def Precedes (s t : JsString) : Prop := s.map UInt16.toNat ≤ t.map UInt16.toNat

instance (s t : JsString) : Decidable (Precedes s t) := inferInstanceAs (Decidable (_ ≤ _))

theorem Precedes.refl (s : JsString) : Precedes s s := le_refl _

theorem Precedes.trans {s t u : JsString} (h : Precedes s t) (h' : Precedes t u) : Precedes s u :=
  le_trans h h'

theorem precedes_total (s t : JsString) : Precedes s t ∨ Precedes t s := le_total _ _

theorem Precedes.antisymm {s t : JsString} (h : Precedes s t) (h' : Precedes t s) : s = t :=
  List.map_injective_iff.mpr (fun _ _ => UInt16.toNat_inj.mp) (le_antisymm h h')

section Order
variable {κ : Type*} {f : κ → JsString} {ks : List κ}

def sortBy (f : κ → JsString) (ks : List κ) : List κ :=
  ks.mergeSort fun a b => decide (Precedes (f a) (f b))

def sort (ks : List JsString) : List JsString := sortBy id ks

theorem sortBy_perm (f : κ → JsString) (ks : List κ) : (sortBy f ks).Perm ks :=
  List.mergeSort_perm _ _

theorem pairwise_sortBy (f : κ → JsString) (ks : List κ) :
    (sortBy f ks).Pairwise fun a b => Precedes (f a) (f b) := by
  have hsorted : (sortBy f ks).Pairwise fun a b => decide (Precedes (f a) (f b)) = true := by
    refine List.pairwise_mergeSort (fun a b c hab hbc => ?_) (fun a b => ?_) ks
    · rw [decide_eq_true_iff] at hab hbc ⊢
      exact hab.trans hbc
    · rw [Bool.or_eq_true, decide_eq_true_iff, decide_eq_true_iff]
      exact precedes_total _ _
  exact hsorted.imp fun hle => of_decide_eq_true hle

/-- A list that is in order is what `sortBy` makes of the same values. -/
theorem sortBy_eq (hf : Function.Injective f) {sorted : List κ} (hperm : ks.Perm sorted)
    (hsorted : sorted.Pairwise fun a b => Precedes (f a) (f b)) : sortBy f ks = sorted :=
  List.Perm.eq_of_pairwise (fun _ _ _ _ h h' => hf (h.antisymm h')) (pairwise_sortBy f ks) hsorted
    ((sortBy_perm f ks).trans hperm)

theorem sortBy_congr (hf : Function.Injective f) {ks' : List κ} (h : ks.Perm ks') :
    sortBy f ks = sortBy f ks' :=
  sortBy_eq hf (h.trans (sortBy_perm f ks').symm) (pairwise_sortBy f ks')

theorem sort_perm (ks : List JsString) : (sort ks).Perm ks := sortBy_perm id ks

theorem sort_congr {ks ks' : List JsString} (h : ks.Perm ks') : sort ks = sort ks' :=
  sortBy_congr Function.injective_id h

end Order

end Utf16
