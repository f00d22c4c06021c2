import Mathlib.Tactic.Common
import Mathlib.Data.List.Pairwise

/-! Tables of routes: a route is a method and a pattern of path segments, and the first route that
fits a request answers it. In a table whose routes keep apart the order does not matter. -/
namespace Router

/-- A piece of a pattern: a given segment, or any segment that is not empty. -/
inductive Piece where
  | text (s : String)
  | segment
  deriving DecidableEq

def capture : List Piece → List (List Char) → Option (List (List Char))
  | [], [] => some []
  | .text s :: ps, seg :: path => if seg = s.toList then capture ps path else none
  | .segment :: ps, seg :: path => if seg = [] then none else (capture ps path).map fun cs =>
      seg :: cs
  | _, _ => none

def fill : List Piece → List (List Char) → List (List Char)
  | .text s :: ps, cs => s.toList :: fill ps cs
  | .segment :: ps, c :: cs => c :: fill ps cs
  | _, _ => []

def overlap : List Piece → List Piece → Bool
  | [], [] => true
  | .text s :: ps, .text t :: qs => s = t && overlap ps qs
  | _ :: ps, _ :: qs => overlap ps qs
  | _, _ => false

structure Row (τ : Type) where
  method : String
  pieces : List Piece
  target : τ
  deriving DecidableEq

variable {τ : Type}

def Row.read (method : String) (path : List (List Char)) (row : Row τ) :
    Option (τ × List (List Char)) :=
  if method = row.method then (capture row.pieces path).map fun cs => (row.target, cs) else none

def dispatch (rows : List (Row τ)) (method : String) (path : List (List Char)) :
    Option (τ × List (List Char)) :=
  rows.findSome? (Row.read method path)

def Row.Apart (row row' : Row τ) : Prop :=
  row.method ≠ row'.method ∨ overlap row.pieces row'.pieces = false

instance (row row' : Row τ) : Decidable (row.Apart row') := inferInstanceAs (Decidable (_ ∨ _))

variable {ps qs : List Piece} {path cs : List (List Char)} {method : String} {rows : List (Row τ)}
  {row : Row τ} {x : τ × List (List Char)}

def Piece.Takes : Piece → List Char → Prop
  | .text s, seg => seg = s.toList
  | .segment, seg => seg ≠ []

theorem takes_of_capture {p : Piece} {seg : List Char}
    (h : capture (p :: ps) (seg :: path) = some cs) :
    p.Takes seg ∧ ∃ rest, capture ps path = some rest := by
  cases p with
  | text s =>
    rw [capture] at h
    split_ifs at h with hs
    exact ⟨hs, cs, h⟩
  | segment =>
    rw [capture] at h
    split_ifs at h with hs
    exact ⟨hs, (Option.map_eq_some_iff.mp h).imp fun _ h => h.1⟩

theorem capture_text {s : String} :
    capture (.text s :: ps) path = some cs ↔
      ∃ rest, path = s.toList :: rest ∧ capture ps rest = some cs := by
  cases path with
  | nil => exact iff_of_false (Option.some_ne_none cs).symm fun ⟨_, h, _⟩ => absurd h (by simp)
  | cons seg path =>
    rw [capture]
    split_ifs with hs
    · simp [hs]
    · simp [hs]

theorem fill_of_capture (h : capture ps path = some cs) : path = fill ps cs := by
  induction ps generalizing path cs with
  | nil =>
    cases path with
    | nil => rfl
    | cons seg path => cases h
  | cons p ps ih =>
    cases path with
    | nil => cases p <;> cases h
    | cons seg path =>
      cases p with
      | text s =>
        rw [capture] at h
        split_ifs at h with hs
        rw [fill, hs, ih h]
      | segment =>
        rw [capture] at h
        split_ifs at h
        obtain ⟨rest, hrest, rfl⟩ := Option.map_eq_some_iff.mp h
        rw [fill, ← ih hrest]

theorem overlap_of_capture {cs' : List (List Char)} (h : capture ps path = some cs)
    (h' : capture qs path = some cs') : overlap ps qs = true := by
  induction path generalizing ps qs cs cs' with
  | nil =>
    cases ps with
    | nil =>
      cases qs with
      | nil => rfl
      | cons q qs => cases q <;> cases h'
    | cons p ps => cases p <;> cases h
  | cons seg path ih =>
    cases ps with
    | nil => cases h
    | cons p ps =>
      cases qs with
      | nil => cases h'
      | cons q qs =>
        obtain ⟨hp, rest, hrest⟩ := takes_of_capture h
        obtain ⟨hq, rest', hrest'⟩ := takes_of_capture h'
        have htail := ih hrest hrest'
        cases p with
        | segment => cases q <;> exact htail
        | text s =>
          cases q with
          | segment => exact htail
          | text t =>
            have hst : s = t := String.toList_injective (hp.symm.trans hq)
            rw [overlap, htail, hst, decide_eq_true rfl]
            rfl

theorem Row.read_eq_some :
    row.read method path = some x ↔
      method = row.method ∧ x.1 = row.target ∧ capture row.pieces path = some x.2 := by
  rw [Row.read]
  split_ifs with hm
  · rw [Option.map_eq_some_iff]
    constructor
    · rintro ⟨cs, hcs, rfl⟩
      exact ⟨hm, rfl, hcs⟩
    · rintro ⟨-, htarget, hcs⟩
      exact ⟨x.2, hcs, by rw [← htarget]⟩
  · exact iff_of_false id fun hno => hm hno.1

/-- In a table whose routes keep apart a request is answered by the route that fits it. -/
theorem dispatch_eq_some (hrows : rows.Pairwise Row.Apart) :
    dispatch rows method path = some x ↔ ∃ row ∈ rows, row.read method path = some x := by
  induction rows with
  | nil => exact iff_of_false (Option.some_ne_none x).symm fun ⟨_, h, _⟩ => List.not_mem_nil h
  | cons row rows ih =>
    obtain ⟨hapart, hrest⟩ := List.pairwise_cons.mp hrows
    rw [dispatch, List.findSome?_cons]
    cases hread : row.read method path with
    | none =>
      refine (ih hrest).trans ⟨fun ⟨r, hr, h⟩ => ⟨r, List.mem_cons_of_mem row hr, h⟩, ?_⟩
      rintro ⟨r, hr, h⟩
      rcases List.mem_cons.mp hr with rfl | hr
      · exact absurd (hread.symm.trans h) (Option.some_ne_none x).symm
      · exact ⟨r, hr, h⟩
    | some y =>
      constructor
      · rintro h
        obtain rfl := Option.some.inj h
        exact ⟨row, List.mem_cons_self, hread⟩
      · rintro ⟨r, hr, h⟩
        rcases List.mem_cons.mp hr with rfl | hr
        · exact hread.symm.trans h
        · obtain ⟨hm, -, hcs⟩ := Row.read_eq_some.mp hread
          obtain ⟨hm', -, hcs'⟩ := Row.read_eq_some.mp h
          rcases hapart r hr with hne | hover
          · exact absurd (hm.symm.trans hm') hne
          · exact absurd (overlap_of_capture hcs hcs') (by rw [hover]; decide)

end Router
