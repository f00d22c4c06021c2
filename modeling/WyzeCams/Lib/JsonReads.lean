import WyzeCams.Lib.Json

/-! Where the parts of a value come from that `JSON.parse` has made. -/
namespace Json
open Utf16
variable {ν : Type} {fmt : NumberFormat ν}

def Reads (fmt : NumberFormat ν) (v : Value ν) : Prop := ∃ n t r, readValue fmt n t = some (v, r)

theorem readItems_reads {n : Nat} {t r : List Char} {vs : List (Value ν)}
    (h : readItems fmt n t = some (vs, r)) {v : Value ν} (hv : v ∈ vs) : Reads fmt v := by
  induction n generalizing t vs with
  | zero => cases h
  | succ n ih =>
    rw [readItems] at h
    cases hfirst : readValue fmt n t with
    | none =>
      rw [hfirst] at h
      cases h
    | some p =>
      obtain ⟨w, r'⟩ := p
      rw [hfirst] at h
      dsimp only at h
      cases hcomma : expect ',' r' with
      | none =>
        rw [hcomma] at h
        obtain ⟨s, -, hp⟩ := Option.map_eq_some_iff.mp h
        cases hp
        rw [List.mem_singleton] at hv
        rw [hv]
        exact ⟨n, t, r', hfirst⟩
      | some r'' =>
        rw [hcomma] at h
        obtain ⟨q, hq, hp⟩ := Option.map_eq_some_iff.mp h
        cases hp
        rcases List.mem_cons.mp hv with rfl | hv
        · exact ⟨n, t, r', hfirst⟩
        · exact ih hq hv

theorem readMembers_reads {n : Nat} {t r : List Char} {ms : List (JsString × Value ν)}
    (h : readMembers fmt n t = some (ms, r)) {e : JsString × Value ν} (he : e ∈ ms) :
    Reads fmt e.2 := by
  induction n generalizing t ms with
  | zero => cases h
  | succ n ih =>
    rw [readMembers] at h
    cases hkey : (expect '"' t).bind (readString n) with
    | none =>
      rw [hkey] at h
      cases h
    | some p =>
      obtain ⟨k, r'⟩ := p
      rw [hkey] at h
      dsimp only at h
      cases hvalue : (expect ':' r').bind (readValue fmt n) with
      | none =>
        rw [hvalue] at h
        cases h
      | some p =>
        obtain ⟨v, r''⟩ := p
        rw [hvalue] at h
        dsimp only at h
        obtain ⟨t', -, hread⟩ := Option.bind_eq_some_iff.mp hvalue
        have hfirst : Reads fmt v := ⟨n, t', r'', hread⟩
        cases hcomma : expect ',' r'' with
        | none =>
          rw [hcomma] at h
          obtain ⟨s, -, hp⟩ := Option.map_eq_some_iff.mp h
          cases hp
          rw [List.mem_singleton] at he
          rw [he]
          exact hfirst
        | some r₃ =>
          rw [hcomma] at h
          obtain ⟨q, hq, hp⟩ := Option.map_eq_some_iff.mp h
          cases hp
          rcases List.mem_cons.mp he with rfl | he
          · exact hfirst
          · exact ih hq he

/-- A number comes from `fmt.read`, and what an array or an object holds is read like any value. -/
def Sources (fmt : NumberFormat ν) : Value ν → Prop
  | .num x => ∃ u, x = fmt.read u
  | .arr vs => ∀ v ∈ vs, Reads fmt v
  | .obj ms => ∀ e ∈ ms, Reads fmt e.2
  | _ => True

theorem sources_of_map {α : Type} {o : Option (α × List Char)} {f : α → Value ν}
    {p : Value ν × List Char} (h : (o.map fun a => (f a.1, a.2)) = some p)
    (hf : ∀ a, o = some a → Sources fmt (f a.1)) : Sources fmt p.1 := by
  obtain ⟨a, ha, hp⟩ := Option.map_eq_some_iff.mp h
  rw [← hp]
  exact hf a ha

theorem sources_of_keyword {o : Option (List Char)} {v : Value ν} {p : Value ν × List Char}
    (h : (o.map fun r => (v, r)) = some p) (hv : Sources fmt v) : Sources fmt p.1 := by
  obtain ⟨a, -, hp⟩ := Option.map_eq_some_iff.mp h
  rw [← hp]
  exact hv

theorem Reads.sources {v : Value ν} (h : Reads fmt v) : Sources fmt v := by
  obtain ⟨n, t, r, h⟩ := h
  cases n with
  | zero => cases h
  | succ n =>
    rw [readValue] at h
    cases hskip : skip t with
    | nil =>
      rw [hskip] at h
      cases h
    | cons c cs =>
      rw [hskip] at h
      dsimp only at h
      split_ifs at h
      · exact sources_of_keyword h trivial
      · exact sources_of_keyword h trivial
      · exact sources_of_keyword h trivial
      · exact sources_of_map h fun _ _ => trivial
      · cases hclose : expect ']' cs with
        | some rest =>
          rw [hclose] at h
          cases h
          exact fun _ hw => absurd hw List.not_mem_nil
        | none =>
          rw [hclose] at h
          exact sources_of_map h fun _ hitems _ hw => readItems_reads hitems hw
      · cases hclose : expect '\x7d' cs with
        | some rest =>
          rw [hclose] at h
          cases h
          exact fun _ he => absurd he List.not_mem_nil
        | none =>
          rw [hclose] at h
          refine sources_of_map (f := fromMembers) h fun _ hmembers e he => ?_
          rcases OrderedMap.mem_of_mem_foldl_set he with he | he
          · exact absurd he List.not_mem_nil
          · exact readMembers_reads hmembers he
      · rw [readNumber] at h
        split_ifs at h
        cases h
        exact ⟨_, rfl⟩

theorem reads_of_parse {t : List Char} {v : Value ν} (h : parse fmt t = some v) : Reads fmt v := by
  rw [parse] at h
  cases hread : readValue fmt (t.length + 1) t with
  | none =>
    rw [hread] at h
    cases h
  | some p =>
    obtain ⟨w, r⟩ := p
    rw [hread] at h
    dsimp only at h
    split_ifs at h
    cases h
    exact ⟨_, _, _, hread⟩

end Json
