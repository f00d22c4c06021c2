import WyzeCams.Lib.Json

/-! JSON texts with all the members that they name: what `JSON.parse` makes of them, where a member
replaces an earlier one of the same name. -/
namespace Json
open Utf16

section ReadAll
variable {ν : Type} (fmt : NumberFormat ν)

mutual

def readAll : Nat → List Char → Option (Value ν × List Char)
  | 0, _ => none
  | n + 1, t =>
    match skip t with
    | [] => none
    | c :: r =>
      if c = 'n' then (keyword ['u', 'l', 'l'] r).map fun r => (.null, r)
      else if c = 't' then (keyword ['r', 'u', 'e'] r).map fun r => (.bool true, r)
      else if c = 'f' then (keyword ['a', 'l', 's', 'e'] r).map fun r => (.bool false, r)
      else if c = '"' then (readString n r).map fun p => (.str p.1, p.2)
      else if c = '[' then
        match expect ']' r with
        | some r => some (.arr [], r)
        | none => (readAllItems n r).map fun p => (.arr p.1, p.2)
      else if c = '\x7b' then
        match expect '\x7d' r with
        | some r => some (.obj [], r)
        | none => (readAllMembers n r).map fun p => (.obj p.1, p.2)
      else if c = '-' || isDigit c then readNumber fmt (c :: r)
      else none

def readAllItems : Nat → List Char → Option (List (Value ν) × List Char)
  | 0, _ => none
  | n + 1, t =>
    match readAll n t with
    | none => none
    | some (v, r) =>
      match expect ',' r with
      | some r => (readAllItems n r).map fun p => (v :: p.1, p.2)
      | none => (expect ']' r).map fun r => ([v], r)

def readAllMembers : Nat → List Char → Option (List (JsString × Value ν) × List Char)
  | 0, _ => none
  | n + 1, t =>
    match (expect '"' t).bind (readString n) with
    | none => none
    | some (k, r) =>
      match (expect ':' r).bind (readAll n) with
      | none => none
      | some (v, r) =>
        match expect ',' r with
        | some r => (readAllMembers n r).map fun p => ((k, v) :: p.1, p.2)
        | none => (expect '\x7d' r).map fun r => ([(k, v)], r)

end

def parseAll (t : List Char) : Option (Value ν) :=
  match readAll fmt (t.length + 1) t with
  | none => none
  | some (v, r) => if skip r = [] then some v else none

end ReadAll

section Values
variable {ν : Type}

mutual

/-- The value in which later members have replaced earlier ones. -/
def settle : Value ν → Value ν
  | .arr vs => .arr (settleItems vs)
  | .obj ms => fromMembers (settleMembers ms)
  | v => v

def settleItems : List (Value ν) → List (Value ν)
  | [] => []
  | v :: vs => settle v :: settleItems vs

def settleMembers : List (JsString × Value ν) → List (JsString × Value ν)
  | [] => []
  | (k, v) :: ms => (k, settle v) :: settleMembers ms

end

mutual

def Distinct : Value ν → Prop
  | .arr vs => DistinctItems vs
  | .obj ms => (ms.map Prod.fst).Nodup ∧ DistinctMembers ms
  | _ => True

def DistinctItems : List (Value ν) → Prop
  | [] => True
  | v :: vs => Distinct v ∧ DistinctItems vs

def DistinctMembers : List (JsString × Value ν) → Prop
  | [] => True
  | (_, v) :: ms => Distinct v ∧ DistinctMembers ms

end

mutual

/-- The value without its strings and the names of its members. -/
def skeleton : Value ν → Value ν
  | .str _ => .str []
  | .arr vs => .arr (skeletonItems vs)
  | .obj ms => .obj (skeletonMembers ms)
  | v => v

def skeletonItems : List (Value ν) → List (Value ν)
  | [] => []
  | v :: vs => skeleton v :: skeletonItems vs

def skeletonMembers : List (JsString × Value ν) → List (JsString × Value ν)
  | [] => []
  | (_, v) :: ms => ([], skeleton v) :: skeletonMembers ms

end

variable {fmt : NumberFormat ν}

mutual

theorem readValue_eq (n : Nat) (t : List Char) :
    readValue fmt n t = (readAll fmt n t).map fun p => (settle p.1, p.2) := by
  cases n with
  | zero => rfl
  | succ n =>
    rw [readValue, readAll]
    cases skip t with
    | nil => rfl
    | cons c r =>
      dsimp only
      split_ifs
      · cases keyword ['u', 'l', 'l'] r <;> rfl
      · cases keyword ['r', 'u', 'e'] r <;> rfl
      · cases keyword ['a', 'l', 's', 'e'] r <;> rfl
      · cases readString n r <;> rfl
      · cases expect ']' r with
        | some r => rfl
        | none =>
          dsimp only
          rw [readItems_eq n r]
          cases readAllItems fmt n r <;> rfl
      · cases expect '\x7d' r with
        | some r => rfl
        | none =>
          dsimp only
          rw [readMembers_eq n r]
          cases readAllMembers fmt n r <;> rfl
      · rw [readNumber]
        split_ifs <;> rfl
      · rfl

theorem readItems_eq (n : Nat) (t : List Char) :
    readItems fmt n t = (readAllItems fmt n t).map fun p => (settleItems p.1, p.2) := by
  cases n with
  | zero => rfl
  | succ n =>
    rw [readItems, readAllItems, readValue_eq n t]
    cases readAll fmt n t with
    | none => rfl
    | some p =>
      obtain ⟨v, r⟩ := p
      rw [Option.map_some]
      dsimp only
      cases expect ',' r with
      | some r =>
        dsimp only
        rw [readItems_eq n r]
        cases readAllItems fmt n r <;> rfl
      | none => cases expect ']' r <;> rfl

theorem readMembers_eq (n : Nat) (t : List Char) :
    readMembers fmt n t = (readAllMembers fmt n t).map fun p => (settleMembers p.1, p.2) := by
  cases n with
  | zero => rfl
  | succ n =>
    rw [readMembers, readAllMembers]
    cases (expect '"' t).bind (readString n) with
    | none => rfl
    | some p =>
      obtain ⟨k, r⟩ := p
      dsimp only
      cases expect ':' r with
      | none => rfl
      | some r =>
        rw [Option.bind_some, Option.bind_some, readValue_eq n r]
        cases readAll fmt n r with
        | none => rfl
        | some p =>
          obtain ⟨v, r⟩ := p
          rw [Option.map_some]
          dsimp only
          cases expect ',' r with
          | some r =>
            dsimp only
            rw [readMembers_eq n r]
            cases readAllMembers fmt n r <;> rfl
          | none => cases expect '\x7d' r <;> rfl

end

/-- `JSON.parse` settles the members that it has read. -/
theorem parse_eq (t : List Char) : parse fmt t = (parseAll fmt t).map settle := by
  rw [parse, parseAll, readValue_eq]
  cases readAll fmt (t.length + 1) t with
  | none => rfl
  | some p =>
    rw [Option.map_some]
    dsimp only
    split_ifs <;> rfl

mutual

theorem settle_of_distinct {v : Value ν} (h : Distinct v) : settle v = v := by
  match v with
  | .null => rfl
  | .bool _ => rfl
  | .num _ => rfl
  | .str _ => rfl
  | .arr vs => rw [settle, settleItems_of_distinct h]
  | .obj ms =>
    have hset := OrderedMap.foldl_set (m := []) (l := ms) h.1
    rw [settle, settleMembers_of_distinct h.2, fromMembers, hset, List.nil_append]

theorem settleItems_of_distinct {vs : List (Value ν)} (h : DistinctItems vs) :
    settleItems vs = vs := by
  match vs with
  | [] => rfl
  | v :: vs => rw [settleItems, settle_of_distinct h.1, settleItems_of_distinct h.2]

theorem settleMembers_of_distinct {ms : List (JsString × Value ν)} (h : DistinctMembers ms) :
    settleMembers ms = ms := by
  match ms with
  | [] => rfl
  | (k, v) :: ms => rw [settleMembers, settle_of_distinct h.1, settleMembers_of_distinct h.2]

end

theorem length_settleMembers (ms : List (JsString × Value ν)) :
    (settleMembers ms).length = ms.length := by
  induction ms with
  | nil => rfl
  | cons e ms ih =>
    obtain ⟨k, v⟩ := e
    rw [settleMembers, List.length_cons, List.length_cons, ih]

theorem length_skeletonMembers (ms : List (JsString × Value ν)) :
    (skeletonMembers ms).length = ms.length := by
  induction ms with
  | nil => rfl
  | cons e ms ih =>
    obtain ⟨k, v⟩ := e
    rw [skeletonMembers, List.length_cons, List.length_cons, ih]

mutual

/-- A value that is settled into one of its own skeleton was settled before. -/
theorem eq_of_settle {v w : Value ν} (hsettle : settle v = w) (hskel : skeleton v = skeleton w) :
    v = w := by
  match v with
  | .null => exact hsettle
  | .bool _ => exact hsettle
  | .num _ => exact hsettle
  | .str _ => exact hsettle
  | .arr vs =>
    subst hsettle
    rw [settle, skeleton, skeleton, Value.arr.injEq] at hskel
    rw [settle, ← eq_of_settleItems rfl hskel]
  | .obj ms =>
    subst hsettle
    rw [settle, fromMembers, skeleton, skeleton, Value.obj.injEq] at hskel
    have hlen := congrArg List.length hskel
    rw [length_skeletonMembers, length_skeletonMembers, ← length_settleMembers] at hlen
    have hset : (settleMembers ms).foldl (fun m e => OrderedMap.set m e.1 e.2) [] =
        [] ++ settleMembers ms :=
      OrderedMap.foldl_set_of_length (by rw [← hlen, List.length_nil, Nat.zero_add])
    rw [hset, List.nil_append] at hskel
    rw [settle, fromMembers, hset, List.nil_append, ← eq_of_settleMembers rfl hskel]

theorem eq_of_settleItems {vs ws : List (Value ν)} (hsettle : settleItems vs = ws)
    (hskel : skeletonItems vs = skeletonItems ws) : vs = ws := by
  match vs with
  | [] => exact hsettle
  | v :: vs =>
    subst hsettle
    rw [settleItems, skeletonItems, skeletonItems, List.cons.injEq] at hskel
    rw [settleItems, ← eq_of_settle rfl hskel.1, ← eq_of_settleItems rfl hskel.2]

theorem eq_of_settleMembers {ms ws : List (JsString × Value ν)} (hsettle : settleMembers ms = ws)
    (hskel : skeletonMembers ms = skeletonMembers ws) : ms = ws := by
  match ms with
  | [] => exact hsettle
  | (k, v) :: ms =>
    subst hsettle
    rw [settleMembers, skeletonMembers, skeletonMembers, List.cons.injEq, Prod.mk.injEq] at hskel
    rw [settleMembers, ← eq_of_settle rfl hskel.1.2, ← eq_of_settleMembers rfl hskel.2]

end

end Values

end Json
