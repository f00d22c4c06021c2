import WyzeCams.Lib.JsonText

/-! `JSON.stringify` with a replacer that puts a mark in the place of every value whose key is
secret, at any depth, and what the text tells of the value. The value as a whole has the empty key,
and an item of an array its index. -/
namespace Json
open Utf16
variable {ν : Type} (secret : JsString → Bool) (mark : JsString)

def indexKey (i : Nat) : JsString := ofText (toString i).toList

mutual

def redact (k : JsString) : Value ν → Value ν
  | .arr vs => if secret k then .str mark else .arr (redactItems 0 vs)
  | .obj ms => if secret k then .str mark else .obj (redactMembers ms)
  | v => if secret k then .str mark else v

def redactItems (i : Nat) : List (Value ν) → List (Value ν)
  | [] => []
  | v :: vs => redact (indexKey i) v :: redactItems (i + 1) vs

def redactMembers : List (JsString × Value ν) → List (JsString × Value ν)
  | [] => []
  | (k, v) :: ms => (k, redact k v) :: redactMembers ms

end

mutual

inductive Agrees : JsString → Value ν → Value ν → Prop
  | secret {k : JsString} (hk : secret k = true) (v w : Value ν) : Agrees k v w
  | same (k : JsString) (v : Value ν) : Agrees k v v
  | arr {vs ws : List (Value ν)} (k : JsString) (h : AgreesItems 0 vs ws) :
      Agrees k (.arr vs) (.arr ws)
  | obj {ms ns : List (JsString × Value ν)} (k : JsString) (h : AgreesMembers ms ns) :
      Agrees k (.obj ms) (.obj ns)

inductive AgreesItems : Nat → List (Value ν) → List (Value ν) → Prop
  | nil (i : Nat) : AgreesItems i [] []
  | cons {i : Nat} {v w : Value ν} {vs ws : List (Value ν)} (h : Agrees (indexKey i) v w)
      (hrest : AgreesItems (i + 1) vs ws) : AgreesItems i (v :: vs) (w :: ws)

inductive AgreesMembers : List (JsString × Value ν) → List (JsString × Value ν) → Prop
  | nil : AgreesMembers [] []
  | cons {k : JsString} {v w : Value ν} {ms ns : List (JsString × Value ν)} (h : Agrees k v w)
      (hrest : AgreesMembers ms ns) : AgreesMembers ((k, v) :: ms) ((k, w) :: ns)

end

variable {secret mark} {k : JsString}

theorem redact_secret (hk : secret k = true) (v : Value ν) :
    redact secret mark k v = .str mark := by
  cases v <;> simp [redact, hk]

mutual

theorem Agrees.redact_eq {k : JsString} {v w : Value ν} (h : Agrees secret k v w) :
    redact secret mark k v = redact secret mark k w := by
  cases h with
  | secret hk => rw [redact_secret hk, redact_secret hk]
  | same => rfl
  | arr k h => rw [redact, redact, h.redact_eq]
  | obj k h => rw [redact, redact, h.redact_eq]

theorem AgreesItems.redact_eq {i : Nat} {vs ws : List (Value ν)} (h : AgreesItems secret i vs ws) :
    redactItems secret mark i vs = redactItems secret mark i ws := by
  cases h with
  | nil => rfl
  | cons h hrest => rw [redactItems, redactItems, h.redact_eq, hrest.redact_eq]

theorem AgreesMembers.redact_eq {ms ns : List (JsString × Value ν)}
    (h : AgreesMembers secret ms ns) :
    redactMembers secret mark ms = redactMembers secret mark ns := by
  cases h with
  | nil => rfl
  | cons h hrest => rw [redactMembers, redactMembers, h.redact_eq, hrest.redact_eq]

end

/-- Without a secret key only what is in a value is replaced. -/
theorem redact_leaf (hk : ¬ secret k = true) {v : Value ν} (harr : ∀ vs, v ≠ .arr vs)
    (hobj : ∀ ms, v ≠ .obj ms) : redact secret mark k v = v := by
  cases v with
  | arr vs => exact absurd rfl (harr vs)
  | obj ms => exact absurd rfl (hobj ms)
  | _ => rw [redact, if_neg hk] <;> simp

theorem redact_arr (hk : ¬ secret k = true) (vs : List (Value ν)) :
    redact secret mark k (.arr vs) = .arr (redactItems secret mark 0 vs) := by
  rw [redact, if_neg hk]

theorem redact_obj (hk : ¬ secret k = true) (ms : List (JsString × Value ν)) :
    redact secret mark k (.obj ms) = .obj (redactMembers secret mark ms) := by
  rw [redact, if_neg hk]

theorem agrees_of_leaf (hk : ¬ secret k = true) {v w : Value ν} (harr : ∀ vs, v ≠ .arr vs)
    (hobj : ∀ ms, v ≠ .obj ms) (h : redact secret mark k v = redact secret mark k w) :
    Agrees secret k v w := by
  rw [redact_leaf hk harr hobj] at h
  cases w with
  | arr ws =>
    rw [redact_arr hk] at h
    exact absurd h (harr _)
  | obj ns =>
    rw [redact_obj hk] at h
    exact absurd h (hobj _)
  | _ =>
    rw [redact_leaf hk (by simp) (by simp)] at h
    exact h ▸ .same k _

mutual

theorem agrees_of_redact (k : JsString) (v w : Value ν)
    (h : redact secret mark k v = redact secret mark k w) : Agrees secret k v w := by
  by_cases hk : secret k = true
  · exact .secret hk v w
  cases v with
  | arr vs =>
    cases w with
    | arr ws =>
      rw [redact_arr hk, redact_arr hk] at h
      exact .arr k (agreesItems_of_redact 0 vs ws (Value.arr.inj h))
    | _ => simp [redact, hk] at h
  | obj ms =>
    cases w with
    | obj ns =>
      rw [redact_obj hk, redact_obj hk] at h
      exact .obj k (agreesMembers_of_redact ms ns (Value.obj.inj h))
    | _ => simp [redact, hk] at h
  | _ => exact agrees_of_leaf hk (by simp) (by simp) h

theorem agreesItems_of_redact (i : Nat) (vs ws : List (Value ν))
    (h : redactItems secret mark i vs = redactItems secret mark i ws) :
    AgreesItems secret i vs ws := by
  cases vs with
  | nil =>
    cases ws with
    | nil => exact .nil i
    | cons w ws => simp [redactItems] at h
  | cons v vs =>
    cases ws with
    | nil => simp [redactItems] at h
    | cons w ws =>
      rw [redactItems, redactItems] at h
      obtain ⟨hhead, htail⟩ := List.cons.inj h
      exact .cons (agrees_of_redact (indexKey i) v w hhead)
        (agreesItems_of_redact (i + 1) vs ws htail)

theorem agreesMembers_of_redact (ms ns : List (JsString × Value ν))
    (h : redactMembers secret mark ms = redactMembers secret mark ns) :
    AgreesMembers secret ms ns := by
  cases ms with
  | nil =>
    cases ns with
    | nil => exact .nil
    | cons n ns => simp [redactMembers] at h
  | cons m ms =>
    obtain ⟨k, v⟩ := m
    cases ns with
    | nil => simp [redactMembers] at h
    | cons n ns =>
      obtain ⟨k', w⟩ := n
      rw [redactMembers, redactMembers] at h
      obtain ⟨hhead, htail⟩ := List.cons.inj h
      obtain ⟨rfl, hvalue⟩ := Prod.mk.inj hhead
      exact .cons (agrees_of_redact k v w hvalue) (agreesMembers_of_redact ms ns htail)

end

/-- What is left of two values is the same exactly when they differ under secret keys only. -/
theorem redact_eq_iff (k : JsString) (v w : Value ν) :
    redact secret mark k v = redact secret mark k w ↔ Agrees secret k v w :=
  ⟨agrees_of_redact k v w, Agrees.redact_eq⟩

variable {fmt : NumberFormat ν}

theorem keys_redactMembers (ms : List (JsString × Value ν)) :
    (redactMembers secret mark ms).map Prod.fst = ms.map Prod.fst := by
  induction ms with
  | nil => rfl
  | cons m ms ih => rw [redactMembers, List.map_cons, List.map_cons, ih]

mutual

theorem proper_redact (k : JsString) (v : Value ν) (h : Proper fmt v) :
    Proper fmt (redact secret mark k v) := by
  by_cases hk : secret k = true
  · rw [redact_secret hk]
    exact trivial
  cases v with
  | arr vs =>
    rw [redact_arr hk]
    exact proper_redactItems 0 vs h
  | obj ms =>
    rw [redact_obj hk]
    exact ⟨(keys_redactMembers ms).symm ▸ h.1, proper_redactMembers ms h.2⟩
  | _ =>
    rw [redact_leaf hk (by simp) (by simp)]
    exact h

theorem proper_redactItems (i : Nat) (vs : List (Value ν)) (h : ProperItems fmt vs) :
    ProperItems fmt (redactItems secret mark i vs) := by
  cases vs with
  | nil => exact trivial
  | cons v vs => exact ⟨proper_redact (indexKey i) v h.1, proper_redactItems (i + 1) vs h.2⟩

theorem proper_redactMembers (ms : List (JsString × Value ν)) (h : ProperMembers fmt ms) :
    ProperMembers fmt (redactMembers secret mark ms) := by
  cases ms with
  | nil => exact trivial
  | cons m ms => exact ⟨proper_redact m.1 m.2 h.1, proper_redactMembers ms h.2⟩

end

/-- The texts of proper values tell them apart. -/
theorem stringify_inj {v w : Value ν} (hv : Proper fmt v) (hw : Proper fmt w) :
    stringify fmt [] v = stringify fmt [] w ↔ v = w := by
  refine ⟨fun h => ?_, fun h => by rw [h]⟩
  have hparse := congrArg (parse fmt) h
  rwa [parse_stringify hv spaces_nil, parse_stringify hw spaces_nil, Option.some_inj] at hparse

/-- The text with the marks tells everything but what stands under secret keys. -/
theorem stringify_redact_iff {v w : Value ν} (hv : Proper fmt v) (hw : Proper fmt w)
    (k : JsString) :
    stringify fmt [] (redact secret mark k v) = stringify fmt [] (redact secret mark k w) ↔
      Agrees secret k v w := by
  rw [stringify_inj (proper_redact k v hv) (proper_redact k w hw), redact_eq_iff]

end Json
