import WyzeCams.Lib.Json

/-! Objects that are put together of JSON values, by `{ ...source }`, `Object.assign` and
assignments. What they inherit from `Object.prototype` is left out, but for `__proto__`: to assign
to it is to change the prototype. -/
namespace PlainObject
open Json OrderedMap Utf16
variable {ν : Type}

/-- The own properties in the order in which they were added, and the prototype: `none` is
`Object.prototype`, and `some .null` says that there is no prototype. -/
structure Obj (ν : Type) where
  own : Entries JsString (Value ν)
  proto : Option (Value ν)

def protoKey : JsString := ofText ['_', '_', 'p', 'r', 'o', 't', 'o', '_', '_']

def indexed (items : List (Value ν)) : Entries JsString (Value ν) :=
  items.zipIdx.map fun e => (ofText (toString e.2).toList, e.1)

def members : Value ν → Entries JsString (Value ν)
  | .obj ms => ms
  | .arr items => indexed items
  | .str s => indexed (s.map fun u => .str [u])
  | _ => []

/-- The own enumerable properties of a value. Of two members with one name the later one stays. -/
def properties (v : Value ν) : Entries JsString (Value ν) :=
  (members v).foldl (fun m e => OrderedMap.set m e.1 e.2) []

/-- `v?.name`, for a name that no prototype has; `none` is `undefined`. -/
def optional (v : Option (Value ν)) (name : JsString) : Option (Value ν) :=
  v.bind fun v => OrderedMap.get (properties v) name

/-- `v.name` throws for `null` and `undefined`: `none` stands for the `TypeError`. -/
def read (v : Option (Value ν)) (name : JsString) : Option (Option (Value ν)) :=
  match v with
  | none => none
  | some .null => none
  | some v => some (OrderedMap.get (properties v) name)

/-- `{ ...source }` for an object with these properties. -/
def spread (source : Entries JsString (Value ν)) : Obj ν := ⟨source, none⟩

/-- Whether an assignment to `__proto__` finds the setter of `Object.prototype`. -/
def Obj.hasSetter (o : Obj ν) : Bool :=
  (OrderedMap.get o.own protoKey).isNone && match o.proto with
    | none => true
    | some .null => false
    | some v => (OrderedMap.get (properties v) protoKey).isNone

/-- What the setter does: it takes objects and `null` only. -/
def Obj.setProto (o : Obj ν) : Value ν → Obj ν
  | .null => { o with proto := some .null }
  | .arr items => { o with proto := some (.arr items) }
  | .obj ms => { o with proto := some (.obj ms) }
  | _ => o

def Obj.set (o : Obj ν) (k : JsString) (v : Value ν) : Obj ν :=
  if k = protoKey ∧ o.hasSetter = true then o.setProto v
  else { o with own := OrderedMap.set o.own k v }

/-- `Object.assign(o, source)`; `undefined` has no properties. -/
def Obj.assign (o : Obj ν) (source : Option (Value ν)) : Obj ν :=
  (source.elim [] properties).foldl (fun o e => o.set e.1 e.2) o

theorem own_setProto (o : Obj ν) (v : Value ν) : (o.setProto v).own = o.own := by
  cases v <;> rfl

variable {o : Obj ν} {k k' : JsString}

theorem get_set (h : k' ≠ protoKey) (v : Value ν) :
    OrderedMap.get (o.set k v).own k' = if k' = k then some v else OrderedMap.get o.own k' := by
  rw [Obj.set]
  split_ifs with hproto hk hk
  · exact absurd (hk.trans hproto.1) h
  · rw [own_setProto]
  · rw [OrderedMap.get_set, if_pos hk]
  · rw [OrderedMap.get_set, if_neg hk]

theorem nodup_properties (v : Value ν) : (keys (properties v)).Nodup :=
  nodup_foldl_set List.nodup_nil

theorem get_foldl_set (h : k ≠ protoKey) {es : Entries JsString (Value ν)}
    (hes : (keys es).Nodup) :
    OrderedMap.get (es.foldl (fun o e => o.set e.1 e.2) o).own k =
      (OrderedMap.get es k).or (OrderedMap.get o.own k) := by
  induction es generalizing o with
  | nil => rfl
  | cons e es ih =>
    obtain ⟨hnew, hes⟩ := List.nodup_cons.mp hes
    rw [List.foldl_cons, ih hes, get_set h, get_cons]
    by_cases hk : k = e.1
    · rw [if_pos hk, if_pos hk, get_eq_none_of_not_mem (by rw [hk]; exact hnew)]
      rfl
    · rw [if_neg hk, if_neg hk]

/-- The properties of the source come before those that the object has already. -/
theorem get_assign (h : k ≠ protoKey) (source : Option (Value ν)) :
    OrderedMap.get (o.assign source).own k =
      (optional source k).or (OrderedMap.get o.own k) := by
  rw [Obj.assign]
  cases source with
  | none => rfl
  | some v => exact get_foldl_set h (nodup_properties v)

/-- A falsy value has no properties to assign. -/
theorem assign_of_not_truthy {isZero : ν → Bool} {source : Option (Value ν)}
    (h : truthy isZero source = false) : o.assign source = o := by
  cases source with
  | none => rfl
  | some v =>
    cases v with
    | str s =>
      have hs : s = [] := by simpa [truthy] using h
      rw [hs]
      rfl
    | arr items => cases h
    | obj ms => cases h
    | _ => rfl

end PlainObject
