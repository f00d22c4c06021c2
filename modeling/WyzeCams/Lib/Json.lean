import WyzeCams.Lib.Hex
import WyzeCams.Lib.OrderedMap
import WyzeCams.Lib.Utf16

/-! JSON: values, `JSON.stringify` with and without an indentation, and `JSON.parse`. Strings are
lists of UTF-16 code units; a text is a list of characters, since `JSON.stringify` writes a
surrogate that stands alone as an escape. Numbers are a parameter, and an object lists its members
in their order. -/
namespace Json
open Utf16

structure NumberFormat (ν : Type) where
  print : ν → List Char
  read : List Char → ν

inductive Value (ν : Type) where
  | null
  | bool (b : Bool)
  | num (x : ν)
  | str (s : JsString)
  | arr (items : List (Value ν))
  | obj (members : List (JsString × Value ν))

def isNull {ν : Type} : Value ν → Bool
  | .null => true
  | _ => false

/-- `if (v)`, where `none` is `undefined`; `isZero` tells which numbers are 0 or NaN. -/
def truthy {ν : Type} (isZero : ν → Bool) : Option (Value ν) → Bool
  | none => false
  | some .null => false
  | some (.bool b) => b
  | some (.num x) => !isZero x
  | some (.str s) => s ≠ []
  | some _ => true

def unicodeEscape (u : UInt16) : List Char :=
  ['\\', 'u', Hex.lower (u.toNat / 4096), Hex.lower (u.toNat / 256 % 16),
    Hex.lower (u.toNat / 16 % 16), Hex.lower (u.toNat % 16)]

def quoteChar (c : Char) : List Char :=
  if c = '"' then ['\\', '"']
  else if c = '\\' then ['\\', '\\']
  else if c = Char.ofNat 8 then ['\\', 'b']
  else if c = Char.ofNat 9 then ['\\', 't']
  else if c = Char.ofNat 10 then ['\\', 'n']
  else if c = Char.ofNat 12 then ['\\', 'f']
  else if c = Char.ofNat 13 then ['\\', 'r']
  else if c.toNat < 32 then unicodeEscape (UInt16.ofNat c.toNat)
  else [c]

def quoteUnit (u : UInt16) : List Char :=
  if IsHigh u ∨ IsLow u then unicodeEscape u else quoteChar (Char.ofNat u.toNat)

def quoteBody : JsString → List Char
  | [] => []
  | [u] => quoteUnit u
  | u :: v :: rest =>
    if IsHigh u ∧ IsLow v then quoteChar (pair u v) ++ quoteBody rest
    else quoteUnit u ++ quoteBody (v :: rest)

def quote (s : JsString) : List Char := '"' :: quoteBody s ++ ['"']

-- `JSON.stringify(value, null, gap)`; the text of a value that starts at the indentation
-- `indent`.

/-- What stands between two items, and before the first one. -/
def newline (gap indent : List Char) : List Char := if gap = [] then [] else '\n' :: indent

def pad (gap : List Char) : List Char := if gap = [] then [] else [' ']

section Stringify
variable {ν : Type} (fmt : NumberFormat ν) (gap : List Char)

mutual

def write (indent : List Char) : Value ν → List Char
  | .null => ['n', 'u', 'l', 'l']
  | .bool true => ['t', 'r', 'u', 'e']
  | .bool false => ['f', 'a', 'l', 's', 'e']
  | .num x => fmt.print x
  | .str s => quote s
  | .arr [] => ['[', ']']
  | .arr vs =>
    '[' :: newline gap (indent ++ gap) ++ writeItems (indent ++ gap) vs ++
      newline gap indent ++ [']']
  | .obj [] => ['\x7b', '\x7d']
  | .obj ms =>
    '\x7b' :: newline gap (indent ++ gap) ++ writeMembers (indent ++ gap) ms ++
      newline gap indent ++ ['\x7d']

def writeItems (indent : List Char) : List (Value ν) → List Char
  | [] => []
  | [v] => write indent v
  | v :: w :: vs => write indent v ++ ',' :: newline gap indent ++ writeItems indent (w :: vs)

def writeMembers (indent : List Char) : List (JsString × Value ν) → List Char
  | [] => []
  | [(k, v)] => quote k ++ ':' :: pad gap ++ write indent v
  | (k, v) :: m :: ms =>
    quote k ++ ':' :: pad gap ++ write indent v ++ ',' :: newline gap indent ++
      writeMembers indent (m :: ms)

end

/-- `JSON.stringify(value)` for an empty `gap`, else `JSON.stringify(value, null, gap)`. -/
def stringify (v : Value ν) : List Char := write fmt gap [] v

end Stringify

-- `JSON.parse`, a reader with a bound on its calls.

def isSpace (c : Char) : Bool := c = ' ' || c = '\n' || c = '\r' || c = '\t'

def skip (t : List Char) : List Char := t.dropWhile isSpace

def expect (c : Char) (t : List Char) : Option (List Char) :=
  match skip t with
  | [] => none
  | d :: r => if d = c then some r else none

def simpleEscape (c : Char) : Option UInt16 :=
  if c = '"' then some 34
  else if c = '\\' then some 92
  else if c = '/' then some 47
  else if c = 'b' then some 8
  else if c = 't' then some 9
  else if c = 'n' then some 10
  else if c = 'f' then some 12
  else if c = 'r' then some 13
  else none

def readHex : List Char → Option (UInt16 × List Char)
  | a :: b :: c :: d :: r => do
    let x ← Hex.value a
    let y ← Hex.value b
    let z ← Hex.value c
    let w ← Hex.value d
    some (UInt16.ofNat (((x * 16 + y) * 16 + z) * 16 + w), r)
  | _ => none

def readEscape : List Char → Option (JsString × List Char)
  | [] => none
  | c :: r =>
    if c = 'u' then (readHex r).map fun p => ([p.1], p.2)
    else (simpleEscape c).map fun u => ([u], r)

def readString : Nat → List Char → Option (JsString × List Char)
  | 0, _ => none
  | _ + 1, [] => none
  | n + 1, c :: r =>
    if c = '"' then some ([], r)
    else if c = '\\' then
      (readEscape r).bind fun p => (readString n p.2).map fun q => (p.1 ++ q.1, q.2)
    else if c.toNat < 32 then none
    else (readString n r).map fun q => (units c ++ q.1, q.2)

-- Numbers: an optional minus, an integer without leading zeros, a fraction, an exponent.

def isDigit (c : Char) : Bool := '0' ≤ c && c ≤ '9'

def isNumberChar (c : Char) : Bool :=
  isDigit c || c = '-' || c = '+' || c = '.' || c = 'e' || c = 'E'

def isDigits (t : List Char) : Bool := !t.isEmpty && t.all isDigit

def isSigned : List Char → Bool
  | [] => false
  | c :: r => if c = '+' || c = '-' then isDigits r else isDigits (c :: r)

def isExponent : List Char → Bool
  | [] => true
  | c :: r => (c = 'e' || c = 'E') && isSigned r

def isDecimals : List Char → Bool
  | [] => false
  | c :: r => isDigit c && isExponent (r.dropWhile isDigit)

def isFraction : List Char → Bool
  | [] => true
  | c :: r => if c = '.' then isDecimals r else isExponent (c :: r)

def isUnsigned : List Char → Bool
  | [] => false
  | c :: r =>
    if c = '0' then isFraction r else isDigit c && isFraction (r.dropWhile isDigit)

def isNumber : List Char → Bool
  | [] => false
  | c :: r => if c = '-' then isUnsigned r else isUnsigned (c :: r)

def keyword : List Char → List Char → Option (List Char)
  | [], t => some t
  | _ :: _, [] => none
  | a :: word, c :: t => if c = a then keyword word t else none

/-- An object of the members read: of two with one key the later one stays. -/
def fromMembers {ν : Type} (ms : List (JsString × Value ν)) : Value ν :=
  .obj (ms.foldl (fun m e => OrderedMap.set m e.1 e.2) [])

section Parse
variable {ν : Type} (fmt : NumberFormat ν)

def readNumber (t : List Char) : Option (Value ν × List Char) :=
  if isNumber (t.takeWhile isNumberChar) then
    some (.num (fmt.read (t.takeWhile isNumberChar)), t.dropWhile isNumberChar)
  else none

mutual

def readValue : Nat → List Char → Option (Value ν × List Char)
  | 0, _ => none
  | n + 1, t =>
    match skip t with
    | [] => none
    | c :: r =>
      if c = 'n' then (keyword ['u', 'l', 'l'] r).map fun r => (.null, r)
      else if c = 't' then (keyword ['r', 'u', 'e'] r).map fun r => (.bool true, r)
      else if c = 'f' then (keyword ['a', 'l', 's', 'e'] r).map fun r => (.bool false, r)
      else if c = '"' then (readString n r).map fun p => (.str p.1, p.2)
      else if c = '[' then
        match expect ']' r with
        | some r => some (.arr [], r)
        | none => (readItems n r).map fun p => (.arr p.1, p.2)
      else if c = '\x7b' then
        match expect '\x7d' r with
        | some r => some (.obj [], r)
        | none => (readMembers n r).map fun p => (fromMembers p.1, p.2)
      else if c = '-' || isDigit c then readNumber fmt (c :: r)
      else none

def readItems : Nat → List Char → Option (List (Value ν) × List Char)
  | 0, _ => none
  | n + 1, t =>
    match readValue n t with
    | none => none
    | some (v, r) =>
      match expect ',' r with
      | some r => (readItems n r).map fun p => (v :: p.1, p.2)
      | none => (expect ']' r).map fun r => ([v], r)

def readMembers : Nat → List Char → Option (List (JsString × Value ν) × List Char)
  | 0, _ => none
  | n + 1, t =>
    match (expect '"' t).bind (readString n) with
    | none => none
    | some (k, r) =>
      match (expect ':' r).bind (readValue n) with
      | none => none
      | some (v, r) =>
        match expect ',' r with
        | some r => (readMembers n r).map fun p => ((k, v) :: p.1, p.2)
        | none => (expect '\x7d' r).map fun r => ([(k, v)], r)

end

/-- `JSON.parse`; `none` for the exception. -/
def parse (t : List Char) : Option (Value ν) :=
  match readValue fmt (t.length + 1) t with
  | none => none
  | some (v, r) => if skip r = [] then some v else none

end Parse

end Json
