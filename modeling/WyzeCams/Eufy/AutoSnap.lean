import WyzeCams.Lib.Json
import WyzeCams.Lib.Machine
import WyzeCams.Lib.PropertyOrder
import WyzeCams.Lib.Timers

/-! The auto-snapshot scheduler of `eufy/server.js`: the schedule, its timers and its file. -/
namespace WyzeCams.AutoSnap
open EventMachine Json OrderedMap PropertyOrder Timer Utf16
open Double (JsNumber)

structure Interval where
  sn : JsString
  ms : ℚ
  deriving DecidableEq, Repr

/-- `file` is the text at `autoSnapConfigPath`, `writes` are the calls of `fs.writeFile` that have
not completed, with what they write. -/
structure State where
  autoSnapMinutes : Entries JsString ℚ
  autoSnapTimers : Entries JsString Nat
  intervals : Timers Interval
  shutdown : Bool
  file : Option (List Char)
  writes : Timers (List Char)
  deriving DecidableEq, Repr

/-- `Object.entries(raw || {})`. -/
def objectEntries : Value JsNumber → List (JsString × Value JsNumber)
  | .obj ms => ownProperties ms
  | .arr vs => vs.mapIdx fun i v => (ofText (toString i).toList, v)
  | .str s => s.mapIdx fun i u => (ofText (toString i).toList, .str [u])
  | _ => []

section Load
variable (fmt : NumberFormat JsNumber) (number : Value JsNumber → Option JsNumber)

/-- `Number(v)`, `none` where it throws; what it makes of a value that is no number is a
parameter. -/
def toNumber : Value JsNumber → Option JsNumber
  | .num x => some x
  | v => number v

/-- The loop of `loadAutoSnapConfig`, which an exception ends. -/
def loadEntries (m : Entries JsString ℚ) : List (JsString × Value JsNumber) → Entries JsString ℚ
  | [] => m
  | (sn, minutes) :: es =>
    match toNumber number minutes with
    | none => m
    | some .notFinite => loadEntries m es
    | some (.finite q) => loadEntries (if 1 ≤ q then set m sn q else m) es

/-- `loadAutoSnapConfig` at start-up; `none` for a file that is missing or cannot be read. -/
def loadAutoSnapConfig (file : Option (List Char)) : Entries JsString ℚ :=
  match file.bind (parse fmt) with
  | none => []
  | some raw => loadEntries number [] (objectEntries raw)

def init (file : Option (List Char)) : State :=
  ⟨loadAutoSnapConfig fmt number file, [], [], false, file, []⟩

end Load

/-- What `persistAutoSnapConfig` writes. -/
def configText (fmt : NumberFormat JsNumber) (m : Entries JsString ℚ) : List Char :=
  stringify fmt [' ', ' '] (.obj (ownProperties (m.map fun e => (e.1, .num (.finite e.2)))))

def persistAutoSnapConfig (fmt : NumberFormat JsNumber) (s : State) : State :=
  { s with writes := Timer.set s.writes (configText fmt s.autoSnapMinutes) }

def clearAutoSnapTimer (s : State) (sn : JsString) : State :=
  { s with
    intervals := clearHandle s.intervals (get s.autoSnapTimers sn)
    autoSnapTimers := delete s.autoSnapTimers sn }

def scheduleAutoSnap (s : State) (sn : JsString) : State :=
  let s := clearAutoSnapTimer s sn
  match get s.autoSnapMinutes sn with
  | none => s
  | some minutes =>
    if minutes = 0 then s
    else
      let intervalMs := ((JsNumber.finite minutes).mul (.finite 60)).mul (.finite 1000)
      { s with
        intervals := Timer.set s.intervals ⟨sn, delay intervalMs⟩
        autoSnapTimers := OrderedMap.set s.autoSnapTimers sn s.intervals.length }

inductive Minutes where
  | null
  | num (q : ℚ)
  | other
  deriving DecidableEq, Repr

def ALLOWED_AUTOSNAP_MINUTES : List ℚ := [1, 5, 15, 30, 60]

def notAllowed : String := "Interval must be one of: 1, 5, 15, 30, 60 (or 0 to disable)"

/-- The state that `setAutoSnap` leaves, and the message it throws. -/
def setAutoSnap (fmt : NumberFormat JsNumber) (s : State) (sn : JsString) (minutes : Minutes) :
    State × Option String :=
  if minutes = .num 0 ∨ minutes = .null then
    let s := { s with autoSnapMinutes := delete s.autoSnapMinutes sn }
    (persistAutoSnapConfig fmt (clearAutoSnapTimer s sn), none)
  else
    match minutes with
    | .num q =>
      if q ∈ ALLOWED_AUTOSNAP_MINUTES then
        let s := { s with autoSnapMinutes := OrderedMap.set s.autoSnapMinutes sn q }
        (persistAutoSnapConfig fmt (scheduleAutoSnap s sn), none)
      else (s, some notAllowed)
    | _ => (s, some notAllowed)

def startAllAutoSnapTimers (s : State) : State :=
  (keys s.autoSnapMinutes).foldl scheduleAutoSnap s

/-- What the `SIGINT` handler does before its first await. -/
def onSigint (s : State) : State :=
  let s := { s with shutdown := true }
  (keys s.autoSnapTimers).foldl clearAutoSnapTimer s

inductive Event where
  | setAutoSnap (sn : JsString) (minutes : Minutes)
  | connect
  | sigint
  | written (k : Nat) (ok : Bool)
  deriving DecidableEq, Repr

/-- A write replaces the whole file, or fails and leaves it. -/
def step (fmt : NumberFormat JsNumber) (s : State) : Event → Option State
  | .setAutoSnap sn minutes => some (setAutoSnap fmt s sn minutes).1
  | .connect => some (startAllAutoSnapTimers s)
  | .sigint => some (onSigint s)
  | .written k ok =>
    match s.writes[k]? with
    | some (some text) =>
      some { s with writes := clear s.writes k, file := if ok then some text else s.file }
    | _ => none

end WyzeCams.AutoSnap
