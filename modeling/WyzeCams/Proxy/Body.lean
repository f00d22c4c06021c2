import WyzeCams.Lib.JsonTorn

/-! `readJsonBody` of `cam-frontend/server.js` and of `eufy/server.js`: the body of a request that
arrives in chunks. -/
namespace WyzeCams.Body
open Utf16 Utf8 Json
variable {ν : Type}

inductive Outcome (ν : Type) where
  | resolved (v : Value ν)
  | rejected (message : String)

structure State (ν : Type) where
  body : List Char
  promise : Option (Outcome ν)

def init : State ν := ⟨[], none⟩

inductive Event where
  | data (chunk : Bytes)
  | ended
  | error (message : String)
  deriving DecidableEq, Repr

/-- The first outcome of a promise stays. -/
def settle (s : State ν) (outcome : Outcome ν) : State ν :=
  { s with promise := s.promise.or (some outcome) }

section Reader
variable (fmt : NumberFormat ν) (limit : Nat) (tooLarge invalid : String)

/-- `body += chunk` decodes the chunk by itself. -/
def onData (s : State ν) (chunk : Bytes) : State ν :=
  let s := { s with body := s.body ++ toText chunk }
  if (ofText s.body).length > limit then settle s (.rejected tooLarge) else s

def onEnd (s : State ν) : State ν :=
  if s.body = [] then settle s (.resolved (.obj []))
  else
    match parse fmt s.body with
    | some v => settle s (.resolved v)
    | none => settle s (.rejected invalid)

def step (s : State ν) : Event → State ν
  | .data chunk => onData limit tooLarge s chunk
  | .ended => onEnd fmt invalid s
  | .error message => settle s (.rejected message)

def readBody (events : List Event) : Option (Outcome ν) :=
  (events.foldl (step fmt limit tooLarge invalid) init).promise

end Reader

def CamFrontend.readJsonBody (fmt : NumberFormat ν) (events : List Event) : Option (Outcome ν) :=
  readBody fmt 1000000 "Body too large" "Invalid JSON body" events

def EufyServer.readJsonBody (fmt : NumberFormat ν) (events : List Event) : Option (Outcome ν) :=
  readBody fmt 1000000 "Body too large" "Invalid JSON body" events

def arrives (chunks : List Bytes) : List Event := chunks.map Event.data ++ [.ended]

def outcome (fmt : NumberFormat ν) (limit : Nat) (tooLarge invalid : String) (body : List Char) :
    Outcome ν :=
  if limit < (ofText body).length then .rejected tooLarge
  else if body = [] then .resolved (.obj [])
  else
    match parse fmt body with
    | some v => .resolved v
    | none => .rejected invalid

/-- When the chunks make no difference for the body `text`: they cut no character, or the body is
too large, or they leave it within the limit and it is not JSON, or all that they cut stands in
members that others of the same name replace. -/
inductive Harmless (fmt : NumberFormat ν) (limit : Nat) (chunks : List Bytes) (text : List Char) :
    Prop where
  | aligned (h : Aligned chunks)
  | large (h : limit < (ofText text).length)
  | invalid (hfits : (ofText (readChunks chunks)).length ≤ limit) (h : parse fmt text = none)
  | replaced (v w : Value ν) (hfits : (ofText (readChunks chunks)).length ≤ limit)
      (hv : parseAll fmt text = some v) (htwice : ¬ Distinct v)
      (hw : parseAll fmt (readChunks chunks) = some w) (hsame : Json.settle w = Json.settle v)

section Run
variable {fmt : NumberFormat ν} {limit : Nat} {tooLarge invalid : String}

theorem promise_settle (s : State ν) (o : Outcome ν) :
    (settle s o).promise = some (s.promise.getD o) := by
  rw [settle]
  cases s.promise <;> rfl

/-- So far the body is that of the chunks, and the promise is settled if it has grown too large. -/
structure Read (limit : Nat) (tooLarge : String) (s : State ν) (chunks : List Bytes) : Prop where
  body : s.body = readChunks chunks
  promise : s.promise =
    if limit < (ofText (readChunks chunks)).length then some (.rejected tooLarge) else none

theorem readChunks_concat (chunks : List Bytes) (chunk : Bytes) :
    readChunks (chunks ++ [chunk]) = readChunks chunks ++ toText chunk := by
  rw [readChunks, readChunks, List.flatMap_append, List.flatMap_singleton]

theorem Read.data {s : State ν} {chunks : List Bytes} (h : Read limit tooLarge s chunks)
    (chunk : Bytes) : Read limit tooLarge (onData limit tooLarge s chunk) (chunks ++ [chunk]) := by
  have hlen : (ofText (readChunks chunks ++ toText chunk)).length =
      (ofText (readChunks chunks)).length + (ofText (toText chunk)).length := by
    rw [ofText_append, List.length_append]
  have hpromise := h.promise
  rw [onData, h.body]
  dsimp only
  split_ifs with hlarge
  · refine ⟨(readChunks_concat chunks chunk).symm, ?_⟩
    rw [promise_settle, readChunks_concat, if_pos hlarge]
    dsimp only
    rw [hpromise]
    split_ifs <;> rfl
  · refine ⟨(readChunks_concat chunks chunk).symm, ?_⟩
    rw [readChunks_concat, if_neg hlarge]
    rw [if_neg (by omega)] at hpromise
    exact hpromise

theorem read_init : Read limit tooLarge (init : State ν) [] := ⟨rfl, rfl⟩

theorem Read.run {s : State ν} {before : List Bytes} (h : Read limit tooLarge s before)
    (chunks : List Bytes) :
    Read limit tooLarge ((chunks.map Event.data).foldl (step fmt limit tooLarge invalid) s)
      (before ++ chunks) := by
  induction chunks generalizing s before with
  | nil => rwa [List.append_nil]
  | cons chunk chunks ih =>
    have hrest := ih (h.data chunk)
    rw [List.append_assoc] at hrest
    exact hrest

theorem Read.promise_onEnd {s : State ν} {chunks : List Bytes} (h : Read limit tooLarge s chunks) :
    (onEnd fmt invalid s).promise =
      some (outcome fmt limit tooLarge invalid (readChunks chunks)) := by
  have hsettle : ∀ o, (settle s o).promise =
      if limit < (ofText (readChunks chunks)).length then some (.rejected tooLarge)
        else some o := by
    intro o
    rw [promise_settle, h.promise]
    split_ifs <;> rfl
  rw [onEnd, h.body, outcome]
  by_cases hempty : readChunks chunks = []
  · rw [if_pos hempty, if_pos hempty, hsettle]
    split_ifs <;> rfl
  · rw [if_neg hempty, if_neg hempty]
    cases parse fmt (readChunks chunks) with
    | some v =>
      dsimp only
      rw [hsettle]
      split_ifs <;> rfl
    | none =>
      dsimp only
      rw [hsettle]
      split_ifs <;> rfl

/-- The outcome depends on the text that the chunks give. -/
theorem readBody_arrives (chunks : List Bytes) :
    readBody fmt limit tooLarge invalid (arrives chunks) =
      some (outcome fmt limit tooLarge invalid (readChunks chunks)) := by
  have h : Read limit tooLarge
    ((chunks.map Event.data).foldl (step fmt limit tooLarge invalid) init)
      ([] ++ chunks) := read_init.run chunks
  rw [readBody, arrives, List.foldl_append]
  exact h.promise_onEnd

end Run

section Chunks
variable {fmt : NumberFormat ν} {limit : Nat} {tooLarge invalid : String}

theorem outcome_large {body : List Char} (h : limit < (ofText body).length) :
    outcome fmt limit tooLarge invalid body = .rejected tooLarge := if_pos h

theorem outcome_json {body : List Char} (hfits : (ofText body).length ≤ limit) (hne : body ≠ []) :
    outcome fmt limit tooLarge invalid body =
      match parse fmt body with
      | some v => .resolved v
      | none => .rejected invalid := by
  rw [outcome, if_neg (Nat.not_lt.mpr hfits), if_neg hne]

theorem outcome_ne_large (hmessages : tooLarge ≠ invalid) {body : List Char}
    (hfits : (ofText body).length ≤ limit) :
    outcome fmt limit tooLarge invalid body ≠ .rejected tooLarge := by
  rw [outcome, if_neg (Nat.not_lt.mpr hfits)]
  split_ifs
  · exact nofun
  · cases parse fmt body with
    | some v => exact nofun
    | none => exact fun h => hmessages (Outcome.rejected.inj h).symm

/-- Within the limit the outcomes are the same when the values are. -/
theorem outcome_eq_iff {torn : Bool} {t u : List Char} (h : Torn torn t u)
    (hu : (ofText u).length ≤ limit) :
    outcome fmt limit tooLarge invalid u = outcome fmt limit tooLarge invalid t ↔
      parse fmt u = parse fmt t := by
  have ht : (ofText t).length ≤ limit := Nat.le_trans (length_torn h).2.2 hu
  by_cases hempty : t = []
  · rw [(eq_nil_of_torn h).mp hempty, hempty]
    exact iff_of_true rfl rfl
  have hread : u ≠ [] := fun hnil => hempty ((eq_nil_of_torn h).mpr hnil)
  rw [outcome_json ht hempty, outcome_json hu hread]
  cases parse fmt u with
  | some v =>
    cases parse fmt t with
    | some w => exact ⟨fun h => congrArg some (Outcome.resolved.inj h), fun h => by cases h; rfl⟩
    | none => exact ⟨nofun, nofun⟩
  | none =>
    cases parse fmt t with
    | some w => exact ⟨nofun, nofun⟩
    | none => exact ⟨fun _ => rfl, fun _ => rfl⟩

theorem readChunks_singleton (text : List Char) : readChunks [encode text] = text := by
  rw [readChunks, List.flatMap_singleton, toText_encode]

theorem outcome_readChunks_iff (hmessages : tooLarge ≠ invalid) {chunks : List Bytes}
    {text : List Char} (h : chunks.flatten = encode text) :
    outcome fmt limit tooLarge invalid (readChunks chunks) =
        outcome fmt limit tooLarge invalid text ↔ Harmless fmt limit chunks text := by
  obtain ⟨torn, htorn, haligned⟩ := torn_readChunks h
  have hlen := (length_torn htorn).2.2
  constructor
  · intro hsame
    by_cases hlarge : limit < (ofText text).length
    · exact .large hlarge
    · rw [Nat.not_lt] at hlarge
      have hfits : (ofText (readChunks chunks)).length ≤ limit := by
        by_contra hover
        rw [Nat.not_le] at hover
        rw [outcome_large hover] at hsame
        exact outcome_ne_large hmessages hlarge hsame.symm
      have hparse := (outcome_eq_iff htorn hfits).mp hsame
      cases hv : parseAll fmt text with
      | none => exact .invalid hfits ((parse_none_iff text).mpr hv)
      | some v =>
        by_cases htwice : Distinct v
        · exact .aligned (haligned (not_torn_of_parse htorn hv htwice hparse))
        · rw [parse_eq, parse_eq, hv, Option.map_some] at hparse
          obtain ⟨w, hw, hsettle⟩ := Option.map_eq_some_iff.mp hparse
          exact .replaced v w hfits hv htwice hw hsettle
  · intro hharmless
    cases hharmless with
    | aligned hchunks => rw [readChunks_aligned h hchunks]
    | large hlarge =>
      rw [outcome_large hlarge, outcome_large (Nat.lt_of_lt_of_le hlarge hlen)]
    | invalid hfits hnone =>
      rw [outcome_eq_iff htorn hfits, hnone, (parse_none_of_torn htorn).mp hnone]
    | replaced v w hfits hv _ hw hsame =>
      rw [outcome_eq_iff htorn hfits, parse_eq, parse_eq, hv, hw, Option.map_some, Option.map_some,
        hsame]

end Chunks

/-- The chunks of a body in UTF-8 make no difference to either server exactly when they are
harmless. -/
theorem chunking_irrelevant_iff (fmt : NumberFormat ν) {chunks : List Bytes} {text : List Char}
    (h : chunks.flatten = encode text) :
    (CamFrontend.readJsonBody fmt (arrives chunks) =
        CamFrontend.readJsonBody fmt (arrives [encode text]) ↔
      Harmless fmt 1000000 chunks text) ∧
    (EufyServer.readJsonBody fmt (arrives chunks) =
        EufyServer.readJsonBody fmt (arrives [encode text]) ↔
      Harmless fmt 1000000 chunks text) := by
  have hboth : outcome fmt 1000000 "Body too large" "Invalid JSON body" (readChunks chunks) =
      outcome fmt 1000000 "Body too large" "Invalid JSON body" text ↔
        Harmless fmt 1000000 chunks text := outcome_readChunks_iff (by decide) h
  rw [CamFrontend.readJsonBody, CamFrontend.readJsonBody, EufyServer.readJsonBody,
    EufyServer.readJsonBody, readBody_arrives, readBody_arrives, readChunks_singleton,
    Option.some_inj]
  exact ⟨hboth, hboth⟩

def noNumbers : NumberFormat Unit := ⟨fun _ => [], fun _ => ()⟩

def twice : List Char :=
  ['\x7b', '"', 'a', '"', ':', '"', 'é', '"', ',', '"', 'a', '"', ':', 't', 'r', 'u', 'e', '\x7d']

def twiceChunks : List Bytes :=
  [[0x7B, 0x22, 0x61, 0x22, 0x3A, 0x22, 0xC3],
    [0xA9, 0x22, 0x2C, 0x22, 0x61, 0x22, 0x3A, 0x74, 0x72, 0x75, 0x65, 0x7D]]

theorem chunking_irrelevant_iff_twice :
    twiceChunks.flatten = encode twice ∧
      CamFrontend.readJsonBody noNumbers (arrives twiceChunks) =
        CamFrontend.readJsonBody noNumbers (arrives [encode twice]) := by
  have hflat : twiceChunks.flatten = encode twice := by decide +kernel
  have hread : readChunks twiceChunks =
      ['\x7b', '"', 'a', '"', ':', '"', REPLACEMENT, REPLACEMENT, '"', ',', '"', 'a', '"', ':', 't',
        'r', 'u', 'e', '\x7d'] := by decide +kernel
  refine ⟨hflat, (chunking_irrelevant_iff noNumbers hflat).1.mpr ?_⟩
  refine .replaced (.obj [([97], .str [233]), ([97], .bool true)])
    (.obj [([97], .str [0xFFFD, 0xFFFD]), ([97], .bool true)]) ?_ rfl ?_ ?_ rfl
  · rw [hread]
    decide +kernel
  · rintro ⟨hnodup, -⟩
    revert hnodup
    decide
  · rw [hread]
    rfl

def once : List Char := ['\x7b', '"', 'a', '"', ':', '"', 'é', '"', '\x7d']

def onceChunks : List Bytes :=
  [[0x7B, 0x22, 0x61, 0x22, 0x3A, 0x22, 0xC3], [0xA9, 0x22, 0x7D]]

/-- Each half of an `é` that arrives in two chunks is read as U+FFFD. -/
theorem cut_character_replaced :
    onceChunks.flatten = encode once ∧
      CamFrontend.readJsonBody noNumbers (arrives onceChunks) =
        some (.resolved (.obj [([97], .str [0xFFFD, 0xFFFD])])) ∧
      CamFrontend.readJsonBody noNumbers (arrives [encode once]) =
        some (.resolved (.obj [([97], .str [233])])) ∧
      ¬ (CamFrontend.readJsonBody noNumbers (arrives onceChunks) =
          CamFrontend.readJsonBody noNumbers (arrives [encode once])) ∧
      ¬ (EufyServer.readJsonBody noNumbers (arrives onceChunks) =
          EufyServer.readJsonBody noNumbers (arrives [encode once])) := by
  have hread : readChunks onceChunks =
      ['\x7b', '"', 'a', '"', ':', '"', REPLACEMENT, REPLACEMENT, '"', '\x7d'] := by decide +kernel
  have hcut : readBody noNumbers 1000000 "Body too large" "Invalid JSON body" (arrives onceChunks) =
      some (.resolved (.obj [([97], .str [0xFFFD, 0xFFFD])])) := by
    rw [readBody_arrives, hread, outcome_json (by decide +kernel) (by decide)]
    rfl
  have hwhole : readBody noNumbers 1000000 "Body too large" "Invalid JSON body"
      (arrives [encode once]) = some (.resolved (.obj [([97], .str [233])])) := by
    rw [readBody_arrives, readChunks_singleton, outcome_json (by decide +kernel) (by decide)]
    rfl
  have hne : ¬ (readBody noNumbers 1000000 "Body too large" "Invalid JSON body"
      (arrives onceChunks) = readBody noNumbers 1000000 "Body too large" "Invalid JSON body"
        (arrives [encode once])) := by
    rw [hcut, hwhole]
    simp
  exact ⟨by decide +kernel, hcut, hwhole, hne, hne⟩

end WyzeCams.Body
