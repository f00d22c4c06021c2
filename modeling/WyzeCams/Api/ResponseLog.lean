import WyzeCams.Lib.JsonRedact

/-! What `_performRequest`, `_handleRequestError` and `_logApiResponse` of `src/src/index.js` write
to the log, and what the log of a run tells of the requests and the responses. -/
namespace WyzeCams.ResponseLog
open Json Utf16
variable {ν : Type}

structure Response (ν : Type) where
  status : ν
  data : Value ν
  headers : Value ν

/-- How the call of `axios` ends: with a response, with an error that has a response, or with
another error. -/
inductive Outcome (ν : Type) where
  | ok (r : Response ν)
  | refused (r : Response ν)
  | unreachable (message : JsString)

/-- One `_performRequest`; `config` is the configuration that it has put together. -/
structure Exchange (ν : Type) where
  url : JsString
  config : Value ν
  outcome : Outcome ν

structure State where
  dumpData : Bool
  apiLogEnabled : Bool
  deriving DecidableEq, Repr

inductive Level where
  | info | error
  deriving DecidableEq, Repr

abbrev Line := Level × List Char

/-- `key.includes("token")`. -/
def isToken (k : JsString) : Bool := k.tails.any fun rest => (js "token").isPrefixOf rest

def mark : JsString := js "*******"

def described (url : JsString) (r : Response ν) : Value ν :=
  .obj [(js "url", .str url), (js "status", .num r.status), (js "data", r.data),
    (js "headers", r.headers)]

def performing : List Char := "Performing request: ".toList

def responded : List Char := "API response PerformRequest: ".toList

def failed : List Char := "Request Failed: ".toList

variable (fmt : NumberFormat ν)

def logApiResponse (s : State) (url : JsString) (r : Response ν) : State × List Line :=
  if s.dumpData then
    ({ s with dumpData := false },
      [(.info, responded ++ stringify fmt [] (redact isToken mark [] r.data))])
  else if s.apiLogEnabled then
    (s, [(.info, responded ++ stringify fmt [] (described url r))])
  else (s, [])

def handleRequestError (url : JsString) : Response ν ⊕ JsString → Line
  | .inl r => (.error, failed ++ stringify fmt [] (described url r))
  | .inr message =>
    (.error, failed ++ stringify fmt [] (.obj [(js "url", .str url), (js "message", .str message)]))

def asked (s : State) (config : Value ν) : List Line :=
  if s.apiLogEnabled then [(.info, performing ++ stringify fmt [] config)] else []

def performRequest (s : State) (x : Exchange ν) : State × List Line :=
  match x.outcome with
  | .ok r => ((logApiResponse fmt s x.url r).1, asked fmt s x.config ++
      (logApiResponse fmt s x.url r).2)
  | .refused r => (s, asked fmt s x.config ++ [handleRequestError fmt x.url (.inl r)])
  | .unreachable message =>
      (s, asked fmt s x.config ++ [handleRequestError fmt x.url (.inr message)])

/-- The two flags are fields that a user of the client can set. -/
inductive Event (ν : Type) where
  | setDumpData (b : Bool)
  | setApiLogEnabled (b : Bool)
  | exchange (x : Exchange ν)

def step (s : State) : Event ν → State × List Line
  | .setDumpData b => ({ s with dumpData := b }, [])
  | .setApiLogEnabled b => ({ s with apiLogEnabled := b }, [])
  | .exchange x => performRequest fmt s x

def log (s : State) : List (Event ν) → List Line
  | [] => []
  | e :: es => (step fmt s e).2 ++ log (step fmt s e).1 es

inductive SameKind : Outcome ν → Outcome ν → Prop
  | ok (r r' : Response ν) : SameKind (.ok r) (.ok r')
  | refused (r r' : Response ν) : SameKind (.refused r) (.refused r')
  | unreachable (m m' : JsString) : SameKind (.unreachable m) (.unreachable m')

/-- The runs set the flags alike, and their requests end in the same way. -/
inductive SameCourse : Event ν → Event ν → Prop
  | setDumpData (b : Bool) : SameCourse (.setDumpData b) (.setDumpData b)
  | setApiLogEnabled (b : Bool) : SameCourse (.setApiLogEnabled b) (.setApiLogEnabled b)
  | exchange {x y : Exchange ν} (h : SameKind x.outcome y.outcome) :
      SameCourse (.exchange x) (.exchange y)

/-- What the log cannot tell apart of two responses that have come. -/
def AlikeOk (s : State) (url url' : JsString) (r r' : Response ν) : Prop :=
  if s.dumpData then Agrees isToken [] r.data r'.data
  else s.apiLogEnabled = true → url = url' ∧ r = r'

def AlikeOutcome (s : State) (x y : Exchange ν) : Prop :=
  match x.outcome, y.outcome with
  | .ok r, .ok r' => AlikeOk s x.url y.url r r'
  | .refused r, .refused r' => x.url = y.url ∧ r = r'
  | .unreachable m, .unreachable m' => x.url = y.url ∧ m = m'
  | _, _ => False

/-- What the log cannot tell apart of two exchanges. -/
def AlikeExchange (s : State) (x y : Exchange ν) : Prop :=
  (s.apiLogEnabled = true → x.config = y.config) ∧ AlikeOutcome s x y

def AlikeRuns (s : State) : List (Event ν) → List (Event ν) → Prop
  | .setDumpData b :: as, _ :: bs => AlikeRuns { s with dumpData := b } as bs
  | .setApiLogEnabled b :: as, _ :: bs => AlikeRuns { s with apiLogEnabled := b } as bs
  | .exchange x :: as, .exchange y :: bs =>
    AlikeExchange s x y ∧ AlikeRuns (match x.outcome with
      | .ok _ => { s with dumpData := false }
      | _ => s) as bs
  | [], [] => True
  | _, _ => False

/-- Everything that is logged can be written. -/
def Outcome.Writable (fmt : NumberFormat ν) : Outcome ν → Prop
  | .ok r => fmt.Writes r.status ∧ Proper fmt r.data ∧ Proper fmt r.headers
  | .refused r => fmt.Writes r.status ∧ Proper fmt r.data ∧ Proper fmt r.headers
  | .unreachable _ => True

def Event.Writable (fmt : NumberFormat ν) : Event ν → Prop
  | .exchange x => Proper fmt x.config ∧ x.outcome.Writable fmt
  | _ => True

variable {fmt} {s : State} {url url' : JsString} {r r' : Response ν} {x y : Exchange ν}

theorem lines_eq_iff (level : Level) (lead : List Char) (t u : List Char) :
    [(level, lead ++ t)] = [(level, lead ++ u)] ↔ t = u := by
  simp

/-- Lines that are told apart by what stands before a fixed number of them, and by these. -/
theorem append_lines_iff {a b l m : List Line} (h : a.length = b.length) :
    a ++ l = b ++ m ↔ a = b ∧ l = m :=
  ⟨fun heq => List.append_inj heq h, fun ⟨ha, hl⟩ => by rw [ha, hl]⟩

theorem proper_described (url : JsString) (h : (Outcome.ok r).Writable fmt) :
    Proper fmt (described url r) := by
  have hkeys : [js "url", js "status", js "data", js "headers"].Nodup := by decide +kernel
  exact ⟨hkeys, trivial, h.1, h.2.1, h.2.2, trivial⟩

theorem described_iff (h : (Outcome.ok r).Writable fmt) (h' : (Outcome.ok r').Writable fmt) :
    stringify fmt [] (described url r) = stringify fmt [] (described url' r') ↔
      url = url' ∧ r = r' := by
  rw [stringify_inj (proper_described url h) (proper_described url' h')]
  constructor
  · intro heq
    simp only [described, Value.obj.injEq, List.cons.injEq, Prod.mk.injEq, Value.str.injEq,
      Value.num.injEq, true_and, and_true] at heq
    obtain ⟨hurl, hstatus, hdata, hheaders⟩ := heq
    exact ⟨hurl, by cases r; cases r'; simp_all⟩
  · rintro ⟨rfl, rfl⟩
    rfl

theorem message_iff (fmt : NumberFormat ν) (m m' : JsString) :
    stringify fmt [] (.obj [(js "url", .str url), (js "message", .str m)]) =
      stringify fmt [] (.obj [(js "url", .str url'), (js "message", .str m')]) ↔
        url = url' ∧ m = m' := by
  have hkeys : [js "url", js "message"].Nodup := by decide +kernel
  have hproper : ∀ url m, Proper fmt (.obj [(js "url", .str url), (js "message", .str m)]) :=
    fun _ _ => ⟨hkeys, trivial, trivial, trivial⟩
  rw [stringify_inj (hproper url m) (hproper url' m')]
  simp

theorem logApiResponse_state (fmt : NumberFormat ν) (s : State) (url : JsString) (r : Response ν) :
    (logApiResponse fmt s url r).1 = { s with dumpData := false } := by
  obtain ⟨dumpData, apiLogEnabled⟩ := s
  cases dumpData <;> cases apiLogEnabled <;> rfl

theorem logApiResponse_iff (h : (Outcome.ok r).Writable fmt) (h' : (Outcome.ok r').Writable fmt) :
    (logApiResponse fmt s url r).2 = (logApiResponse fmt s url' r').2 ↔
    AlikeOk s url url' r r' := by
  unfold logApiResponse AlikeOk
  by_cases hdump : s.dumpData = true
  · simp only [hdump, if_true]
    rw [lines_eq_iff, stringify_redact_iff h.2.1 h'.2.1]
  · by_cases hlog : s.apiLogEnabled = true
    · simp only [hdump, hlog, if_true, true_imp_iff]
      exact (lines_eq_iff ..).trans (described_iff h h')
    · simp [hdump, hlog]

theorem asked_iff {c c' : Value ν} (h : Proper fmt c) (h' : Proper fmt c') :
    asked fmt s c = asked fmt s c' ↔ (s.apiLogEnabled = true → c = c') := by
  unfold asked
  by_cases hlog : s.apiLogEnabled = true
  · simp only [hlog, if_true, true_imp_iff]
    rw [lines_eq_iff, stringify_inj h h']
  · simp [hlog]

theorem length_asked (c c' : Value ν) : (asked fmt s c).length = (asked fmt s c').length := by
  unfold asked
  split <;> rfl

theorem length_logApiResponse (fmt : NumberFormat ν) (s : State) (url url' : JsString)
    (r r' : Response ν) :
    (logApiResponse fmt s url r).2.length = (logApiResponse fmt s url' r').2.length := by
  unfold logApiResponse
  split
  · rfl
  · split <;> rfl

theorem performRequest_state (fmt : NumberFormat ν) (s : State) (x : Exchange ν) :
    (performRequest fmt s x).1 = match x.outcome with
      | .ok _ => { s with dumpData := false }
      | _ => s := by
  obtain ⟨url, config, outcome⟩ := x
  cases outcome with
  | ok r => exact logApiResponse_state fmt s url r
  | refused r => rfl
  | unreachable m => rfl

/-- Both runs are in the same state behind the exchange, and have logged as many lines. -/
theorem performRequest_course (fmt : NumberFormat ν) (s : State)
    (hkind : SameKind x.outcome y.outcome) :
    (performRequest fmt s x).1 = (performRequest fmt s y).1 ∧
      (performRequest fmt s x).2.length = (performRequest fmt s y).2.length := by
  obtain ⟨url, config, outcome⟩ := x
  obtain ⟨url', config', outcome'⟩ := y
  cases hkind with
  | ok r r' =>
    refine ⟨(logApiResponse_state ..).trans (logApiResponse_state ..).symm, ?_⟩
    simp only [performRequest, List.length_append]
    rw [length_asked config config', length_logApiResponse fmt s url url' r r']
  | refused r r' =>
    refine ⟨rfl, ?_⟩
    simp only [performRequest, List.length_append]
    rw [length_asked config config']
    rfl
  | unreachable m m' =>
    refine ⟨rfl, ?_⟩
    simp only [performRequest, List.length_append]
    rw [length_asked config config']
    rfl

theorem performRequest_iff (hkind : SameKind x.outcome y.outcome)
    (h : (Event.exchange x).Writable fmt) (h' : (Event.exchange y).Writable fmt) :
    (performRequest fmt s x).2 = (performRequest fmt s y).2 ↔ AlikeExchange s x y := by
  obtain ⟨url, config, outcome⟩ := x
  obtain ⟨url', config', outcome'⟩ := y
  cases hkind with
  | ok r r' =>
    rw [performRequest, performRequest, append_lines_iff (length_asked ..), asked_iff h.1 h'.1,
      logApiResponse_iff h.2 h'.2]
    rfl
  | refused r r' =>
    rw [performRequest, performRequest, append_lines_iff (length_asked ..), asked_iff h.1 h'.1,
      handleRequestError, handleRequestError, lines_eq_iff, described_iff h.2 h'.2]
    rfl
  | unreachable m m' =>
    rw [performRequest, performRequest, append_lines_iff (length_asked ..), asked_iff h.1 h'.1,
      handleRequestError, handleRequestError, lines_eq_iff, message_iff]
    rfl

/-- Two runs of the same course have the same log exactly when they agree on all that is logged in
the clear, and but for the values under token keys on the responses that are dumped. -/
theorem log_same_iff {as bs : List (Event ν)} (hcourse : List.Forall₂ SameCourse as bs)
    (has : ∀ e ∈ as, e.Writable fmt) (hbs : ∀ e ∈ bs, e.Writable fmt) (s : State) :
    log fmt s as = log fmt s bs ↔ AlikeRuns s as bs := by
  induction hcourse generalizing s with
  | nil => exact iff_of_true rfl trivial
  | @cons a b as bs hhead _ ih =>
    obtain ⟨ha, hrest⟩ := List.forall_mem_cons.mp has
    obtain ⟨hb, hrest'⟩ := List.forall_mem_cons.mp hbs
    cases hhead with
    | setDumpData b => exact ih hrest hrest' _
    | setApiLogEnabled b => exact ih hrest hrest' _
    | @exchange x y hkind =>
      obtain ⟨hstate, hlength⟩ := performRequest_course fmt s hkind
      rw [log, log, step, step, append_lines_iff hlength, ← hstate, ih hrest hrest',
        performRequest_state,
        performRequest_iff hkind ha hb]
      rfl

def okOnly : NumberFormat Unit := ⟨fun _ => "200".toList, fun _ => ()⟩

def login (token : JsString) : Exchange Unit where
  url := js "user/login"
  config := .null
  outcome := .ok ⟨(), .obj [(js "access_token", .str token), (js "mfa", .null)], .obj []⟩

theorem writable_login (token : JsString) : (Event.exchange (login token)).Writable okOnly := by
  have hkeys : [js "access_token", js "mfa"].Nodup := by decide +kernel
  have hstatus : okOnly.Writes () := ⟨by decide +kernel, rfl⟩
  exact ⟨trivial, hstatus, ⟨hkeys, trivial, trivial, trivial⟩, List.nodup_nil, trivial⟩

theorem log_same_iff_login :
    log okOnly ⟨true, false⟩ [.exchange (login (js "A"))] =
      log okOnly ⟨true, false⟩ [.exchange (login (js "B"))] := by
  have hcourse : List.Forall₂ SameCourse [Event.exchange (login (js "A"))]
    [.exchange (login (js "B"))] :=
    .cons (.exchange (.ok _ _)) .nil
  refine (log_same_iff hcourse (List.forall_mem_singleton.mpr (writable_login _))
    (List.forall_mem_singleton.mpr (writable_login _)) ⟨true, false⟩).mpr ⟨⟨nofun, ?_⟩, trivial⟩
  exact .obj [] (.cons (.secret (by decide +kernel) _ _) (.cons (.same _ _) .nil))

end WyzeCams.ResponseLog
