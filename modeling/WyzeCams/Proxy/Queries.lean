import WyzeCams.Lib.UrlQuery
import WyzeCams.Proxy.Routes

/-! The parameters of the requests that the dashboard makes of `cam-frontend/server.js`, and the
serial that the proxy of the video socket hands on to `eufy/server.js`. A URL is given by what
follows the first slash of its path. -/
namespace WyzeCams.Queries
open Router Uri UrlPath UrlQuery Routes

/-- What a client asks a server for: the path as it has parsed it, and the query if there is one. -/
def requested (url : List Char) : List Char :=
  (pathname (segments url)).tail ++ if query url = [] then [] else '?' :: query url

def given (url name : List Char) : Option (List Char) :=
  (get (searchParams (query url)) name).filter fun v => v ≠ []

-- `cam-frontend/server.js`.

/-- What the server does for a request with parameters; `since` is text that `Number` reads, and
`secure` says whether the thumbnail is got with `https`. -/
inductive Reply where
  | error (status : Nat) (text : String)
  | streamParams (mac productModel : List Char) (substream : Bool)
  | snapshot (mac : List Char)
  | thumbnail (url : List Char) (secure : Bool)
  | events (since mac : Option (List Char))
  deriving DecidableEq

def streamParams (url : List Char) : Reply :=
  match given url "mac".toList, given url "productModel".toList with
  | some mac, some productModel =>
    .streamParams mac productModel
      (get (searchParams (query url)) "substream".toList = some "true".toList)
  | _, _ => .error 400 "Missing mac or productModel"

def snapshot (url : List Char) : Reply :=
  match given url "mac".toList with
  | some mac => .snapshot mac
  | none => .error 400 "Missing mac"

def thumbnail (url : List Char) : Reply :=
  match given url "url".toList with
  | some thumbUrl => .thumbnail thumbUrl ("https".toList.isPrefixOf thumbUrl)
  | none => .error 400 "Missing url"

def events (url : List Char) : Reply := .events (given url "since".toList) (given url "mac".toList)

def reply (method : String) (url : List Char) : Option Reply :=
  match dispatch routes method (segments url) with
  | some (.streamParams, _) => some (streamParams url)
  | some (.snapshot, _) => some (snapshot url)
  | some (.thumbnail, _) => some (thumbnail url)
  | some (.events, _) => some (events url)
  | _ => none

/-- The `upgrade` handler: the serial for which a socket to `eufy/server.js` is opened; `none` where
the socket is destroyed. -/
def upgrade (url : List Char) : Option (List Char) :=
  if pathname (segments url) = "/eufy-stream".toList then given url "sn".toList else none

def target (sn : List Char) : List Char := "stream?sn=".toList ++ encodeURIComponent sn

-- `eufy/server.js`.

/-- `StreamSession.start`. -/
def streamParamsUrl (mac productModel : List Char) (useSubstream : Bool) : List Char :=
  "api/stream-params?mac=".toList ++ encodeURIComponent mac ++ "&productModel=".toList ++
    encodeURIComponent productModel ++ "&substream=".toList ++
    (if useSubstream then "true" else "false").toList

/-- `StreamSession.refreshSnapshot`. -/
def refreshSnapshotUrl (mac : List Char) (now : Nat) : List Char :=
  "api/snapshot?mac=".toList ++ encodeURIComponent mac ++ "&ts=".toList ++ Nat.toDigits 10 now

def thumbProxy (url : List Char) : List Char :=
  "api/thumbnail?url=".toList ++ encodeURIComponent url

/-- `pollEvents`. -/
def pollEventsUrl (eventsSince : Nat) : List Char :=
  "api/events?since=".toList ++ Nat.toDigits 10 eventsSince

/-- `EufyStreamSession.start`. -/
def eufyStreamUrl (sn : List Char) : List Char := "eufy-stream?sn=".toList ++ encodeURIComponent sn

variable {url path q : List Char} {ps : List (List Char × List Char)} {method : String}

theorem query_requested (hpath : ∀ c ∈ path, isEncoded c = false) (hps : ps ≠ []) :
    requested (path ++ '?' :: write ps) =
      (pathname (segments path)).tail ++ '?' :: encodeQuery (write ps) := by
  have hquery : query (path ++ '?' :: write ps) = encodeQuery (write ps) :=
    query_append hpath (write_kept ps)
  have hsegments : segments (path ++ '?' :: write ps) = segments path :=
    segments_append hpath (.inr ⟨'?', _, rfl, by decide⟩)
  rw [requested, hquery, hsegments, if_neg (encodeQuery_ne_nil.mpr (write_ne_nil hps))]

/-- A URL of a plain path and written parameters. -/
theorem requested_write (hpath : ∀ c ∈ path, isEncoded c = false) (hps : ps ≠ []) :
    segments (requested (path ++ '?' :: write ps)) = segments path ∧
      searchParams (query (requested (path ++ '?' :: write ps))) = ps := by
  have hnormal := segments_normal path
  rw [query_requested hpath hps]
  constructor
  · exact segments_tail hnormal (.inr ⟨'?', _, rfl, by decide⟩)
  · rw [query_append (not_isEncoded_tail hnormal) fun c hc =>
        of_not_isQueryEncoded (not_isQueryEncoded_of_mem c hc),
      searchParams_encodeQuery, searchParams_encodeQuery, searchParams_write hps]

/-- A parameter of the page is given unless it is empty. -/
theorem given_requested (hurl : url = path ++ '?' :: write ps)
    (hpath : ∀ c ∈ path, isEncoded c = false)
    {name v : List Char} (hget : get ps name = some v) :
    given (requested url) name = if v = [] then none else some v := by
  have hps : ps ≠ [] := by
    rintro rfl
    exact absurd hget (Option.some_ne_none v).symm
  rw [hurl, given, (requested_write hpath hps).2, hget, Option.filter_some]
  by_cases hv : v = [] <;> simp [hv]

/-- A text that `encodeURIComponent` leaves as it is. -/
theorem encodeURIComponent_of_unreserved {t : List Char} (h : ∀ c ∈ t, isUnreserved c = true) :
    encodeURIComponent t = t := by
  induction t with
  | nil => rfl
  | cons c t ih =>
    obtain ⟨hc, ht⟩ := List.forall_mem_cons.mp h
    rw [encodeURIComponent, List.flatMap_cons, if_pos hc, ← encodeURIComponent, ih ht]
    rfl

theorem encodeURIComponent_toDigits (n : Nat) :
    encodeURIComponent (Nat.toDigits 10 n) = Nat.toDigits 10 n := by
  refine encodeURIComponent_of_unreserved fun c hc => ?_
  have hdigit := Nat.isDigit_of_mem_toDigits (by decide) (by decide) hc
  have hrange : '0' ≤ c ∧ c ≤ '9' := by
    rw [Char.isDigit, Bool.and_eq_true, decide_eq_true_eq, decide_eq_true_eq] at hdigit
    exact hdigit
  simp [isUnreserved, isAlphanumeric, hrange]

section Urls
variable {path l₁ l₂ l₃ n₁ n₂ n₃ t₁ t₂ t₃ v₁ v₂ v₃ : List Char}

theorem url_of_one (h₁ : l₁ = path ++ '?' :: (encodeURIComponent n₁ ++ ['=']))
    (ht₁ : t₁ = encodeURIComponent v₁) : l₁ ++ t₁ = path ++ '?' :: write [(n₁, v₁)] := by
  rw [h₁, ht₁, write_singleton, writePair]
  simp only [List.append_assoc, List.cons_append, List.nil_append]

theorem url_of_two (h₁ : l₁ = path ++ '?' :: (encodeURIComponent n₁ ++ ['=']))
    (ht₁ : t₁ = encodeURIComponent v₁) (h₂ : l₂ = '&' :: (encodeURIComponent n₂ ++ ['=']))
    (ht₂ : t₂ = encodeURIComponent v₂) :
    l₁ ++ t₁ ++ l₂ ++ t₂ = path ++ '?' :: write [(n₁, v₁), (n₂, v₂)] := by
  rw [url_of_one h₁ ht₁, h₂, ht₂, write_cons (List.cons_ne_nil _ _), write_singleton,
    write_singleton,
    writePair, writePair]
  simp only [List.append_assoc, List.cons_append, List.nil_append]

theorem url_of_three (h₁ : l₁ = path ++ '?' :: (encodeURIComponent n₁ ++ ['=']))
    (ht₁ : t₁ = encodeURIComponent v₁) (h₂ : l₂ = '&' :: (encodeURIComponent n₂ ++ ['=']))
    (ht₂ : t₂ = encodeURIComponent v₂) (h₃ : l₃ = '&' :: (encodeURIComponent n₃ ++ ['=']))
    (ht₃ : t₃ = encodeURIComponent v₃) : l₁ ++ t₁ ++ l₂ ++ t₂ ++ l₃ ++ t₃ =
      path ++ '?' :: write [(n₁, v₁), (n₂, v₂), (n₃, v₃)] := by
  rw [url_of_two h₁ ht₁ h₂ ht₂, h₃, ht₃, write_cons (List.cons_ne_nil _ _),
    write_cons (List.cons_ne_nil _ _), write_cons (List.cons_ne_nil _ _), write_singleton,
    write_singleton, writePair, writePair, writePair]
  simp only [List.append_assoc, List.cons_append, List.nil_append]

end Urls

theorem thumbProxy_eq (url : List Char) :
    thumbProxy url = "api/thumbnail".toList ++ '?' :: write [("url".toList, url)] :=
  url_of_one (by decide) rfl

theorem eufyStreamUrl_eq (sn : List Char) :
    eufyStreamUrl sn = "eufy-stream".toList ++ '?' :: write [("sn".toList, sn)] :=
  url_of_one (by decide) rfl

theorem pollEventsUrl_eq (eventsSince : Nat) :
    pollEventsUrl eventsSince =
      "api/events".toList ++ '?' :: write [("since".toList, Nat.toDigits 10 eventsSince)] :=
  url_of_one (by decide) (encodeURIComponent_toDigits eventsSince).symm

theorem refreshSnapshotUrl_eq (mac : List Char) (now : Nat) :
    refreshSnapshotUrl mac now = "api/snapshot".toList ++ '?' ::
      write [("mac".toList, mac), ("ts".toList, Nat.toDigits 10 now)] :=
  url_of_two (by decide) rfl (by decide) (encodeURIComponent_toDigits now).symm

theorem streamParamsUrl_eq (mac productModel : List Char) (useSubstream : Bool) :
    streamParamsUrl mac productModel useSubstream = "api/stream-params".toList ++ '?' ::
      write [("mac".toList, mac), ("productModel".toList, productModel),
        ("substream".toList, (if useSubstream then "true" else "false").toList)] := by
  have hbool : (if useSubstream then "true" else "false").toList =
      encodeURIComponent (if useSubstream then "true" else "false").toList := by
    cases useSubstream <;> decide
  exact url_of_three (by decide) rfl (by decide) rfl (by decide) hbool

theorem not_isEncoded_of_all (h : path.all (fun c => !isEncoded c) = true) :
    ∀ c ∈ path, isEncoded c = false :=
  fun c hc => (Bool.not_eq_true' _).mp (List.all_eq_true.mp h c hc)

/-- A URL of the page comes to the route that its path has. -/
theorem dispatch_requested (hurl : url = path ++ '?' :: write ps)
    (hpath : ∀ c ∈ path, isEncoded c = false) (hps : ps ≠ []) :
    dispatch routes method (segments (requested url)) = dispatch routes method (segments path) := by
  rw [hurl, (requested_write hpath hps).1]

theorem reply_streamParams (mac productModel : List Char) (useSubstream : Bool) :
    reply "GET" (requested (streamParamsUrl mac productModel useSubstream)) =
      some (if mac = [] ∨ productModel = [] then .error 400 "Missing mac or productModel"
        else .streamParams mac productModel useSubstream) := by
  have hpath : ∀ c ∈ "api/stream-params".toList, isEncoded c = false :=
    not_isEncoded_of_all (by decide)
  have hroute : dispatch routes "GET" (segments "api/stream-params".toList) =
      some (.streamParams, []) := by decide
  have hdispatch : dispatch routes "GET"
      (segments (requested (streamParamsUrl mac productModel useSubstream))) =
      some (.streamParams, []) := by
    rw [dispatch_requested (streamParamsUrl_eq mac productModel useSubstream) hpath
      (List.cons_ne_nil _ _)]
    exact hroute
  have hmac : given (requested (streamParamsUrl mac productModel useSubstream)) "mac".toList =
      if mac = [] then none else some mac :=
    given_requested (streamParamsUrl_eq mac productModel useSubstream) hpath rfl
  have hmodel : given (requested (streamParamsUrl mac productModel useSubstream))
      "productModel".toList = if productModel = [] then none else some productModel :=
    given_requested (streamParamsUrl_eq mac productModel useSubstream) hpath rfl
  have hsubstream : decide (get (searchParams (query (requested
      (streamParamsUrl mac productModel useSubstream)))) "substream".toList = some "true".toList) =
      useSubstream := by
    rw [streamParamsUrl_eq, (requested_write hpath (List.cons_ne_nil _ _)).2]
    cases useSubstream <;> rfl
  rw [reply, hdispatch]
  dsimp only
  rw [streamParams, hmac, hmodel, hsubstream]
  by_cases h : mac = []
  · have hor : mac = [] ∨ productModel = [] := .inl h
    rw [if_pos h, if_pos hor]
  · by_cases h' : productModel = []
    · have hor : mac = [] ∨ productModel = [] := .inr h'
      rw [if_neg h, if_pos h', if_pos hor]
    · rw [if_neg h, if_neg h', if_neg (not_or.mpr ⟨h, h'⟩)]

theorem reply_snapshot (mac : List Char) (now : Nat) :
    reply "GET" (requested (refreshSnapshotUrl mac now)) =
      some (if mac = [] then .error 400 "Missing mac" else .snapshot mac) := by
  have hpath : ∀ c ∈ "api/snapshot".toList, isEncoded c = false := not_isEncoded_of_all (by decide)
  have hroute : dispatch routes "GET" (segments "api/snapshot".toList) = some (.snapshot, []) := by
    decide
  have hdispatch : dispatch routes "GET" (segments (requested (refreshSnapshotUrl mac now))) =
      some (.snapshot, []) := by
    rw [dispatch_requested (refreshSnapshotUrl_eq mac now) hpath (List.cons_ne_nil _ _)]
    exact hroute
  have hmac : given (requested (refreshSnapshotUrl mac now)) "mac".toList =
      if mac = [] then none else some mac :=
    given_requested (refreshSnapshotUrl_eq mac now) hpath rfl
  rw [reply, hdispatch]
  dsimp only
  rw [snapshot, hmac]
  split_ifs <;> rfl

theorem reply_thumbnail (url : List Char) :
    reply "GET" (requested (thumbProxy url)) =
      some (if url = [] then .error 400 "Missing url"
        else .thumbnail url ("https".toList.isPrefixOf url)) := by
  have hpath : ∀ c ∈ "api/thumbnail".toList, isEncoded c = false := not_isEncoded_of_all (by decide)
  have hroute : dispatch routes "GET" (segments "api/thumbnail".toList) =
    some (.thumbnail, []) := by
    decide
  have hdispatch : dispatch routes "GET" (segments (requested (thumbProxy url))) =
      some (.thumbnail, []) := by
    rw [dispatch_requested (thumbProxy_eq url) hpath (List.cons_ne_nil _ _)]
    exact hroute
  have hurl : given (requested (thumbProxy url)) "url".toList = if url = [] then none
    else some url :=
    given_requested (thumbProxy_eq url) hpath rfl
  rw [reply, hdispatch]
  dsimp only
  rw [thumbnail, hurl]
  split_ifs <;> rfl

theorem reply_events (eventsSince : Nat) :
    reply "GET" (requested (pollEventsUrl eventsSince)) =
      some (.events (some (Nat.toDigits 10 eventsSince)) none) := by
  have hpath : ∀ c ∈ "api/events".toList, isEncoded c = false := not_isEncoded_of_all (by decide)
  have hroute : dispatch routes "GET" (segments "api/events".toList) =
    some (.events, []) := by decide
  have hdispatch : dispatch routes "GET" (segments (requested (pollEventsUrl eventsSince))) =
      some (.events, []) := by
    rw [dispatch_requested (pollEventsUrl_eq eventsSince) hpath (List.cons_ne_nil _ _)]
    exact hroute
  have hsince : given (requested (pollEventsUrl eventsSince)) "since".toList =
      some (Nat.toDigits 10 eventsSince) :=
    (given_requested (pollEventsUrl_eq eventsSince) hpath rfl).trans (if_neg Nat.toDigits_ne_nil)
  have hmac : given (requested (pollEventsUrl eventsSince)) "mac".toList = none := by
    rw [pollEventsUrl_eq, given, (requested_write hpath (List.cons_ne_nil _ _)).2]
    rfl
  rw [reply, hdispatch]
  dsimp only
  rw [events, hsince, hmac]

theorem upgrade_requested (sn : List Char) :
    upgrade (requested (eufyStreamUrl sn)) = if sn = [] then none else some sn := by
  have hpath : ∀ c ∈ "eufy-stream".toList, isEncoded c = false := not_isEncoded_of_all (by decide)
  have hroute : pathname (segments "eufy-stream".toList) = "/eufy-stream".toList := by decide
  have hsn : given (requested (eufyStreamUrl sn)) "sn".toList = if sn = [] then none else some sn :=
    given_requested (eufyStreamUrl_eq sn) hpath rfl
  rw [upgrade, hsn, eufyStreamUrl_eq, (requested_write hpath (List.cons_ne_nil _ _)).1,
    if_pos hroute]

/-- Whatever characters they are made of, the parameters that the page writes into the URLs of its
requests arrive as they are; a request without one that is needed is refused. -/
theorem parameters_arrive (mac productModel url sn : List Char) (useSubstream : Bool) (now : Nat) :
    reply "GET" (requested (streamParamsUrl mac productModel useSubstream)) =
        some (if mac = [] ∨ productModel = [] then .error 400 "Missing mac or productModel"
          else .streamParams mac productModel useSubstream) ∧
      reply "GET" (requested (refreshSnapshotUrl mac now)) =
        some (if mac = [] then .error 400 "Missing mac" else .snapshot mac) ∧
      reply "GET" (requested (thumbProxy url)) =
        some (if url = [] then .error 400 "Missing url"
          else .thumbnail url ("https".toList.isPrefixOf url)) ∧
      reply "GET" (requested (pollEventsUrl now)) =
        some (.events (some (Nat.toDigits 10 now)) none) ∧
      upgrade (requested (eufyStreamUrl sn)) = if sn = [] then none else some sn :=
  ⟨reply_streamParams mac productModel useSubstream, reply_snapshot mac now, reply_thumbnail url,
    reply_events now, upgrade_requested sn⟩

end WyzeCams.Queries
