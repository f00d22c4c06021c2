import WyzeCams.Lib.Router
import WyzeCams.Lib.UrlPath

/-! The routes of `cam-frontend/server.js` and of `eufy/server.js`, the requests that the first
forwards to the second with `proxyToEufy`, and those that the dashboard makes for a camera. A
`pathname` is given by its segments. -/
namespace WyzeCams.Routes
open Router Uri UrlPath

inductive EufyHandler where
  | page
  | health
  | events
  | authStatus
  | authSubmit
  | debugDevices
  | cameras
  | snapshot
  | refresh
  | autosnap
  | setAutosnap
  deriving DecidableEq

def eufyRoutes : List (Row EufyHandler) := [
  ⟨"GET", [.text ""], .page⟩,
  ⟨"GET", [.text "api", .text "health"], .health⟩,
  ⟨"GET", [.text "api", .text "events"], .events⟩,
  ⟨"GET", [.text "api", .text "auth", .text "status"], .authStatus⟩,
  ⟨"POST", [.text "api", .text "auth", .text "submit"], .authSubmit⟩,
  ⟨"GET", [.text "api", .text "debug", .text "devices"], .debugDevices⟩,
  ⟨"GET", [.text "api", .text "cameras"], .cameras⟩,
  ⟨"GET", [.text "api", .text "snapshot", .segment], .snapshot⟩,
  ⟨"POST", [.text "api", .text "snapshot", .segment, .text "refresh"], .refresh⟩,
  ⟨"GET", [.text "api", .text "autosnap"], .autosnap⟩,
  ⟨"POST", [.text "api", .text "autosnap", .segment], .setAutosnap⟩]

/-- What `cam-frontend/server.js` answers a request with; `forward` has the path that `proxyToEufy`
is given. -/
inductive Handler where
  | page
  | forward (path : List Piece)
  | cameras
  | streamParams
  | snapshot
  | thumbnail
  | events
  | health
  | config
  | debugDevices
  | control
  deriving DecidableEq

def eufyProxy : List (Row Handler) := [
  ⟨"GET", [.text "api", .text "eufy", .text "cameras"], .forward [.text "api", .text "cameras"]⟩,
  ⟨"GET", [.text "api", .text "eufy", .text "auth", .text "status"],
    .forward [.text "api", .text "auth", .text "status"]⟩,
  ⟨"POST", [.text "api", .text "eufy", .text "auth", .text "submit"],
    .forward [.text "api", .text "auth", .text "submit"]⟩,
  ⟨"GET", [.text "api", .text "eufy", .text "events"], .forward [.text "api", .text "events"]⟩,
  ⟨"GET", [.text "api", .text "eufy", .text "autosnap"], .forward [.text "api", .text "autosnap"]⟩]

def routes : List (Row Handler) :=
  ⟨"GET", [.text ""], .page⟩ :: eufyProxy ++ [
  ⟨"GET", [.text "api", .text "eufy", .text "snapshot", .segment],
    .forward [.text "api", .text "snapshot", .segment]⟩,
  ⟨"POST", [.text "api", .text "eufy", .text "snapshot", .segment, .text "refresh"],
    .forward [.text "api", .text "snapshot", .segment, .text "refresh"]⟩,
  ⟨"POST", [.text "api", .text "eufy", .text "autosnap", .segment],
    .forward [.text "api", .text "autosnap", .segment]⟩,
  ⟨"GET", [.text "api", .text "cameras"], .cameras⟩,
  ⟨"GET", [.text "api", .text "stream-params"], .streamParams⟩,
  ⟨"GET", [.text "api", .text "snapshot"], .snapshot⟩,
  ⟨"GET", [.text "api", .text "thumbnail"], .thumbnail⟩,
  ⟨"GET", [.text "api", .text "events"], .events⟩,
  ⟨"GET", [.text "api", .text "health"], .health⟩,
  ⟨"GET", [.text "api", .text "config"], .config⟩,
  ⟨"GET", [.text "api", .text "debug", .text "devices"], .debugDevices⟩,
  ⟨"POST", [.text "api", .text "camera", .text "control"], .control⟩]

/-- The path that `proxyToEufy` asks `eufy/server.js` for, for a request with this path. -/
def proxyToEufy (method : String) (path : List (List Char)) : Option (List Char) :=
  match dispatch routes method path with
  | some (.forward pieces, captured) => some (pathname (fill pieces captured))
  | _ => none

/-- How `eufy/server.js` takes a request for a path; it parses what follows the first slash. -/
def eufyAnswer (method : String) (p : List Char) : Option (EufyHandler × List (List Char)) :=
  dispatch eufyRoutes method (segments p.tail)

/-- The routes that the dashboard is to have under `/api/eufy`: all but the page and the ones for
debugging. -/
def EufyHandler.mirrored : EufyHandler → Bool
  | .page | .health | .debugDevices => false
  | _ => true

def proxied (row : Row EufyHandler) : Row Handler :=
  ⟨row.method, .text "api" :: .text "eufy" :: row.pieces.tail, .forward row.pieces⟩

def Handler.isForward : Handler → Bool
  | .forward _ => true
  | _ => false

theorem routes_apart : routes.Pairwise Row.Apart := by decide

theorem eufyRoutes_apart : eufyRoutes.Pairwise Row.Apart := by decide

theorem proxied_of_isForward :
    ∀ row ∈ routes, row.target.isForward = true →
      ∃ row' ∈ eufyRoutes, row'.target.mirrored = true ∧ row = proxied row' := by decide

theorem proxied_mem : ∀ row ∈ eufyRoutes, row.target.mirrored = true →
    proxied row ∈ routes ∧ row.pieces.head? = some (.text "api") := by decide

variable {method : String} {path : List (List Char)} {p : List Char}

/-- The paths that are forwarded, and what the other server has for them. -/
theorem proxyToEufy_eq_some :
    proxyToEufy method path = some p ↔
      ∃ rest handler captured, path = "api".toList :: "eufy".toList :: rest ∧
        p = pathname ("api".toList :: rest) ∧
        dispatch eufyRoutes method ("api".toList :: rest) = some (handler, captured) ∧
        handler.mirrored = true := by
  constructor
  · intro h
    rw [proxyToEufy] at h
    split at h
    · rename_i pieces captured hdispatch
      obtain ⟨row, hrow, hread⟩ := (dispatch_eq_some routes_apart).mp hdispatch
      obtain ⟨hm, htarget, hcapture⟩ := Row.read_eq_some.mp hread
      have hforward : row.target.isForward = true := by
        rw [← htarget]
        rfl
      obtain ⟨row', hrow', hmirrored, rfl⟩ := proxied_of_isForward row hrow hforward
      obtain rfl : pieces = row'.pieces := Handler.forward.inj htarget
      obtain ⟨rest', rfl, heufy⟩ := capture_text.mp hcapture
      obtain ⟨rest, rfl, hrest⟩ := capture_text.mp heufy
      obtain ⟨qs, hqs⟩ := List.head?_eq_some_iff.mp (proxied_mem row' hrow' hmirrored).2
      have hcaptured : capture row'.pieces ("api".toList :: rest) = some captured := by
        rw [hqs] at hrest ⊢
        exact capture_text.mpr ⟨rest, rfl, hrest⟩
      refine ⟨rest, row'.target, captured, rfl, ?_, ?_, hmirrored⟩
      · rw [← Option.some.inj h, ← fill_of_capture hcaptured]
      · exact (dispatch_eq_some eufyRoutes_apart).mpr
          ⟨row', hrow', Row.read_eq_some.mpr ⟨hm, rfl, hcaptured⟩⟩
    · cases h
  · rintro ⟨rest, handler, captured, rfl, rfl, hdispatch, hmirrored⟩
    obtain ⟨row, hrow, hread⟩ := (dispatch_eq_some eufyRoutes_apart).mp hdispatch
    obtain ⟨hm, rfl, hcapture⟩ := Row.read_eq_some.mp hread
    obtain ⟨hproxied, hhead⟩ := proxied_mem row hrow hmirrored
    obtain ⟨qs, hqs⟩ := List.head?_eq_some_iff.mp hhead
    have hcaptured : capture (proxied row).pieces ("api".toList :: "eufy".toList :: rest) =
        some captured := by
      refine capture_text.mpr ⟨_, rfl, capture_text.mpr ⟨rest, rfl, ?_⟩⟩
      rw [hqs] at hcapture ⊢
      obtain ⟨rest', heq, hrest⟩ := capture_text.mp hcapture
      obtain rfl := (List.cons.inj heq).2
      exact hrest
    have hforward : dispatch routes method ("api".toList :: "eufy".toList :: rest) =
        some (.forward row.pieces, captured) :=
      (dispatch_eq_some routes_apart).mpr
        ⟨proxied row, hproxied, Row.read_eq_some.mpr ⟨hm, rfl, hcaptured⟩⟩
    rw [proxyToEufy, hforward, fill_of_capture hcapture]

/-- The other server parses a forwarded path to the segments that the proxy has written. -/
theorem eufyAnswer_pathname (h : Normal path) :
    eufyAnswer method (pathname path) = dispatch eufyRoutes method path := by
  rw [eufyAnswer, segments_tail_pathname h]

theorem normal_forwarded {a b : List Char} (h : Normal (a :: b :: path)) : Normal (a :: path) := by
  obtain ⟨ha, htail⟩ := List.forall_mem_cons.mp h.plain
  exact ⟨List.forall_mem_cons.mpr ⟨ha, (List.forall_mem_cons.mp htail).2⟩, List.cons_ne_nil a path⟩

/-- `loadThumb` of `viewer.html`, without the time that it may append. -/
def loadThumbPath (sn : List Char) : List Char :=
  "api/eufy/snapshot/".toList ++ encodeURIComponent sn

/-- `refreshThumb`. -/
def refreshThumbPath (sn : List Char) : List Char := loadThumbPath sn ++ "/refresh".toList

/-- `setAutoSnap`. -/
def setAutoSnapPath (sn : List Char) : List Char :=
  "api/eufy/autosnap/".toList ++ encodeURIComponent sn

def queryText : Option (List Char) → List Char
  | none => []
  | some q => '?' :: q

/-- What the browser sends after the first slash: the path as it has parsed it, and the query. -/
def sent (path : List Char) (query : Option (List Char)) : List Char :=
  (pathname (segments (path ++ queryText query))).tail ++ queryText query

/-- The handler of `eufy/server.js` that a request of the page comes to through the proxy, and its
segments as `decodeURIComponent` reads them. -/
def reached (method : String) (path : List Char) (query : Option (List Char)) :
    Option (EufyHandler × List (Option (List Char))) :=
  (proxyToEufy method (segments (sent path query))).bind fun p =>
    (eufyAnswer method p).map fun r => (r.1, r.2.map decodeURIComponent)

theorem tail_queryText (query : Option (List Char)) : Tail (queryText query) := by
  cases query with
  | none => exact .inl rfl
  | some q => exact .inr ⟨'?', q, rfl, by decide⟩

theorem segments_sent (h : ∀ c ∈ p, isEncoded c = false) (query : Option (List Char)) :
    segments (sent p query) = segments p := by
  rw [sent, segments_append h (tail_queryText query)]
  exact segments_tail (segments_normal p) (tail_queryText query)

/-- The characters of a parsed path are not encoded again. -/
theorem not_isEncoded_tail (h : Normal path) : ∀ c ∈ (pathname path).tail, isEncoded c = false := by
  intro c hc
  obtain ⟨seg, hseg, hc⟩ := List.mem_flatMap.mp (List.mem_of_mem_tail hc)
  rcases List.mem_cons.mp hc with rfl | hc
  · decide
  · exact ((h.plain seg hseg).chars c hc).1

/-- A request for a path that fits a mirrored route comes to that route. -/
theorem reached_of_capture {row : Row EufyHandler} (hrow : row ∈ eufyRoutes)
    (hmirrored : row.target.mirrored = true) {rest captured : List (List Char)}
    (hcapture : capture row.pieces ("api".toList :: rest) = some captured)
    (hnormal : Normal ("api".toList :: "eufy".toList :: rest))
    (hp : p = (pathname ("api".toList :: "eufy".toList :: rest)).tail)
    (query : Option (List Char)) :
    reached row.method p query = some (row.target, captured.map decodeURIComponent) := by
  have hdispatch : dispatch eufyRoutes row.method ("api".toList :: rest) =
    some (row.target, captured) :=
    (dispatch_eq_some eufyRoutes_apart).mpr ⟨row, hrow, Row.read_eq_some.mpr ⟨rfl, rfl, hcapture⟩⟩
  have hforward := proxyToEufy_eq_some.mpr
    ⟨rest, row.target, captured, rfl, rfl, hdispatch, hmirrored⟩
  rw [hp, reached, segments_sent (not_isEncoded_tail hnormal),
    segments_tail_pathname hnormal, hforward,
    Option.bind_some, eufyAnswer_pathname (normal_forwarded hnormal), hdispatch]
  rfl

def isDots (sn : List Char) : Bool := [[], ['.'], ['.', '.']].contains sn

theorem not_isDots {sn : List Char} (h : isDots sn = false) :
    Plain (encodeURIComponent sn) ∧ encodeURIComponent sn ≠ [] := by
  have hall : ∀ t ∈ [[], ['.'], ['.', '.']], sn ≠ t := by
    rintro t ht rfl
    exact absurd (List.contains_iff_mem.mpr ht) (Bool.eq_false_iff.mp h)
  exact ⟨plain_encodeURIComponent (hall _ (by decide)) (hall _ (by decide)),
    encodeURIComponent_ne_nil (hall _ (by decide))⟩

/-- The texts of the routes are plain segments. -/
theorem plain_texts :
    ∀ s ∈ ["api", "eufy", "snapshot", "autosnap", "refresh"], Plain s.toList := by
  have hall : ∀ s ∈ ["api", "eufy", "snapshot", "autosnap", "refresh"],
      s.toList.all (fun c => !isEncoded c && !isSlash c) = true ∧ isSingleDot s.toList = false ∧
        isDoubleDot s.toList = false := by decide
  intro s hs
  obtain ⟨hchars, hsingle, hdouble⟩ := hall s hs
  exact ⟨safe_of_all hchars, hsingle, hdouble⟩

section Serial
variable {sn : List Char}

theorem loadThumbPath_eq (sn : List Char) :
    loadThumbPath sn =
      (pathname ["api".toList, "eufy".toList, "snapshot".toList, encodeURIComponent sn]).tail := by
  have htext : "api/eufy/snapshot/".toList =
      (pathname ["api".toList, "eufy".toList, "snapshot".toList]).tail ++ ['/'] := by decide
  have hconcat := tail_pathname_concat
    (List.cons_ne_nil "api".toList ["eufy".toList, "snapshot".toList])
    (encodeURIComponent sn)
  have happend := congrArg (fun t => t ++ encodeURIComponent sn) htext
  exact happend.trans ((List.append_assoc _ _ _).trans hconcat.symm)

theorem refreshThumbPath_eq (sn : List Char) :
    refreshThumbPath sn = (pathname ["api".toList, "eufy".toList, "snapshot".toList,
      encodeURIComponent sn, "refresh".toList]).tail := by
  have htext : "/refresh".toList = '/' :: "refresh".toList := by decide
  rw [refreshThumbPath, loadThumbPath_eq, htext]
  exact (tail_pathname_concat (List.cons_ne_nil _ _) _).symm

theorem setAutoSnapPath_eq (sn : List Char) :
    setAutoSnapPath sn =
      (pathname ["api".toList, "eufy".toList, "autosnap".toList, encodeURIComponent sn]).tail := by
  have htext : "api/eufy/autosnap/".toList =
      (pathname ["api".toList, "eufy".toList, "autosnap".toList]).tail ++ ['/'] := by decide
  have hconcat := tail_pathname_concat
    (List.cons_ne_nil "api".toList ["eufy".toList, "autosnap".toList])
    (encodeURIComponent sn)
  have happend := congrArg (fun t => t ++ encodeURIComponent sn) htext
  exact happend.trans ((List.append_assoc _ _ _).trans hconcat.symm)

theorem capture_segment {seg : List Char} (hne : seg ≠ []) {ps : List Piece}
    {path : List (List Char)}
    {captured : List (List Char)} (h : capture ps path = some captured) :
    capture (.segment :: ps) (seg :: path) = some (seg :: captured) := by
  rw [capture, if_neg hne, h, Option.map_some]

theorem reached_snapshot (h : isDots sn = false) (query : Option (List Char)) :
    reached "GET" (loadThumbPath sn) query = some (.snapshot, [some sn]) := by
  obtain ⟨hplain, hne⟩ := not_isDots h
  have hrow : (⟨"GET", [.text "api", .text "snapshot", .segment], .snapshot⟩ : Row EufyHandler) ∈
      eufyRoutes := by decide
  have hcapture : capture [.text "api", .text "snapshot", .segment]
      ["api".toList, "snapshot".toList, encodeURIComponent sn] = some [encodeURIComponent sn] :=
    capture_text.mpr ⟨_, rfl, capture_text.mpr ⟨_, rfl, capture_segment hne rfl⟩⟩
  have hnormal : Normal ["api".toList, "eufy".toList, "snapshot".toList,
    encodeURIComponent sn] := by
    refine ⟨?_, List.cons_ne_nil _ _⟩
    simp only [List.forall_mem_cons]
    exact ⟨plain_texts _ (by decide), plain_texts _ (by decide), plain_texts _ (by decide), hplain,
      fun _ h => absurd h List.not_mem_nil⟩
  have hreached := reached_of_capture hrow rfl hcapture hnormal (loadThumbPath_eq sn) query
  rw [List.map_singleton, decodeURIComponent_encodeURIComponent] at hreached
  exact hreached

theorem reached_refresh (h : isDots sn = false) (query : Option (List Char)) :
    reached "POST" (refreshThumbPath sn) query = some (.refresh, [some sn]) := by
  obtain ⟨hplain, hne⟩ := not_isDots h
  have hrow : (⟨"POST", [.text "api", .text "snapshot", .segment, .text "refresh"], .refresh⟩ :
      Row EufyHandler) ∈ eufyRoutes := by decide
  have hcapture : capture [.text "api", .text "snapshot", .segment, .text "refresh"]
      ["api".toList, "snapshot".toList, encodeURIComponent sn, "refresh".toList] =
      some [encodeURIComponent sn] :=
    capture_text.mpr ⟨_, rfl, capture_text.mpr ⟨_, rfl, capture_segment hne
      (capture_text.mpr ⟨_, rfl, rfl⟩)⟩⟩
  have hnormal : Normal ["api".toList, "eufy".toList, "snapshot".toList, encodeURIComponent sn,
      "refresh".toList] := by
    refine ⟨?_, List.cons_ne_nil _ _⟩
    simp only [List.forall_mem_cons]
    exact ⟨plain_texts _ (by decide), plain_texts _ (by decide), plain_texts _ (by decide), hplain,
      plain_texts _ (by decide), fun _ h => absurd h List.not_mem_nil⟩
  have hreached := reached_of_capture hrow rfl hcapture hnormal (refreshThumbPath_eq sn) query
  rw [List.map_singleton, decodeURIComponent_encodeURIComponent] at hreached
  exact hreached

theorem reached_setAutosnap (h : isDots sn = false) (query : Option (List Char)) :
    reached "POST" (setAutoSnapPath sn) query = some (.setAutosnap, [some sn]) := by
  obtain ⟨hplain, hne⟩ := not_isDots h
  have hrow : (⟨"POST", [.text "api", .text "autosnap", .segment], .setAutosnap⟩ :
    Row EufyHandler) ∈
      eufyRoutes := by decide
  have hcapture : capture [.text "api", .text "autosnap", .segment]
      ["api".toList, "autosnap".toList, encodeURIComponent sn] = some [encodeURIComponent sn] :=
    capture_text.mpr ⟨_, rfl, capture_text.mpr ⟨_, rfl, capture_segment hne rfl⟩⟩
  have hnormal : Normal ["api".toList, "eufy".toList, "autosnap".toList,
    encodeURIComponent sn] := by
    refine ⟨?_, List.cons_ne_nil _ _⟩
    simp only [List.forall_mem_cons]
    exact ⟨plain_texts _ (by decide), plain_texts _ (by decide), plain_texts _ (by decide), hplain,
      fun _ h => absurd h List.not_mem_nil⟩
  have hreached := reached_of_capture hrow rfl hcapture hnormal (setAutoSnapPath_eq sn) query
  rw [List.map_singleton, decodeURIComponent_encodeURIComponent] at hreached
  exact hreached

/-- A path that the proxy does not forward comes to no route, whatever the query. -/
theorem reached_none (hp : p.all (fun c => !isEncoded c) = true)
    (hnone : proxyToEufy method (segments p) = none) (query : Option (List Char)) :
    reached method p query = none := by
  have hchars : ∀ c ∈ p, isEncoded c = false :=
    fun c hc => (Bool.not_eq_true' _).mp (List.all_eq_true.mp hp c hc)
  rw [reached, segments_sent hchars, hnone, Option.bind_none]

theorem reached_dots (h : isDots sn = true) (query : Option (List Char)) :
    reached "GET" (loadThumbPath sn) query = none ∧
      reached "POST" (refreshThumbPath sn) query = none ∧
      reached "POST" (setAutoSnapPath sn) query = none := by
  have hall : ∀ sn ∈ [[], ['.'], ['.', '.']],
      ((loadThumbPath sn).all (fun c => !isEncoded c) = true ∧
        proxyToEufy "GET" (segments (loadThumbPath sn)) = none) ∧
      ((refreshThumbPath sn).all (fun c => !isEncoded c) = true ∧
        proxyToEufy "POST" (segments (refreshThumbPath sn)) = none) ∧
      (setAutoSnapPath sn).all (fun c => !isEncoded c) = true ∧
        proxyToEufy "POST" (segments (setAutoSnapPath sn)) = none := by decide +kernel
  obtain ⟨⟨hload, hnone⟩, ⟨hrefresh, hnone'⟩, hset, hnone''⟩ := hall sn (List.contains_iff_mem.mp h)
  exact ⟨reached_none hload hnone query, reached_none hrefresh hnone' query,
    reached_none hset hnone'' query⟩

/-- The requests of the page for a camera come to the routes of `eufy/server.js` for it, with its
serial as it is, unless the serial is empty or a dot segment: then they come to none. -/
theorem serial_reached (sn : List Char) (query : Option (List Char)) :
    reached "GET" (loadThumbPath sn) query =
        (if isDots sn then none else some (.snapshot, [some sn])) ∧
      reached "POST" (refreshThumbPath sn) query =
        (if isDots sn then none else some (.refresh, [some sn])) ∧
      reached "POST" (setAutoSnapPath sn) query =
        (if isDots sn then none else some (.setAutosnap, [some sn])) := by
  split_ifs with h
  · exact reached_dots h query
  · have hdots := Bool.eq_false_iff.mpr h
    exact ⟨reached_snapshot hdots query, reached_refresh hdots query,
      reached_setAutosnap hdots query⟩

end Serial

end WyzeCams.Routes
