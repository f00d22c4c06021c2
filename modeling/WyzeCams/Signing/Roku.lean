import WyzeCams.Lib.IsoDate
import WyzeCams.Lib.OrderedMap
import WyzeCams.Lib.Scalars
import WyzeCams.Lib.UnitOrder
import Mathlib.Data.List.Pairwise

/-! The signature of a request to Roku, `signRequest` of `src/src/rokuAuth.js`: whether a verifier
that is given the names and the scope computes the same. -/
namespace WyzeCams.Roku
open OrderedMap Utf8 IsoDate
open Utf16 (js js_injective sortBy)

def sort (names : List String) : List String := sortBy js names

def Precedes (a b : String) : Prop := Utf16.Precedes (js a) (js b)

structure Crypto where
  sha256 : Bytes → Bytes
  hmacSha256 : Bytes → Bytes → Bytes

structure Strings where
  toLowerCase : String → String
  trim : String → String

/-- `pathname` is that of `new URL(url)`, and `querystring` what `querystring.stringify` makes of
its `searchParams`. -/
structure Request where
  method : String
  pathname : String
  querystring : String
  headers : Entries String String
  body : String

structure Credentials where
  AccessKeyId : String
  SecretKey : String

def awsRegion : String := "us-east-1"

/-- `new Date().toISOString().split("T")[0]`. -/
def dateStamp (t : Time) : String := String.ofList ((toISOString t).takeWhile fun c => c ≠ 'T')

def valueOf (headers : Entries String String) (key : String) : String :=
  (get headers key).getD ""

section Request
variable (crypto : Crypto) (strings : Strings)

def headerLine (name value : String) : String := name ++ ":" ++ strings.trim value ++ "\n"

def canonicalHeaders (headers : Entries String String) : String :=
  String.join ((sort (keys headers)).map fun key =>
    headerLine strings (strings.toLowerCase key) (valueOf headers key))

def signedNames (headers : Entries String String) : List String :=
  sort ((keys headers).map strings.toLowerCase)

def signedHeaders (headers : Entries String String) : String :=
  ";".intercalate (signedNames strings headers)

def canonicalText (request : Request) (canonicalHeaders signedHeaders : String) : String :=
  let payloadHash := hex (crypto.sha256 (bytes request.body))
  request.method ++ "\n" ++ request.pathname ++ "\n" ++ request.querystring ++ "\n" ++
    canonicalHeaders ++ "\n" ++ signedHeaders ++ "\n" ++ payloadHash

def credentialScope (date : String) : String :=
  date ++ "/" ++ awsRegion ++ "/execute-api/aws4_request"

def stringToSign (timestamp scope canonicalRequest : String) : String :=
  "AWS4-HMAC-SHA256\n" ++ timestamp ++ "\n" ++ scope ++ "\n" ++
    hex (crypto.sha256 (bytes canonicalRequest))

def getSignatureKey (key date regionName serviceName : String) : Bytes :=
  let kDate := crypto.hmacSha256 (bytes ("AWS4" ++ key)) (bytes date)
  let kRegion := crypto.hmacSha256 kDate (bytes regionName)
  let kService := crypto.hmacSha256 kRegion (bytes serviceName)
  crypto.hmacSha256 kService (bytes "aws4_request")

structure Signed where
  canonicalRequest : String
  credentialScope : String
  timestamp : String
  signingKey : Bytes
  signature : String
  headers : Entries String String

/-- The clock is read for the scope, for the text and for the key. -/
structure Readings where
  scope : Time
  text : Time
  key : Time

def signRequest (request : Request) (credentials : Credentials) (clock : Readings) : Signed :=
  let signedHeaders := signedHeaders strings request.headers
  let canonicalRequest :=
    canonicalText crypto request (canonicalHeaders strings request.headers) signedHeaders
  let scope := credentialScope (dateStamp clock.scope)
  let timestamp := String.ofList (toISOString clock.text)
  let signingKey :=
    getSignatureKey crypto credentials.SecretKey (dateStamp clock.key) awsRegion "execute-api"
  let signature := hex (crypto.hmacSha256 signingKey
    (bytes (stringToSign crypto timestamp scope canonicalRequest)))
  { canonicalRequest, credentialScope := scope, timestamp, signingKey, signature
    headers := set request.headers "Authorization"
      ("AWS4-HMAC-SHA256 Credential=" ++ credentials.AccessKeyId ++ "/" ++ scope ++
        ", SignedHeaders=" ++ signedHeaders ++ ", Signature=" ++ signature) }

def lineNames (headers : Entries String String) : List String :=
  (sort (keys headers)).map strings.toLowerCase

def valueUnder (headers : Entries String String) (name : String) : String :=
  ((headers.find? fun e => strings.toLowerCase e.1 = name).map Prod.snd).getD ""

/-- The canonical request of one that goes by the list of the names. -/
def rebuiltRequest (request : Request) (names : List String) : String :=
  canonicalText crypto request
    (String.join (names.map fun name =>
      headerLine strings name (valueUnder strings request.headers name)))
    (";".intercalate names)

def before (c : Char) (text : String) : String :=
  String.ofList (text.toList.takeWhile fun d => d ≠ c)

def scopeKey (credentials : Credentials) (scope : String) : Bytes :=
  getSignatureKey crypto credentials.SecretKey (before '/' scope) awsRegion "execute-api"

/-- The lines stand in the order of the list of names, there is one date, and a verifier has the
same request, the same key and so the same signature. -/
structure SelfConsistent (request : Request) (credentials : Credentials) (clock : Readings) :
    Prop where
  order : lineNames strings request.headers = signedNames strings request.headers
  keyDate : dateStamp clock.key =
    before '/' (signRequest crypto strings request credentials clock).credentialScope
  textDate : before 'T' (signRequest crypto strings request credentials clock).timestamp =
    before '/' (signRequest crypto strings request credentials clock).credentialScope
  canonicalRequest : rebuiltRequest crypto strings request (signedNames strings request.headers) =
    (signRequest crypto strings request credentials clock).canonicalRequest
  key : scopeKey crypto credentials
      (signRequest crypto strings request credentials clock).credentialScope =
    (signRequest crypto strings request credentials clock).signingKey
  signature : hex (crypto.hmacSha256
      (scopeKey crypto credentials
        (signRequest crypto strings request credentials clock).credentialScope)
      (bytes (stringToSign crypto
        (signRequest crypto strings request credentials clock).timestamp
        (signRequest crypto strings request credentials clock).credentialScope
        (rebuiltRequest crypto strings request (signedNames strings request.headers))))) =
    (signRequest crypto strings request credentials clock).signature

end Request

theorem Precedes.antisymm {a b : String} (h : Precedes a b) (h' : Precedes b a) : a = b :=
  js_injective (Utf16.Precedes.antisymm h h')

theorem sort_perm (names : List String) : (sort names).Perm names := Utf16.sortBy_perm js names

theorem pairwise_sort (names : List String) : (sort names).Pairwise Precedes :=
  Utf16.pairwise_sortBy js names

theorem sort_eq {names sorted : List String} (hperm : names.Perm sorted)
    (hsorted : sorted.Pairwise Precedes) : sort names = sorted :=
  Utf16.sortBy_eq js_injective hperm hsorted

/-- Two names are in the same order after lower-casing as before it. -/
def KeepsOrder (toLowerCase : String → String) (names : List String) : Prop :=
  ∀ a ∈ names, ∀ b ∈ names, Precedes a b → Precedes (toLowerCase a) (toLowerCase b)

theorem map_sort_iff {f : String → String} {names : List String} :
    (sort names).map f = sort (names.map f) ↔ KeepsOrder f names := by
  constructor
  · intro h a ha b hb hab
    have hsorted : ((sort names).map f).Pairwise Precedes := by
      rw [h]
      exact pairwise_sort _
    have hboth := (pairwise_sort names).and (List.pairwise_map.mp hsorted)
    let Both (x y : String) : Prop := Precedes x y ∧ Precedes (f x) (f y)
    have hsymm : Std.Symm fun x y => Both x y ∨ Both y x := ⟨fun _ _ => Or.symm⟩
    have htotal := (hboth.imp (S := fun x y => Both x y ∨ Both y x) Or.inl).forall
    by_cases heq : a = b
    · rw [heq]
      exact Utf16.Precedes.refl _
    · obtain ⟨-, hba⟩ | ⟨hba, -⟩ := htotal ((sort_perm names).mem_iff.mpr ha)
        ((sort_perm names).mem_iff.mpr hb) heq
      · exact hba
      · exact absurd (hab.antisymm hba) heq
  · intro h
    refine (sort_eq ((sort_perm names).symm.map f) ?_).symm
    rw [List.pairwise_map]
    have hmem : ∀ a ∈ sort names, a ∈ names := fun a ha => (sort_perm names).mem_iff.mp ha
    exact (pairwise_sort names).imp_of_mem fun ha hb hab => h _ (hmem _ ha) _ (hmem _ hb) hab

section Verifier
variable {strings : Strings} {headers : Entries String String}

theorem valueUnder_eq (hnames : ((keys headers).map strings.toLowerCase).Nodup) {key : String}
    (hkey : key ∈ keys headers) :
    valueUnder strings headers (strings.toLowerCase key) = valueOf headers key := by
  induction headers with
  | nil => exact absurd hkey List.not_mem_nil
  | cons e headers ih =>
    obtain ⟨k, v⟩ := e
    rw [keys, List.map_cons, List.map_cons, List.nodup_cons] at hnames
    rw [valueUnder, List.find?_cons, valueOf, get_cons]
    rcases List.mem_cons.mp hkey with hk | hk
    · have hsame : key = k := hk
      rw [if_pos hsame, hsame, decide_eq_true rfl]
      rfl
    · have hmem : strings.toLowerCase key ∈ (keys headers).map strings.toLowerCase :=
        List.mem_map_of_mem hk
      have hne : strings.toLowerCase k ≠ strings.toLowerCase key := by
        intro heq
        exact hnames.1 (heq ▸ hmem)
      have hkey : key ≠ k := fun heq => hne (by rw [heq])
      rw [if_neg hkey, decide_eq_false hne]
      exact ih hnames.2 hk

/-- In the order of the list the verifier writes the lines that were signed. -/
theorem rebuiltRequest_eq {crypto : Crypto} {request : Request}
    (hnames : ((keys request.headers).map strings.toLowerCase).Nodup)
    (horder : lineNames strings request.headers = signedNames strings request.headers) :
    rebuiltRequest crypto strings request (signedNames strings request.headers) =
      canonicalText crypto request (canonicalHeaders strings request.headers)
        (signedHeaders strings request.headers) := by
  have hlines : (signedNames strings request.headers).map (fun name =>
      headerLine strings name (valueUnder strings request.headers name)) =
      (sort (keys request.headers)).map fun key =>
        headerLine strings (strings.toLowerCase key) (valueOf request.headers key) := by
    rw [← horder, lineNames, List.map_map]
    apply List.map_congr_left
    intro key hkey
    rw [Function.comp_apply, valueUnder_eq hnames ((sort_perm _).mem_iff.mp hkey)]
  rw [rebuiltRequest, hlines]
  rfl

end Verifier

theorem dateStamp_eq (t : Time) : dateStamp t = String.ofList t.date := by
  rw [dateStamp, takeWhile_toISOString]

theorem dateStamp_eq_iff {s t : Time} : dateStamp s = dateStamp t ↔ s.day = t.day := by
  rw [dateStamp_eq, dateStamp_eq, String.ofList_inj, date_eq_iff]

theorem before_timestamp (t : Time) : before 'T' (String.ofList (toISOString t)) = dateStamp t := by
  rw [before, String.toList_ofList, dateStamp]

theorem before_credentialScope (t : Time) :
    before '/' (credentialScope (dateStamp t)) = dateStamp t := by
  have hslash : "/".toList = ['/'] := rfl
  rw [before, credentialScope, dateStamp_eq, String.toList_append, String.toList_append,
    String.toList_append, String.toList_ofList, hslash, List.append_assoc, List.append_assoc,
    List.singleton_append, takeWhile_date ⟨by decide, by decide, by decide⟩]

section Agreement
variable {crypto : Crypto} {strings : Strings} {request : Request} {credentials : Credentials}
  {clock : Readings}

theorem SelfConsistent.days (h : SelfConsistent crypto strings request credentials clock) :
    clock.scope.day = clock.text.day ∧ clock.text.day = clock.key.day := by
  have hkey := h.keyDate
  have htext := h.textDate
  simp only [signRequest] at hkey htext
  rw [before_credentialScope, dateStamp_eq_iff] at hkey
  rw [before_timestamp, before_credentialScope, dateStamp_eq_iff] at htext
  exact ⟨htext.symm, htext.trans hkey.symm⟩

theorem selfConsistent_of
    (hnames : ((keys request.headers).map strings.toLowerCase).Nodup)
    (horder : KeepsOrder strings.toLowerCase (keys request.headers))
    (htext : clock.scope.day = clock.text.day) (hkey : clock.text.day = clock.key.day) :
    SelfConsistent crypto strings request credentials clock := by
  have hlines : lineNames strings request.headers = signedNames strings request.headers :=
    map_sort_iff.mpr horder
  have hkeyDate : dateStamp clock.key = dateStamp clock.scope :=
    dateStamp_eq_iff.mpr (htext.trans hkey).symm
  have hscopeKey : scopeKey crypto credentials
      (signRequest crypto strings request credentials clock).credentialScope =
      (signRequest crypto strings request credentials clock).signingKey := by
    simp only [signRequest]
    rw [scopeKey, before_credentialScope, hkeyDate]
  refine ⟨hlines, ?_, ?_, rebuiltRequest_eq hnames hlines, hscopeKey, ?_⟩
  · simp only [signRequest]
    rw [before_credentialScope, hkeyDate]
  · simp only [signRequest]
    rw [before_timestamp, before_credentialScope, dateStamp_eq_iff, htext]
  · rw [hscopeKey, rebuiltRequest_eq hnames hlines]
    rfl

end Agreement

/-- The request is consistent exactly when lower-casing keeps the order of the names and the clock
is read three times on one day. -/
theorem self_consistent_iff (crypto : Crypto) {strings : Strings} {request : Request}
    (hnames : ((keys request.headers).map strings.toLowerCase).Nodup) (credentials : Credentials)
    (clock : Readings) :
    SelfConsistent crypto strings request credentials clock ↔
      KeepsOrder strings.toLowerCase (keys request.headers) ∧
        clock.scope.day = clock.text.day ∧ clock.text.day = clock.key.day :=
  ⟨fun h => ⟨map_sort_iff.mp h.order, h.days⟩,
    fun ⟨horder, htext, hkey⟩ => selfConsistent_of hnames horder htext hkey⟩

def ascii : Strings where
  toLowerCase s := String.ofList (s.toList.map Char.toLower)
  trim s := String.ofList
    ((s.toList.dropWhile Char.isWhitespace).reverse.dropWhile Char.isWhitespace).reverse

def credentials : Credentials := ⟨"access-key-id", "secret-key"⟩

def login (headers : Entries String String) : Request :=
  ⟨"POST", "/user/login", "", headers, "\x7b\x7d"⟩

def noon : Readings := ⟨⟨43200000, by decide, by decide⟩, ⟨43200000, by decide, by decide⟩,
  ⟨43200001, by decide, by decide⟩⟩

def midnight : Readings := ⟨⟨86399999, by decide, by decide⟩, ⟨86399999, by decide, by decide⟩,
  ⟨86400000, by decide, by decide⟩⟩

def small : Entries String String :=
  [("host", "iot.prod.mobile.roku.com"), ("app", "harold"), ("version", "2.0")]

def mixed : Entries String String :=
  [("Accept", "application/json"), ("User-Agent", "Owl/0"), ("apiweb-env", "prod")]

theorem self_consistent_iff_small : ((keys small).map ascii.toLowerCase).Nodup ∧
    ∀ crypto, SelfConsistent crypto ascii (login small) credentials noon :=
  ⟨by decide +kernel, fun crypto => (self_consistent_iff crypto
    (by decide +kernel) credentials noon).mpr
      ⟨by unfold KeepsOrder Precedes; decide +kernel, by decide, by decide⟩⟩

/-- `User-Agent` comes before `apiweb-env` in the lines and behind it in the list; and the names in
small letters are signed with the key of the next day. -/
theorem inconsistent_requests :
    (∀ crypto, ¬ SelfConsistent crypto ascii (login mixed) credentials noon) ∧
      ∀ crypto, ¬ SelfConsistent crypto ascii (login small) credentials midnight := by
  constructor
  · intro crypto h
    have horder : KeepsOrder ascii.toLowerCase (keys (login mixed).headers) :=
      map_sort_iff.mp h.order
    have hpair := horder "User-Agent" (by decide) "apiweb-env" (by decide)
      (by unfold Precedes; decide +kernel)
    revert hpair
    unfold Precedes
    decide +kernel
  · intro crypto h
    exact absurd h.days.2 (by decide)

end WyzeCams.Roku
