import WyzeCams.Api.StreamInfo

/-! Whether the classification of an answer depends on how its code is written: as a number, or as
the decimal text of that number. -/
namespace WyzeCams.Api
open Async

inductive ApiOutcome where
  | success
  | invalidCredentials
  | rateLimit
  | accessToken
  | badRequest
  | otherError
  | notText
  | noBody
  deriving DecidableEq, Repr

def ApiOutcome.method (refreshToken : Method Unit) (data : Value) (url : String) (body : Body) :
    ApiOutcome → Method Response
  | success => return ⟨true, data, none⟩
  | invalidCredentials => do
    clearAccessToken
    fail [.text "Invalid Credentials - please check your credentials & account before trying again. Error: ",
      .text (errorMessage data).text]
  | rateLimit => handleRateLimitError data (errorMessage data).text (data.get "code")
  | accessToken =>
    awaitCall
      (handleAccessTokenError refreshToken data (errorMessage data).text (data.get "code") body)
  | badRequest =>
    fail [.text "Wyze API Bad Request: Check your request parameters - ",
      .badRequest (data.get "code") (errorMessage data).text url body]
  | otherError =>
    fail [.text "Wyze API Error (", .value (data.get "code"), .text ") - ",
      .text (errorMessage data).text]
  | notText => typeError "errorMessage.toLowerCase is not a function"
  | noBody => typeError "Cannot destructure the response data"

def apiOutcome (data : Value) : ApiOutcome :=
  let code := data.get "code"
  if data.isNullish then .noBody
  else if code.isUndefined || code.numberIsOne then .success
  else match errorMessage data with
    | .str message =>
      if isInvalidCredentialsError message then .invalidCredentials
      else if isRateLimitError code message then .rateLimit
      else if isAccessTokenError code message then .accessToken
      else if isBadRequestError code then .badRequest
      else .otherError
    | _ => .notText

inductive StreamOutcome where
  | accepted
  | accessToken
  | rateLimit
  | offline
  | otherError
  | notText
  deriving DecidableEq, Repr

def streamMessage (data : Value) : Value :=
  ((data.get "msg").or (data.get "description")).or (.str "")

def StreamOutcome.method (refreshToken : Method Unit) (data : Value) (body : Body) :
    StreamOutcome → Method Value
  | accepted => streamParams data
  | accessToken => do
    let _ ← awaitCall (handleAccessTokenError refreshToken data (streamMessage data).text
      (data.get "code") body)
    fail [.text "Wyze access token error (", .value (data.get "code"), .text "): ",
      .value (streamMessage data), .text ". Token has been refreshed; retry the call."]
  | rateLimit =>
    fail [.text "Wyze API rate limited (", .value (data.get "code"), .text "): ",
      .value (streamMessage data)]
  | offline => fail [.text "Camera is offline: ", .value data]
  | otherError =>
    fail [.text "Wyze API Error (", .value (data.get "code"), .text ") - ",
      .value (streamMessage data)]
  | notText => typeError "errorMessage.toLowerCase is not a function"

def streamOutcome (data : Value) : StreamOutcome :=
  let code := data.get "code"
  if code.isUndefined || code.numberIsOne then .accepted
  else match isAccessTokenErrorOf code (streamMessage data) with
    | none => .notText
    | some true => .accessToken
    | some false =>
      if isRateLimitError code (streamMessage data).text then .rateLimit
      else if code.isText deviceOfflineCode then .offline
      else .otherError

theorem handleApiResponse_eq (refreshToken : Method Unit) (data : Value) (url : String)
    (body : Body) : handleApiResponse refreshToken data url body =
      (apiOutcome data).method refreshToken data url body := by
  rw [handleApiResponse, apiOutcome]
  dsimp only
  by_cases hnull : data.isNullish = true
  · rw [if_pos hnull, if_pos hnull]
    rfl
  rw [if_neg hnull, if_neg hnull]
  cases hu : (data.get "code").isUndefined with
  | true => rfl
  | false =>
    cases hone : (data.get "code").numberIsOne with
    | true => rfl
    | false =>
      rw [if_pos (show (!false && !false) = true from rfl),
        if_neg (show ¬ (false || false) = true from Bool.false_ne_true)]
      cases hm : errorMessage data with
      | str message =>
        dsimp only
        split_ifs <;> simp only [ApiOutcome.method, hm, Value.text]
      | _ => rfl

theorem streamInfoResponse_eq (refreshToken : Method Unit) (data : Value) (body : Body) :
    streamInfoResponse refreshToken data body =
      (streamOutcome data).method refreshToken data body := by
  rw [streamInfoResponse, streamOutcome, ← streamMessage]
  cases hu : (data.get "code").isUndefined with
  | true => rfl
  | false =>
    cases hone : (data.get "code").numberIsOne with
    | true => rfl
    | false =>
      rw [if_pos (show (!false && !false) = true from rfl),
        if_neg (show ¬ (false || false) = true from Bool.false_ne_true)]
      cases isAccessTokenErrorOf (data.get "code") (streamMessage data) with
      | none => rfl
      | some b =>
        cases b with
        | true => rfl
        | false =>
          dsimp only
          split_ifs <;> rfl

structure Restated (n : Int) (d d' : Value) : Prop where
  num : d.get "code" = .num n
  str : d'.get "code" = .str (toString n)
  others : ∀ name, name ≠ "code" → d.get name = d'.get name

def blamesToken (message : String) : Bool :=
  includes (toLowerCase message) "accesstokenerror".toList ||
    includes (toLowerCase message) "access token is error".toList

def blamesAttempts (message : String) : Bool :=
  includes (toLowerCase message) "too many failed attempts".toList

/-- `_handleApiResponse` compares the code with a number that it could be: 3044; 1000 with a text
about too many attempts; and, unless the text blames the access token, 2001, 1001 or 1004. -/
def ApiCompares (n : Int) (message : Value) : Prop :=
  ∃ m, message = .str m ∧ isInvalidCredentialsError m = false ∧
    (n = 3044 ∨ (n = 1000 ∧ blamesAttempts m = true) ∨
      ((n = 2001 ∨ n = 1001 ∨ n = 1004) ∧ blamesToken m = false))

/-- `cameraGetStreamInfo` does so for 2001, unless the text blames the access token; and with a
text that does not, for 3044, and for 1000 when it is about too many attempts. -/
def StreamCompares (n : Int) (message : Value) : Prop :=
  (n = 2001 ∧ ∀ m, message = .str m → blamesToken m = false) ∨
    ∃ m, message = .str m ∧ blamesToken m = false ∧
      (n = 3044 ∨ (n = 1000 ∧ blamesAttempts m = true))

variable {n : Int} {d d' : Value}

theorem isNullish_of_get {name : String} {v : Value} (h : d.get name = v)
    (hv : v.isUndefined = false) : d.isNullish = false := by
  cases d with
  | undefined => rw [← h] at hv; cases hv
  | null => rw [← h] at hv; cases hv
  | _ => rfl

theorem isAccessTokenError_eq (code : Value) (message : String) :
    isAccessTokenError code message = (code.isNum 2001 || blamesToken message) := by
  rw [isAccessTokenError, blamesToken, Bool.or_assoc]

theorem Restated.errorMessage_eq (h : Restated n d d') : errorMessage d = errorMessage d' := by
  rw [errorMessage, errorMessage, h.others "msg" (by decide), h.others "description" (by decide)]

theorem Restated.streamMessage_eq (h : Restated n d d') : streamMessage d = streamMessage d' := by
  rw [streamMessage, streamMessage, h.others "msg" (by decide), h.others "description" (by decide)]

theorem api_branches_iff (n : Int) (i a b : Bool) :
    ((if i then ApiOutcome.invalidCredentials
      else if n == 3044 || (n == 1000 && a) then .rateLimit
      else if n == 2001 || b then .accessToken
      else if n == 1001 || n == 1004 then .badRequest
      else .otherError) =
      if i then .invalidCredentials else if b then .accessToken else .otherError) ↔
    ¬ (i = false ∧ (n = 3044 ∨ (n = 1000 ∧ a = true) ∨
      ((n = 2001 ∨ n = 1001 ∨ n = 1004) ∧ b = false))) := by
  cases i with
  | true => simp
  | false =>
    by_cases h1 : n = 3044
    · simp [h1]
      cases b <;> simp
    by_cases h2 : n = 1000
    · cases a <;> cases b <;> simp [h2]
    by_cases h3 : n = 2001
    · cases b <;> simp [h3]
    by_cases h4 : n = 1001 ∨ n = 1004
    · cases b <;> simp [h1, h2, h3, h4]
    · cases b <;> simp [h1, h2, h3, h4]

theorem stream_branches_iff (n : Int) (a b o : Bool) :
    ((if n == 2001 || b then StreamOutcome.accessToken
      else if n == 3044 || (n == 1000 && a) then .rateLimit
      else if o then .offline
      else .otherError) =
      if b then .accessToken else if o then .offline else .otherError) ↔
    ¬ ((n = 2001 ∧ b = false) ∨ (b = false ∧ (n = 3044 ∨ (n = 1000 ∧ a = true)))) := by
  cases b with
  | true => simp
  | false =>
    by_cases h1 : n = 2001
    · cases o <;> simp [h1]
    by_cases h2 : n = 3044
    · cases o <;> simp [h2]
    by_cases h3 : n = 1000
    · cases a <;> cases o <;> simp [h3]
    · cases o <;> simp [h1, h2, h3]

def Value.Writes (v : Value) (n : Int) : Prop := v = .num n ∨ v = .str (toString n)

theorem code_isOne (h : (d.get "code").Writes n) :
    ((d.get "code").isUndefined || (d.get "code").numberIsOne) = (n == 1) := by
  obtain h | h := h
  · rw [h]
    rfl
  · rw [h]
    exact textIsOne_toString n

theorem Value.Writes.isNullish (h : (d.get "code").Writes n) : d.isNullish = false := by
  obtain h | h := h <;> exact isNullish_of_get h rfl

theorem apiOutcome_text {m : String} (h : (d.get "code").Writes n) (hone : n ≠ 1)
    (hm : errorMessage d = .str m) : apiOutcome d =
      if isInvalidCredentialsError m then .invalidCredentials
      else if isRateLimitError (d.get "code") m then .rateLimit
      else if (d.get "code").isNum 2001 || blamesToken m then .accessToken
      else if isBadRequestError (d.get "code") then .badRequest
      else .otherError := by
  have hcode : (n == 1) = false := by simpa using hone
  rw [apiOutcome, h.isNullish, code_isOne h, hcode, hm, ← isAccessTokenError_eq]
  rfl

theorem apiOutcome_one (h : (d.get "code").Writes 1) : apiOutcome d = .success := by
  rw [apiOutcome, h.isNullish, code_isOne h]
  rfl

theorem apiOutcome_notText (h : (d.get "code").Writes n) (hone : n ≠ 1)
    (hm : ∀ m, errorMessage d ≠ .str m) : apiOutcome d = .notText := by
  have hcode : (n == 1) = false := by simpa using hone
  rw [apiOutcome, h.isNullish, code_isOne h, hcode]
  cases herr : errorMessage d with
  | str m => exact absurd herr (hm m)
  | _ => rfl

theorem Restated.apiOutcome_iff (h : Restated n d d') :
    apiOutcome d = apiOutcome d' ↔ n = 1 ∨ ¬ ApiCompares n (errorMessage d) := by
  by_cases hone : n = 1
  · have hsame : apiOutcome d = apiOutcome d' := by
      rw [apiOutcome_one (.inl (hone ▸ h.num)), apiOutcome_one (.inr (hone ▸ h.str))]
    exact iff_of_true hsame (.inl hone)
  rw [or_iff_right hone]
  by_cases htext : ∃ m, errorMessage d = .str m
  · obtain ⟨m, hm⟩ := htext
    have hnum := apiOutcome_text (.inl h.num) hone hm
    have hstr := apiOutcome_text (.inr h.str) hone (h.errorMessage_eq ▸ hm)
    rw [h.num] at hnum
    rw [h.str] at hstr
    simp only [isRateLimitError, isBadRequestError, Value.isNum, Bool.false_and, Bool.or_false,
      Bool.false_or, Bool.false_eq_true, if_false] at hnum hstr
    rw [hnum, hstr, ApiCompares]
    simp only [hm, Value.str.injEq, exists_eq_left']
    exact api_branches_iff n _ _ _
  · have hm : ∀ m, errorMessage d ≠ .str m := fun m hm => htext ⟨m, hm⟩
    have hsame : apiOutcome d = apiOutcome d' := by
      rw [apiOutcome_notText (.inl h.num) hone hm,
        apiOutcome_notText (.inr h.str) hone (h.errorMessage_eq ▸ hm)]
    exact iff_of_true hsame fun ⟨m, hm', _⟩ => hm m hm'

theorem streamOutcome_one (h : (d.get "code").Writes 1) : streamOutcome d = .accepted := by
  rw [streamOutcome, code_isOne h]
  rfl

theorem isAccessTokenErrorOf_str (code : Value) (m : String) :
    isAccessTokenErrorOf code (.str m) = some (code.isNum 2001 || blamesToken m) := by
  rw [isAccessTokenErrorOf, isAccessTokenError_eq]
  cases code.isNum 2001 <;> rfl

theorem streamOutcome_text {m : String} (h : (d.get "code").Writes n) (hone : n ≠ 1)
    (hm : streamMessage d = .str m) : streamOutcome d =
      if (d.get "code").isNum 2001 || blamesToken m then .accessToken
      else if isRateLimitError (d.get "code") m then .rateLimit
      else if (d.get "code").isText deviceOfflineCode then .offline
      else .otherError := by
  have hcode : (n == 1) = false := by simpa using hone
  rw [streamOutcome, code_isOne h, hcode, hm, isAccessTokenErrorOf_str]
  cases (d.get "code").isNum 2001 || blamesToken m <;> rfl

/-- A message that is no text makes the test for the access token throw, unless the code is the
number 2001. -/
theorem streamOutcome_notText (h : (d.get "code").Writes n) (hone : n ≠ 1)
    (hm : ∀ m, streamMessage d ≠ .str m) : streamOutcome d =
      if (d.get "code").isNum 2001 then .accessToken else .notText := by
  have hcode : (n == 1) = false := by simpa using hone
  rw [streamOutcome, code_isOne h, hcode]
  cases herr : streamMessage d with
  | str m => exact absurd herr (hm m)
  | _ =>
    rw [isAccessTokenErrorOf]
    · cases (d.get "code").isNum 2001 <;> rfl
    · exact fun m hm => nomatch hm

theorem Restated.streamOutcome_iff (h : Restated n d d') :
    streamOutcome d = streamOutcome d' ↔ n = 1 ∨ ¬ StreamCompares n (streamMessage d) := by
  by_cases hone : n = 1
  · have hsame : streamOutcome d = streamOutcome d' := by
      rw [streamOutcome_one (.inl (hone ▸ h.num)), streamOutcome_one (.inr (hone ▸ h.str))]
    exact iff_of_true hsame (.inl hone)
  rw [or_iff_right hone]
  by_cases htext : ∃ m, streamMessage d = .str m
  · obtain ⟨m, hm⟩ := htext
    have hnum := streamOutcome_text (.inl h.num) hone hm
    have hstr := streamOutcome_text (.inr h.str) hone (h.streamMessage_eq ▸ hm)
    rw [h.num] at hnum
    rw [h.str] at hstr
    simp only [isRateLimitError, Value.isNum, Value.isText, Bool.false_and, Bool.or_false,
      Bool.false_or, Bool.false_eq_true, if_false] at hnum hstr
    rw [hnum, hstr, StreamCompares]
    simp only [hm, Value.str.injEq, exists_eq_left', forall_eq']
    exact stream_branches_iff n _ _ _
  · have hm : ∀ m, streamMessage d ≠ .str m := fun m hm => htext ⟨m, hm⟩
    rw [streamOutcome_notText (.inl h.num) hone hm,
      streamOutcome_notText (.inr h.str) hone (h.streamMessage_eq ▸ hm), h.num, h.str]
    have hcompares : StreamCompares n (streamMessage d) ↔ n = 2001 := by
      rw [StreamCompares]
      constructor
      · rintro (⟨hn, -⟩ | ⟨m, hm', -⟩)
        · exact hn
        · exact absurd hm' (hm m)
      · exact fun hn => .inl ⟨hn, fun m hm' => absurd hm' (hm m)⟩
    rw [hcompares]
    by_cases hn : n = 2001
    · simp [hn, Value.isNum]
    · simp [hn, Value.isNum]

/-- For every two bodies that differ only in how their code `n` is written: `_handleApiResponse`
and `cameraGetStreamInfo` take the branches of `apiOutcome` and `streamOutcome`, and both
branches are the same for the two bodies exactly when neither compares the code with a number
that it could be. -/
theorem outcomes_agree_iff (h : Restated n d d') :
    (∀ data refreshToken url body,
      handleApiResponse refreshToken data url body =
        (apiOutcome data).method refreshToken data url body ∧
      streamInfoResponse refreshToken data body =
        (streamOutcome data).method refreshToken data body) ∧
    (apiOutcome d = apiOutcome d' ∧ streamOutcome d = streamOutcome d' ↔
      ¬ ApiCompares n (errorMessage d) ∧ ¬ StreamCompares n (streamMessage d)) := by
  refine ⟨fun data refreshToken url body => ⟨handleApiResponse_eq refreshToken data url body,
    streamInfoResponse_eq refreshToken data body⟩, ?_⟩
  have hapi : n = 1 → ¬ ApiCompares n (errorMessage d) := by
    rintro rfl ⟨m, -, -, hn⟩
    omega
  have hstream : n = 1 → ¬ StreamCompares n (streamMessage d) := by
    rintro rfl (⟨hn, -⟩ | ⟨m, -, -, hn⟩) <;> omega
  rw [h.apiOutcome_iff, h.streamOutcome_iff, or_iff_right_of_imp hapi, or_iff_right_of_imp hstream]

def limited (code : Value) : Value := .obj [("code", code), ("msg", .str "Too many requests")]

theorem limited_restated (n : Int) :
    Restated n (limited (.num n)) (limited (.str (toString n))) := by
  refine ⟨rfl, rfl, fun name hname => ?_⟩
  have hkey : (name == "code") = false := by simpa using hname
  simp only [limited, Value.get, List.lookup_cons, hkey]

theorem outcomes_agree_missing :
    apiOutcome (limited (.num 7)) = apiOutcome (limited (.str (toString (7 : Int)))) ∧
    streamOutcome (limited (.num 7)) = streamOutcome (limited (.str (toString (7 : Int)))) := by
  refine (outcomes_agree_iff (limited_restated 7)).2.mpr ⟨?_, ?_⟩
  · rintro ⟨m, -, -, hn⟩
    omega
  · rintro (⟨hn, -⟩ | ⟨m, -, -, hn⟩) <;> omega

/-- A rate limit that comes with the code "3044" is no rate limit for either of them. -/
theorem text_code_misclassified :
    Restated 3044 (limited (.num 3044)) (limited (.str (toString (3044 : Int)))) ∧
    apiOutcome (limited (.num 3044)) ≠ apiOutcome (limited (.str (toString (3044 : Int)))) ∧
    streamOutcome (limited (.num 3044)) ≠ streamOutcome (limited (.str (toString (3044 : Int)))) :=
  ⟨limited_restated 3044, by decide, by decide⟩

end WyzeCams.Api
