import WyzeCams.Api.Client

/-! How `_handleApiResponse` classifies the body of an answer. -/
namespace WyzeCams.Api
open Async

def rejection (data : Value) : Option String :=
  if data.isNullish || (data.get "code").isUndefined || (data.get "code").numberIsOne then none
  else match errorMessage data with
    | .str message => some message
    | _ => none

def isInvalidCredentials (data : Value) : Bool :=
  (rejection data).any isInvalidCredentialsError

def isRateLimited (data : Value) : Bool :=
  !isInvalidCredentials data && (rejection data).any (isRateLimitError (data.get "code"))

def isTokenError (data : Value) : Bool :=
  !isInvalidCredentials data && !isRateLimited data &&
    (rejection data).any (isAccessTokenError (data.get "code"))

def isSuccess (data : Value) : Bool :=
  !data.isNullish && ((data.get "code").isUndefined || (data.get "code").numberIsOne)

/-- What `_handleApiResponse` does with an answer: it throws, clears the access token first where
the credentials were rejected, or reports a rate limit, an access-token error or a success. -/
inductive Handled (refreshToken : Method Unit) (data : Value) (body : Body) :
    Method Response → Prop where
  | thrown (e : Err) (hlimit : isRateLimited data = false) (htoken : isTokenError data = false)
      (hsuccess : isSuccess data = false) : Handled refreshToken data body (.raise e)
  | cleared (message : List Part) (hlimit : isRateLimited data = false)
      (htoken : isTokenError data = false) (hsuccess : isSuccess data = false) :
      Handled refreshToken data body (do clearAccessToken; fail message)
  | rateLimited (message : String) (hlimit : isRateLimited data = true)
      (htoken : isTokenError data = false) (hsuccess : isSuccess data = false) :
      Handled refreshToken data body (handleRateLimitError data message (data.get "code"))
  | tokenError (message : String) (hlimit : isRateLimited data = false)
      (htoken : isTokenError data = true) (hsuccess : isSuccess data = false) :
      Handled refreshToken data body
        (awaitCall (handleAccessTokenError refreshToken data message (data.get "code") body))
  | success (hlimit : isRateLimited data = false) (htoken : isTokenError data = false)
      (hsuccess : isSuccess data = true) :
      Handled refreshToken data body (return ⟨true, data, none⟩)

theorem rejection_of_isNullish {data : Value} (h : data.isNullish = true) :
    rejection data = none := by
  simp [rejection, h]

theorem rejection_of_isSuccess {data : Value} (h : isSuccess data = true) :
    rejection data = none := by
  simp only [isSuccess, Bool.and_eq_true, Bool.not_eq_true', Bool.or_eq_true] at h
  obtain ⟨-, h⟩ := h
  cases h <;> simp [rejection, *]

theorem handled_handleApiResponse (refreshToken : Method Unit) (data : Value) (url : String)
    (body : Body) :
    Handled refreshToken data body (handleApiResponse refreshToken data url body) := by
  rw [handleApiResponse]
  by_cases hnull : data.isNullish = true
  · have hrej := rejection_of_isNullish hnull
    rw [if_pos hnull]
    exact .thrown _ (by simp [isRateLimited, hrej]) (by simp [isTokenError, hrej])
      (by simp [isSuccess, hnull])
  rw [if_neg hnull]
  dsimp only
  by_cases hcode : (!(data.get "code").isUndefined && !(data.get "code").numberIsOne) = true
  · rw [if_pos hcode]
    have hsuccess : isSuccess data = false := by
      simp only [Bool.and_eq_true, Bool.not_eq_true'] at hcode
      simp [isSuccess, hcode]
    split
    · rename_i message hmessage
      have hrej : rejection data = some message := by
        simp only [Bool.and_eq_true, Bool.not_eq_true'] at hcode
        simp [rejection, hnull, hcode, hmessage]
      split_ifs with hcred hlimit htoken hbad
      · exact .cleared _ (by simp [isRateLimited, isInvalidCredentials, hrej, hcred])
          (by simp [isTokenError, isInvalidCredentials, hrej, hcred]) hsuccess
      · have hl : isRateLimited data = true := by
          simp [isRateLimited, isInvalidCredentials, hrej, hcred, hlimit]
        exact .rateLimited _ hl (by simp [isTokenError, hl]) hsuccess
      · have hl : isRateLimited data = false := by simp [isRateLimited, hrej, hlimit]
        refine .tokenError _ hl ?_ hsuccess
        simp [isTokenError, isInvalidCredentials, hrej, hcred, hl, htoken]
      · exact .thrown _ (by simp [isRateLimited, hrej, hlimit])
          (by simp [isTokenError, hrej, htoken]) hsuccess
      · exact .thrown _ (by simp [isRateLimited, hrej, hlimit])
          (by simp [isTokenError, hrej, htoken]) hsuccess
    · rename_i hmessage
      have hrej : rejection data = none := by
        simp only [rejection]
        split_ifs <;> rfl
      exact .thrown _ (by simp [isRateLimited, hrej]) (by simp [isTokenError, hrej]) hsuccess
  · rw [if_neg hcode]
    have hsuccess : isSuccess data = true := by
      simp only [Bool.and_eq_true, Bool.not_eq_true', not_and, Bool.not_eq_false] at hcode
      by_cases hu : (data.get "code").isUndefined = true
      · simp [isSuccess, hnull, hu]
      · simp [isSuccess, hnull, hcode (by simpa using hu)]
    have hrej := rejection_of_isSuccess hsuccess
    exact .success (by simp [isRateLimited, hrej]) (by simp [isTokenError, hrej]) hsuccess

def isPostTo (url : String) : Item sig → Bool
  | .ask (.post dest _) => dest == url
  | _ => false

def posts (url : String) (tr : List (Item sig)) : Nat := tr.countP (isPostTo url)

/-- A POST gets `result`, no file can be read, and a write succeeds. -/
def reply (result : PostResult) : ∀ op : Op, op.Ans
  | .post _ _ => result
  | .sleep _ => ()
  | .readFile _ => none
  | .writeFile _ _ => none
  | .tick => ()

def withBody (fields : List (String × Value)) : PostResult := .response ⟨none, none⟩ (.obj fields)

def expired : PostResult := withBody [("code", .num 2001)]

def config : Config := ⟨some "api key", some "key id", .ok "tokens.json"⟩

end WyzeCams.Api
