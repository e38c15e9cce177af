import RusAuthExample.Contracts

/-!
CallbackBearerAuthorizationFilter and the options it compares with. The options
are validated at start, so their token is never blank; the filter trims the
token it is given and compares encoded bytes with the token as configured.
-/
namespace RusAuthExample
open Utf16Text

/-- The options after validation: ValidateOnStart stops the host otherwise. -/
structure ExampleCallbackOptions where
  callbackBearerToken : Str
  required : isNullOrWhiteSpace (some callbackBearerToken) = false

def optionsError : Str := lit "Example:CallbackBearerToken is required."

/-- Validation of the bound value; a section without the key keeps the default. -/
def validateOptions (configured : Option Str) : Except Str ExampleCallbackOptions :=
  let token := configured.getD (lit "example-callback-token")
  if required : isNullOrWhiteSpace (some token) = false then .ok ⟨token, required⟩
  else .error optionsError

example : ∃ options, validateOptions none = .ok options :=
  ⟨⟨lit "example-callback-token", by decide⟩, rfl⟩

inductive ActionResult where
  | ok
  | notFound
  | badRequest
  | unauthorized
  deriving DecidableEq, Repr

/-- StringValues.ToString() of the values of the Authorization header: the empty ones
    are skipped. -/
def authorizationHeader (values : List Str) : Str :=
  (lit ",").intercalate (values.filter (· ≠ []))

theorem authorization_header_single (value : Str) : authorizationHeader [value] = value := by
  cases value <;> simp [authorizationHeader]

example : authorizationHeader [[], lit "Bearer secret"] = lit "Bearer secret" := by decide

def bearerPrefix : Str := lit "Bearer "

def tryGetBearerToken (authorizationHeader : Str) : Option Str :=
  if isBlank authorizationHeader then none
  else if startsWithIgnoreCase authorizationHeader bearerPrefix = false then none
  else
    let token := trim (authorizationHeader.drop bearerPrefix.length)
    if isBlank token then none else some token

def fixedTimeEquals (left right : Str) : Bool := getBytes left == getBytes right

def onAuthorization (options : ExampleCallbackOptions) (values : List Str) : Option ActionResult :=
  match tryGetBearerToken (authorizationHeader values) with
  | none => some .unauthorized
  | some providedToken =>
    if fixedTimeEquals providedToken options.callbackBearerToken then none else some .unauthorized

def bearerHeader (token : Str) : List Str := [bearerPrefix ++ token]

theorem starts_with_append (start s : Str) : startsWithIgnoreCase (start ++ s) start = true := by
  simp [startsWithIgnoreCase]

theorem try_get_bearer_header {token : Str} (required : isBlank token = false) :
    tryGetBearerToken (authorizationHeader (bearerHeader token)) = some (trim token) := by
  have header : authorizationHeader (bearerHeader token) = bearerPrefix ++ token :=
    authorization_header_single _
  have notBlank : isBlank (bearerPrefix ++ token) = false := by
    rw [isBlank, List.all_append]
    have : token.all isWhiteSpace = false := required
    simp [this]
  have someToken : isBlank (trim token) = false := by rw [trim_blank_iff, required]
  rw [header, tryGetBearerToken]
  simp [notBlank, starts_with_append, someToken]

/-- The filter trims what it receives but not what it was configured with. -/
theorem own_token_accepted_iff (options : ExampleCallbackOptions) :
    onAuthorization options (bearerHeader options.callbackBearerToken) = none ↔
      Trimmed options.callbackBearerToken := by
  rw [onAuthorization, try_get_bearer_header options.required, ← trim_eq_self_iff,
    ← get_bytes_trim_eq_iff]
  simp [fixedTimeEquals]

end RusAuthExample
