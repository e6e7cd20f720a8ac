import SecureCore.Http.Router

/-! # Validation of requests

The readers of JSON bodies and of path and query parameters, those of the audit routes among
them, and the rules for what a registration may contain. -/

namespace SecureCore

set_option autoImplicit false

open TrustedProxyResolver

/-- std::from_chars on a 64-bit integer, with what it leaves unread. -/
inductive FromChars where
  | invalidArgument
  | resultOutOfRange
  | parsed (result : Int) (rest : List Char)
  deriving DecidableEq, Repr

def fromChars (value : List Char) : FromChars :=
  let negative := value.head? == some '-'
  let text := if negative then value.tail else value
  let digits := text.takeWhile Char.isDigit
  if digits.isEmpty then .invalidArgument
  else
    let result : Int := if negative then -(decimalValue digits : Int) else decimalValue digits
    if result < -2 ^ 63 ∨ 2 ^ 63 ≤ result then .resultOutOfRange
    else .parsed result (text.dropWhile Char.isDigit)

def parseInteger (value : List Char) (minimum maximum : Int) : Option Int :=
  if value.isEmpty then none
  else match fromChars value with
    | .parsed result [] => if result < minimum ∨ maximum < result then none else some result
    | _ => none

def validationFailed (field reason : String) : Thrown :=
  .api 422 ⟨"validation_failed", defaultApiErrorMessage "validation_failed", [⟨field, reason⟩]⟩

def queryIntegerOrDefault (request : HttpMessage) (name : String)
    (defaultValue minimum maximum : Int) : Except Thrown Int :=
  match queryParameter request.target name.toList with
  | none => .ok defaultValue
  | some value =>
    match parseInteger value minimum maximum with
    | some parsed => .ok parsed
    | none => .error (validationFailed name
        ("must be an integer between " ++ toString minimum ++ " and " ++ toString maximum))

def requirePathInteger (parameters : RouteParameters) (name : String) (minimum maximum : Int) :
    Except Thrown Int :=
  match (parameters.lookup name.toList).bind (fun value => parseInteger value minimum maximum) with
  | some parsed => .ok parsed
  | none => .error (validationFailed name
      ("must be an integer between " ++ toString minimum ++ " and " ++ toString maximum))

/-! ## JSON bodies -/

def throwApiError (status : Nat) (code : String) : Thrown := .api status ⟨code, defaultApiErrorMessage code, []⟩

def parseJsonObject (json : JsonLibrary) (request : HttpMessage) : Except Thrown Json.Members :=
  if !hasJsonContentType request then .error (throwApiError 415 "unsupported_media_type")
  else if request.body.isEmpty then .error (throwApiError 400 "empty_body")
  else match json.parse request.body with
    | none => .error (throwApiError 400 "invalid_json")
    | some (.object members) => .ok members
    | some _ => .error (validationFailed "$" "must be a JSON object")

def rangeReason (minimumSize maximumSize : Nat) : String :=
  if minimumSize = 1 then
    "must not be empty and must contain no more than " ++ toString maximumSize ++ " bytes"
  else "must contain between " ++ toString minimumSize ++ " and " ++ toString maximumSize ++ " bytes"

structure JsonObjectValidator where
  object : Json.Members
  details : List ApiErrorDetail := []

namespace JsonObjectValidator

def addError (validator : JsonObjectValidator) (field reason : String) : JsonObjectValidator :=
  { validator with details := validator.details ++ [⟨field, reason⟩] }

def requiredString (validator : JsonObjectValidator) (field : String) (minimumSize maximumSize : Nat) :
    Option String × JsonObjectValidator :=
  match validator.object.find field with
  | none => (none, validator.addError field "is required")
  | some (.string value) =>
    if value.length < minimumSize ∨ maximumSize < value.length then
      (none, validator.addError field (rangeReason minimumSize maximumSize))
    else (some value, validator)
  | some _ => (none, validator.addError field "must be a string")

def throwIfInvalid (validator : JsonObjectValidator) : Except Thrown Unit :=
  if validator.details.isEmpty then .ok ()
  else .error (.api 422
    ⟨"validation_failed", defaultApiErrorMessage "validation_failed", validator.details⟩)

end JsonObjectValidator

/-! ## Registrations -/

namespace RequestValidation

def isAsciiLetter (character : Char) : Bool :=
  ('a' ≤ character && character ≤ 'z') || ('A' ≤ character && character ≤ 'Z')

def isAsciiDigit (character : Char) : Bool := '0' ≤ character && character ≤ '9'

/-- `std::isspace` in the C locale. -/
def isSpace (character : Char) : Bool :=
  character == ' ' || character == '\t' || character == '\n' || character == '\x0b' ||
    character == '\x0c' || character == '\r'

def validUsernameInput (username : String) : Bool :=
  let normalized := trimCopy username
  if normalized.length < 3 ∨ 32 < normalized.length then false
  else normalized.toList.all (fun character => isAsciiLetter character || isAsciiDigit character ||
    character == '_' || character == '-')

/-- The checks of an address by its positions. -/
def validEmailBytes (normalized : List Char) : Bool :=
  if normalized.length < 3 ∨ 254 < normalized.length then false
  else match findFrom normalized '@' 0 with
    | none => false
    | some atPosition =>
      if atPosition = 0 ∨ normalized.length ≤ atPosition + 1 ∨
          (findFrom normalized '@' (atPosition + 1)).isSome = true ∨ 64 < atPosition then false
      else match findFrom normalized '.' (atPosition + 2) with
        | none => false
        | some dotPosition =>
          if normalized.length ≤ dotPosition + 1 then false
          else normalized.all (fun character => !isSpace character)

def validEmailInput (email : String) : Bool := validEmailBytes (trimCopy email).toList

def validPasswordInput (password : String) : Bool := 8 ≤ password.length && password.length ≤ 128

end RequestValidation

/-! ## Filters of the audit log -/

def optionalQueryString (request : HttpMessage) (name : String) (maximumSize : Nat) :
    Except Thrown (Option (List Char)) :=
  match queryParameter request.target name.toList with
  | none => .ok none
  | some value =>
    if value.isEmpty || maximumSize < value.length then
      .error (validationFailed name "must be a non-empty value within the allowed length")
    else .ok (some value)

def optionalPositiveIntegerQuery (request : HttpMessage) (name : String) :
    Except Thrown (Option Int) :=
  match queryParameter request.target name.toList with
  | none => .ok none
  | some value =>
    let invalid := validationFailed name "must be a positive integer"
    match fromChars value with
    | .parsed parsed [] => if parsed ≤ 0 then .error invalid else .ok (some parsed)
    | _ => .error invalid

end SecureCore
