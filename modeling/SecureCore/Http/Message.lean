import SecureCore.Net.TrustedProxy
import SecureCore.Model.Records

/-! # HTTP messages

The parts of boost::beast::http that the program uses, as they are documented. An
`HttpRequest` is the header of a request; the whole message is an `HttpMessage`. -/

namespace SecureCore

set_option autoImplicit false

open TrustedProxy

abbrev Fields := List HttpField

namespace Fields

/-- The values of all fields of a name, in their order. -/
def valuesOf (fields : Fields) (name : String) : List (List Char) :=
  (fields.filter (fun field => iequals field.name name)).map HttpField.value

def find (fields : Fields) (name : String) : Option (List Char) := (fields.valuesOf name).head?

def erase (fields : Fields) (name : String) : Fields :=
  fields.filter (fun field => !iequals field.name name)

/-- All fields of the name give way to one. -/
def set (fields : Fields) (name : String) (value : List Char) : Fields :=
  fields.erase name ++ [⟨name, value⟩]

end Fields

/-! ## Token lists -/

def tokens (value : List Char) : List (List Char) :=
  ((value.splitOn ',').map trimChars).filter (fun token => !token.isEmpty)

def joinTokens : List (List Char) → List Char
  | [] => []
  | token :: rest => [','].intercalate (token :: rest.map (fun token => ' ' :: token))

def isToken (name : String) (token : List Char) : Bool :=
  lowercaseChars token == lowercaseChars name.toList

def hasToken (value : List Char) (name : String) : Bool := (tokens value).any (isToken name)

namespace Fields

/-- The field of a token list with these tokens, or none if there are no tokens. -/
def setTokens (fields : Fields) (name : String) (list : List (List Char)) : Fields :=
  if list.isEmpty then fields.erase name else fields.set name (joinTokens list)

/-- message::keep_alive. -/
def keepAlive (fields : Fields) (version : Nat) : Bool :=
  match fields.find "Connection" with
  | none => 11 ≤ version
  | some value => if version < 11 then hasToken value "keep-alive" else !hasToken value "close"

/-- message::keep_alive(bool). -/
def setKeepAlive (fields : Fields) (version : Nat) (value : Bool) : Fields :=
  let wanted := if version < 11 then "keep-alive" else "close"
  let opposite := if version < 11 then "close" else "keep-alive"
  let kept := (tokens ((fields.find "Connection").getD [])).filter
    (fun token => !isToken opposite token)
  fields.setTokens "Connection" <|
    if value == decide (version < 11) then
      if kept.any (isToken wanted) then kept else kept ++ [wanted.toList]
    else kept.filter (fun token => !isToken wanted token)

/-- The effect of message::chunked(false). -/
def dropChunked (fields : Fields) : Fields :=
  match fields.find "Transfer-Encoding" with
  | none => fields
  | some value => fields.setTokens "Transfer-Encoding"
    ((tokens value).filter (fun token => !isToken "chunked" token))

end Fields

/-! ## Messages -/

structure HttpMessage where
  /-- 10 and 11 stand for HTTP/1.0 and HTTP/1.1. -/
  version : Nat
  method : String
  target : List Char
  fields : HttpRequest
  body : String
  deriving DecidableEq, Repr

def HttpMessage.keepAlive (request : HttpMessage) : Bool := Fields.keepAlive request.fields request.version

structure HttpResponse where
  version : Nat
  status : Nat
  fields : Fields
  body : String
  deriving DecidableEq, Repr

namespace HttpResponse

variable (response : HttpResponse)

/-- The constructor without arguments: HTTP/1.1, 200 and no fields. -/
def initial : HttpResponse := ⟨11, 200, [], ""⟩

def set (name : String) (value : List Char) : HttpResponse :=
  { response with fields := response.fields.set name value }

def setVersion (version : Nat) : HttpResponse := { response with version := version }

def keepAlive : Bool := response.fields.keepAlive response.version

def setKeepAlive (value : Bool) : HttpResponse :=
  { response with fields := response.fields.setKeepAlive response.version value }

def contentLength : HttpResponse :=
  { response with
    fields := (response.fields.set "Content-Length" (Nat.toDigits 10 response.body.length)).dropChunked }

/-- Statuses of responses without a body. -/
def bodiless : Bool := response.status / 100 == 1 || response.status == 204 || response.status == 304

def preparePayload : Except Exception HttpResponse :=
  if response.bodiless && response.body.length != 0 then
    .error (.invalidArgument "invalid response body")
  else .ok response.contentLength

/-- Whether the connection has to be closed behind the message. -/
def needEof : Bool :=
  if response.bodiless || (response.fields.find "Content-Length").isSome ||
      ((response.fields.find "Transfer-Encoding").any (fun value => hasToken value "chunked")) then
    !response.keepAlive
  else true

end HttpResponse

end SecureCore
