import SecureCore.Http.MessageRules
import SecureCore.Json.Compact
import SecureCore.Utf8.Bytes

/-! # JSON responses and API errors -/

namespace SecureCore

set_option autoImplicit false

open TrustedProxy

/-! ## nlohmann::json -/

def bytesOf (text : String) : List UInt8 := text.toList.map (fun c => UInt8.ofNat c.toNat)

def ValidUtf8 (text : String) : Prop := Utf8.Valid (bytesOf text)

instance (text : String) : Decidable (ValidUtf8 text) :=
  inferInstanceAs (Decidable (Utf8.Valid (bytesOf text)))

theorem validUtf8_of_ascii {text : String} (h : ∀ c ∈ text.toList, c.toNat < 128) :
    ValidUtf8 text := by
  apply Utf8.valid_of_ascii
  intro b hb
  obtain ⟨c, hc, rfl⟩ := List.mem_map.mp hb
  have hLess := h c hc
  rw [UInt8.lt_iff_toNat_lt, UInt8.toNat_ofNat']
  change c.toNat % 2 ^ 8 < 128
  omega

/-- A literal is the list of its characters. -/
theorem validUtf8_ofList {chars : List Char} (h : chars.all (fun c => c.toNat < 128) = true) :
    ValidUtf8 (String.ofList chars) := by
  apply validUtf8_of_ascii
  rw [String.toList_ofList]
  simpa using h

/-- The two functions of nlohmann::json between texts and values; none is an exception. -/
structure JsonLibrary where
  parse : String → Option Json
  dump : Json → Option String

/-- What the program relies on. -/
structure JsonLibrary.Documented (json : JsonLibrary) : Prop where
  dump_isSome : ∀ value, (json.dump value).isSome = true ↔ ∀ text ∈ value.strings, ValidUtf8 text
  parse_strings : ∀ text value, json.parse text = some value → ∀ s ∈ value.strings, ValidUtf8 s
  parse_proper : ∀ text value, json.parse text = some value → value.proper = true
  parse_nothing : ∀ text : String, text = "" ∨ text.toList.head? = some '#' → json.parse text = none
  parse_dump : ∀ value text, value.proper = true → json.dump value = some text →
    json.parse text = some value

/-! ## Errors -/

structure ApiErrorDetail where
  field : String
  reason : String
  deriving DecidableEq, Repr

structure ApiError where
  code : String
  message : String
  details : List ApiErrorDetail
  deriving DecidableEq, Repr

/-- What a handler can throw: an ApiException, another std::exception, anything else. -/
inductive Thrown where
  | api (status : Nat) (error : ApiError)
  | standard (what : Exception)
  | unknown
  deriving DecidableEq, Repr

/-- nlohmann::json::type_error, thrown by dump. -/
def invalidUtf8 : Thrown := .standard (.runtimeError "invalid UTF-8 byte")

def defaultApiErrorMessage : String → String
  | "bad_request" => "The request is invalid."
  | "not_found" => "The requested resource was not found."
  | "method_not_allowed" => "The HTTP method is not allowed for this resource."
  | "unsupported_media_type" => "Content-Type must be application/json."
  | "empty_body" => "A JSON request body is required."
  | "invalid_json" => "The request body is not valid JSON."
  | "validation_failed" => "Request validation failed."
  | "payload_too_large" => "The request body exceeds the configured size limit."
  | "headers_too_large" => "The request headers exceed the configured size limit."
  | "forwarded_header_too_large" => "Proxy forwarding headers exceed the configured size limit."
  | "invalid_forwarded_header" => "The proxy forwarding header is invalid."
  | "cors_origin_denied" => "The request origin is not allowed."
  | "cors_preflight_denied" => "The CORS preflight request is not allowed."
  | "rate_limit_exceeded" => "Too many requests were sent."
  | "connection_limit_reached" => "The server connection limit has been reached."
  | "server_busy" => "The server is temporarily busy."
  | "server_shutting_down" => "The server is shutting down."
  | "missing_access_token" => "A Bearer access token is required."
  | "invalid_credentials" => "The login or password is invalid."
  | "login_throttled" => "Too many failed login attempts were made. Try again later."
  | "account_disabled" => "The user account is disabled."
  | "invalid_access_token" => "The access token is invalid."
  | "access_token_expired" => "The access token has expired."
  | "invalid_refresh_token" => "The refresh token is invalid."
  | "refresh_token_expired" => "The refresh token has expired."
  | "refresh_token_reused" => "Refresh token reuse was detected and the session chain was revoked."
  | "token_creation_failed" => "Authentication tokens could not be created."
  | "duplicate_user" => "The username or email address is already in use."
  | "admin_permission_required" => "Administrator permission is required."
  | "permission_required" => "The authenticated user does not have the required permission."
  | "role_not_found" => "The requested RBAC role was not found."
  | "cannot_remove_last_super_admin" => "The last enabled super administrator cannot be removed or disabled."
  | "cannot_remove_base_role" => "The base user role cannot be removed."
  | "user_not_found" => "The user was not found."
  | "cannot_disable_self" => "An administrator cannot disable their own account."
  | "session_not_found" => "The authentication session was not found."
  | "invalid_current_password" => "The current password is invalid."
  | "same_password" => "The new password must differ from the current password."
  | "internal_server_error" => "An internal server error occurred."
  | _ => "The request could not be completed."

/-! ## Requests -/

/-- The trim of json_utils.cpp. -/
def trimTabs (value : List Char) : List Char :=
  (value.dropWhile (fun c => c == ' ' || c == '\t')).rdropWhile (fun c => c == ' ' || c == '\t')

def hasJsonContentType (request : HttpMessage) : Bool :=
  match Fields.find request.fields "Content-Type" with
  | none => false
  | some contentType => !contentType.isEmpty &&
    lowercaseChars (trimTabs (contentType.takeWhile (fun c => c != ';'))) == "application/json".toList

/-! ## Responses -/

variable (json : JsonLibrary)

def makeJsonResponse (status : Nat) (body : Json) : Except Thrown HttpResponse :=
  let response := { HttpResponse.initial with status := status }.set "Content-Type"
    "application/json; charset=utf-8".toList
  match json.dump body with
  | none => .error invalidUtf8
  | some text => .ok { response with body := text }

def ApiErrorDetail.toJson (detail : ApiErrorDetail) : Json :=
  .object (Json.Members.ofList [("field", .string detail.field), ("reason", .string detail.reason)])

def ApiError.toJson (error : ApiError) : Json :=
  let members := Json.Members.ofList [("code", .string error.code), ("message", .string error.message)]
  .object (if error.details.isEmpty then members
    else members.insert "details" (.array (error.details.map ApiErrorDetail.toJson)))

def makeApiErrorResponse (status : Nat) (error : ApiError) : Except Thrown HttpResponse :=
  makeJsonResponse json status (.object (Json.Members.ofList [("error", error.toJson)]))

def makeJsonError (status : Nat) (errorCode : String) : Except Thrown HttpResponse :=
  makeApiErrorResponse json status ⟨errorCode, defaultApiErrorMessage errorCode, []⟩

def responseIsJson (response : HttpResponse) : Bool :=
  match response.fields.find "Content-Type" with
  | none => false
  | some contentType => !contentType.isEmpty &&
    lowercaseChars (contentType.takeWhile (fun c => c != ';')) == "application/json".toList

/-- Json::exception is caught, so a text that is no JSON leaves the response as it is. -/
def attachRequestIdToApiError (response : HttpResponse) (requestId : String) :
    Except Thrown HttpResponse :=
  if requestId.isEmpty || response.body.isEmpty || !responseIsJson response then .ok response
  else match json.parse response.body with
    | some (.object body) =>
      match Json.Members.find body "error" with
      | some (.object error) =>
        match json.dump (.object (Json.Members.insert body "error"
            (.object (Json.Members.insert error "request_id" (.string requestId))))) with
        | none => .ok response
        | some text => { response with body := text }.preparePayload.mapError .standard
      | _ => .ok response
    | _ => .ok response

end SecureCore
