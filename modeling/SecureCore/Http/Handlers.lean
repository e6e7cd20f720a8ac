import SecureCore.Http.Handling
import SecureCore.Http.QueryReaders
import SecureCore.Http.Registration
import SecureCore.Service.AccountSecurityService

/-! # The handlers of the routes

One handler for each route of the server, in the order of the route files. What a handler
reads of its request comes first, by itself. -/

namespace SecureCore

set_option autoImplicit false

open Interleaving Handling RequestValidation

/-! ## What the handlers read -/

section inputs

variable (json : JsonLibrary) (request : HttpMessage)

def JsonObjectValidator.requiredBoolean (validator : JsonObjectValidator) (field : String) :
    Option Bool × JsonObjectValidator :=
  match validator.object.find field with
  | none => (none, validator.addError field "is required")
  | some (.boolean value) => (some value, validator)
  | some _ => (none, validator.addError field "must be a boolean")

def loginInput : Except Thrown (String × String) := do
  let body ← parseJsonObject json request
  let validator : JsonObjectValidator := { object := body }
  let (login, validator) := validator.requiredString "login" 1 254
  let (password, validator) := validator.requiredString "password" 1 128
  validator.throwIfInvalid
  .ok (login.getD "", password.getD "")

def refreshInput : Except Thrown String := do
  let body ← parseJsonObject json request
  let validator : JsonObjectValidator := { object := body }
  let (refreshToken, validator) := validator.requiredString "refresh_token" 1 512
  validator.throwIfInvalid
  .ok (refreshToken.getD "")

def echoInput : Except Thrown String := do
  let body ← parseJsonObject json request
  let validator : JsonObjectValidator := { object := body }
  let (message, validator) := validator.requiredString "message" 1 1024
  validator.throwIfInvalid
  .ok (message.getD "")

def changePasswordInput : Except Thrown (String × String) := do
  let body ← parseJsonObject json request
  let validator : JsonObjectValidator := { object := body }
  let (currentPassword, validator) := validator.requiredString "current_password" 1 128
  let (newPassword, validator) := validator.requiredString "new_password" 1 128
  let validator := validator.check newPassword validPasswordInput "new_password"
    "must contain between 8 and 128 bytes"
  validator.throwIfInvalid
  .ok (currentPassword.getD "", newPassword.getD "")

def statusInput : Except Thrown Bool := do
  let body ← parseJsonObject json request
  let validator : JsonObjectValidator := { object := body }
  let (enabled, validator) := validator.requiredBoolean "enabled"
  validator.throwIfInvalid
  .ok (enabled.getD false)

def roleInput : Except Thrown String := do
  let body ← parseJsonObject json request
  let validator : JsonObjectValidator := { object := body }
  let (role, validator) := validator.requiredString "role" 1 64
  validator.throwIfInvalid
  .ok (role.getD "")

/-- The role in the path of a revocation. -/
def roleParameter (parameters : RouteParameters) : Except Thrown String :=
  match parameters.lookup "role".toList with
  | none | some [] => .error (validationFailed "role" "must be a non-empty role name")
  | some role => .ok (String.ofList role)

def pathId (parameters : RouteParameters) : Except Thrown Int :=
  requirePathInteger parameters "id" 1 (2 ^ 63 - 1)

def listLimit : Except Thrown Int := queryIntegerOrDefault request "limit" 50 1 100

def listOffset : Except Thrown Int := queryIntegerOrDefault request "offset" 0 0 (2 ^ 63 - 1)

def auditFilter : Except Thrown AuditEventFilter := do
  let limit ← listLimit request
  let offset ← listOffset request
  let actorUserId ← optionalPositiveIntegerQuery request "actor_user_id"
  let eventType ← optionalQueryString request "event_type" 96
  let outcome ← optionalQueryString request "outcome" 16
  if outcome.any (fun outcome => outcome != "success".toList && outcome != "failure".toList) then
    .error (validationFailed "outcome" "must be success or failure")
  else .ok ⟨actorUserId, String.ofList (eventType.getD []), String.ofList (outcome.getD []), limit, offset⟩

end inputs

/-- The address under which a login is counted. -/
def currentClientIp (context : Option RequestAuditContext) : String :=
  match context with
  | some context => if context.clientIp.isEmpty then "<unknown>" else context.clientIp
  | none => "<unknown>"

/-! ## What the handlers catch -/

def authErrorOf : Exception → Option (AuthErrorCode × Nat)
  | .authError code _ retryAfterSeconds => some (code, retryAfterSeconds)
  | _ => none

def registrationErrorOf : Exception → Option RegistrationErrorCode
  | .registrationError code _ => some code
  | _ => none

def authRefusal : Exception → Option Refusal
  | .authError code _ _ => some (.auth code)
  | _ => none

def accountRefusal : Exception → Option Refusal
  | .authError code _ _ => some (.auth code)
  | .accountSecurityError code _ => some (.accountSecurity code)
  | _ => none

def adminRefusal : Exception → Option Refusal
  | .authError code _ _ => some (.auth code)
  | .adminError code _ => some (.admin code)
  | _ => none

/-! ## What the handlers answer -/

section answers

variable (json : JsonLibrary)

def makeValidationError (details : List ApiErrorDetail) : Except Thrown HttpResponse :=
  makeApiErrorResponse json 422 ⟨"validation_failed", defaultApiErrorMessage "validation_failed", details⟩

def makePublicUserJson (user : User) : Json :=
  .object (Json.Members.ofList [("id", .integer user.id), ("username", .string user.username),
    ("email", .string user.email), ("role", .string user.role), ("enabled", .boolean user.enabled),
    ("created_at", .string user.createdAt), ("updated_at", .string user.updatedAt)])

def makeLoginResultJson (result : LoginResult) : Json :=
  .object (Json.Members.ofList [("token_type", .string "Bearer"),
    ("access_token", .string result.tokens.accessToken),
    ("refresh_token", .string result.tokens.refreshToken),
    ("access_expires_at", .integer result.tokens.accessExpiresAt),
    ("refresh_expires_at", .integer result.tokens.refreshExpiresAt),
    ("user", makePublicUserJson result.user)])

/-- auth_error_status of routes.cpp. -/
def routesAuthErrorStatus : AuthErrorCode → Nat
  | .loginThrottled => 429
  | code => authErrorStatus code

def makeAuthErrorResponse (code : AuthErrorCode) (retryAfterSeconds : Nat) : Except Thrown HttpResponse := do
  let status := routesAuthErrorStatus code
  let response ← makeJsonError json status (authErrorName code)
  let response := if status = 401 then response.set "WWW-Authenticate" "Bearer".toList else response
  .ok (if status = 429 ∧ 0 < retryAfterSeconds then response.set "Retry-After" (decimal retryAfterSeconds)
    else response)

def registrationErrorResponse : RegistrationErrorCode → Except Thrown HttpResponse
  | .duplicateUser => makeJsonError json 409 "duplicate_user"
  | .invalidUsername => makeValidationError json
    [⟨"username", "must contain 3 to 32 ASCII letters, digits, '_' or '-'"⟩]
  | .invalidEmail => makeValidationError json [⟨"email", "must be a valid email address"⟩]
  | .weakPassword => makeValidationError json [⟨"password", "must contain between 8 and 128 bytes"⟩]

def accountErrorResponse : AccountSecurityErrorCode → Except Thrown HttpResponse
  | .sessionNotFound => makeJsonError json 404 "session_not_found"
  | .invalidCurrentPassword => makeJsonError json 400 "invalid_current_password"
  | .weakNewPassword => makeValidationError json [⟨"new_password", "must contain between 8 and 128 bytes"⟩]
  | .samePassword => makeJsonError json 409 "same_password"

/-- admin_error_response of admin_routes.cpp. -/
def adminRoutesErrorResponse : AdminErrorCode → Except Thrown HttpResponse
  | .invalidPagination => makeValidationError json
    [⟨"pagination", "limit and offset are outside the allowed range"⟩]
  | code => adminErrorResponse json code

/-- admin_error_response of audit_routes.cpp. -/
def auditRoutesErrorResponse : AdminErrorCode → Except Thrown HttpResponse
  | .forbidden => makeJsonError json 403 "permission_required"
  | _ => makeJsonError json 500 "internal_server_error"

/-- The catch clauses of a handler, with its own answers to an AdminError. -/
def refusalAnswer (adminAnswer : AdminErrorCode → Except Thrown HttpResponse) :
    Refusal → Except Thrown HttpResponse
  | .auth code => authErrorResponse json code
  | .accountSecurity code => accountErrorResponse json code
  | .admin code => adminAnswer code
  | .registration code => registrationErrorResponse json code

def noContent (request : HttpMessage) : Except Thrown HttpResponse := RouteResponse.noContent.build json request

def sessionJson (current : Int) (session : AuthSession) : Json :=
  .object (Json.Members.ofList [("id", .integer session.id), ("current", .boolean (session.id == current)),
    ("access_expires_at", .integer session.accessExpiresAt),
    ("refresh_expires_at", .integer session.refreshExpiresAt), ("created_at", .string session.createdAt)])

end answers

/-! ## The handlers -/

section handlers

variable (json : JsonLibrary) (service : AuthService) (context : Option RequestAuditContext)
  (request : HttpMessage) (parameters : RouteParameters)

def withBearerToken (handler : String → Handling HttpResponse) : Handling HttpResponse :=
  match bearerToken request with
  | none => lift (missingTokenResponse json)
  | some token => handler token

def healthHandler : Handling HttpResponse :=
  lift (makeJsonResponse json 200 (.object (Json.Members.ofList [("status", .string "ok")])))

/-- The phase is read twice: whether the server is ready, and what it is else. -/
def readyHandler : Handling HttpResponse := do
  let healthy ← ask (Database.withLockedHandle (Sql.select (.databaseError "SELECT 1") (fun _ => ()) (fun _ => [])))
  let ready ← observe (fun moment => ServiceState.ready moment.phase)
  if !ready then
    let status ← observe (fun moment => moment.phase.name)
    lift (makeJsonResponse json 503 (.object (Json.Members.ofList [("status", .string status),
      ("database", .string (if healthy.isOk then "ok" else "unavailable"))])))
  else if healthy.isOk then
    lift (makeJsonResponse json 200
      (.object (Json.Members.ofList [("status", .string "ready"), ("database", .string "ok")])))
  else
    lift (makeJsonResponse json 503
      (.object (Json.Members.ofList [("status", .string "not_ready"), ("database", .string "unavailable")])))

def registerHandler : Handling HttpResponse := do
  let (username, email, password) ← lift (registrationInput json request)
  calling (UserService.registerUser service.sodium username email password) registrationErrorOf
    (fun user => do
      let response ← lift (makeJsonResponse json 201
        (.object (Json.Members.ofList [("user", makePublicUserJson user)])))
      record json context (.register (.ok (user.id, user.username)))
      pure (response.set "Location" ("/v1/users/".toList ++ decimal user.id)))
    (fun code => do
      record json context (.register (.error (.registration code)))
      lift (registrationErrorResponse json code))

def loginHandler : Handling HttpResponse := do
  let (login, password) ← lift (loginInput json request)
  calling (service.login login password (currentClientIp context)) authErrorOf
    (fun result => do
      record json context (.login (.ok result.user.id))
      lift (makeJsonResponse json 200 (makeLoginResultJson result)))
    (fun error => do
      record json context (.login (.error error))
      lift (makeAuthErrorResponse json error.1 error.2))

def refreshHandler : Handling HttpResponse := do
  let refreshToken ← lift (refreshInput json request)
  calling (service.refresh refreshToken) authErrorOf
    (fun result => do
      record json context (.refresh (.ok result.user.id))
      lift (makeJsonResponse json 200 (makeLoginResultJson result)))
    (fun error => do
      record json context (.refresh (.error error.1))
      lift (makeAuthErrorResponse json error.1 error.2))

def logoutHandler : Handling HttpResponse :=
  withBearerToken json request (fun token =>
    calling (service.logoutAccessToken token) (fun _ => (none : Option Empty))
      (fun result => do
        record json context (.logout result.userId result.revoked)
        lift (noContent json request))
      Empty.elim)

def logoutAllHandler : Handling HttpResponse :=
  withBearerToken json request (fun token =>
    calling (service.logoutAllAccessToken token) authErrorOf
      (fun result => do
        record json context (.logoutAll (.ok (result.userId, result.revokedSessions)))
        lift (makeJsonResponse json 200
          (.object (Json.Members.ofList [("revoked_sessions", .integer result.revokedSessions)]))))
      (fun error => do
        record json context (.logoutAll (.error (.auth error.1)))
        lift (makeAuthErrorResponse json error.1 error.2)))

def meHandler : Handling HttpResponse :=
  withBearerToken json request (fun token =>
    calling (service.authenticateAccessToken token) authErrorOf
      (fun user => lift (makeJsonResponse json 200
        (.object (Json.Members.ofList [("user", makePublicUserJson user)]))))
      (fun error => lift (makeAuthErrorResponse json error.1 error.2)))

def echoHandler : Handling HttpResponse := do
  let message ← lift (echoInput json request)
  lift (makeJsonResponse json 200
    (.object (Json.Members.ofList [("message", .string message), ("received", .boolean true)])))

def listSessionsHandler : Handling HttpResponse :=
  withBearerToken json request (fun token =>
    calling (AccountSecurityService.listSessions service token) authRefusal
      (fun result => lift (makeJsonResponse json 200 (.object (Json.Members.ofList
        [("sessions", .array (result.sessions.map (sessionJson result.currentSessionId))),
          ("count", .integer result.sessions.length)]))))
      (fun refusal => lift (refusalAnswer json (adminErrorResponse json) refusal)))

def revokeSessionHandler : Handling HttpResponse :=
  withBearerToken json request (fun token => do
    let sessionId ← lift (pathId parameters)
    calling (AccountSecurityService.revokeSession service token sessionId) accountRefusal
      (fun result => do
        record json context (.revokeSession sessionId (.ok (result.userId, result.revoked)))
        lift (noContent json request))
      (fun refusal => do
        record json context (.revokeSession sessionId (.error refusal))
        lift (refusalAnswer json (adminErrorResponse json) refusal)))

def changePasswordHandler : Handling HttpResponse :=
  withBearerToken json request (fun token => do
    let (currentPassword, newPassword) ← lift (changePasswordInput json request)
    calling (AccountSecurityService.changePassword service token currentPassword newPassword) accountRefusal
      (fun result => do
        record json context (.changePassword (.ok (result.userId, result.revokedSessions)))
        lift (makeJsonResponse json 200 (.object (Json.Members.ofList
          [("password_changed", .boolean true), ("revoked_sessions", .integer result.revokedSessions)]))))
      (fun refusal => do
        record json context (.changePassword (.error refusal))
        lift (refusalAnswer json (adminErrorResponse json) refusal)))

def listUsersHandler : Handling HttpResponse :=
  withBearerToken json request (fun token => do
    let limit ← lift (listLimit request)
    let offset ← lift (listOffset request)
    calling (AdminService.listUsers service token limit offset) adminRefusal
      (fun result => lift (makeJsonResponse json 200 (.object (Json.Members.ofList
        [("users", .array (result.users.map makePublicUserJson)), ("total", .integer result.total),
          ("limit", .integer result.limit), ("offset", .integer result.offset)]))))
      (fun refusal => lift (refusalAnswer json (adminRoutesErrorResponse json) refusal)))

def getUserHandler : Handling HttpResponse :=
  withBearerToken json request (fun token => do
    let userId ← lift (pathId parameters)
    calling (AdminService.getUser service token userId) adminRefusal
      (fun user => lift (makeJsonResponse json 200
        (.object (Json.Members.ofList [("user", makePublicUserJson user)]))))
      (fun refusal => lift (refusalAnswer json (adminRoutesErrorResponse json) refusal)))

def setUserStatusHandler : Handling HttpResponse :=
  withBearerToken json request (fun token => do
    let userId ← lift (pathId parameters)
    let enabled ← lift (statusInput json request)
    calling (AdminService.setUserEnabled service token userId enabled) adminRefusal
      (fun result => do
        record json context (.setUserEnabled userId enabled
          (.ok (result.administratorId, result.user, result.revokedSessions)))
        lift (makeJsonResponse json 200 (.object (Json.Members.ofList
          [("user", makePublicUserJson result.user), ("revoked_sessions", .integer result.revokedSessions)]))))
      (fun refusal => do
        record json context (.setUserEnabled userId enabled (.error refusal))
        lift (refusalAnswer json (adminRoutesErrorResponse json) refusal)))

def listRolesHandler : Handling HttpResponse :=
  withBearerToken json request (fun token =>
    calling (AdminService.listRoles service token) adminRefusal
      (fun roles => lift (makeJsonResponse json 200 (.object (Json.Members.ofList [("roles", rolesJson roles)]))))
      (fun refusal => lift (refusalAnswer json (adminErrorResponse json) refusal)))

def listPermissionsHandler : Handling HttpResponse :=
  withBearerToken json request (fun token =>
    calling (AdminService.listPermissions service token) adminRefusal
      (fun permissions => lift (makeJsonResponse json 200
        (.object (Json.Members.ofList [("permissions", .array (permissions.map permissionJson))]))))
      (fun refusal => lift (refusalAnswer json (adminErrorResponse json) refusal)))

def listUserRolesHandler : Handling HttpResponse :=
  withBearerToken json request (fun token => do
    let userId ← lift (pathId parameters)
    calling (AdminService.listUserRoles service token userId) adminRefusal
      (fun roles => lift (makeJsonResponse json 200
        (.object (Json.Members.ofList [("user_id", .integer userId), ("roles", rolesJson roles)]))))
      (fun refusal => lift (refusalAnswer json (adminErrorResponse json) refusal)))

def assignRoleHandler : Handling HttpResponse :=
  withBearerToken json request (fun token => do
    let userId ← lift (pathId parameters)
    let role ← lift (roleInput json request)
    calling (AdminService.assignRole service token userId role) adminRefusal
      (fun result => do
        record json context (.assignRole userId role (.ok (result.administratorId, result.changed)))
        lift (makeJsonResponse json 200 (roleChangeJson role result)))
      (fun refusal => do
        record json context (.assignRole userId role (.error refusal))
        lift (refusalAnswer json (adminErrorResponse json) refusal)))

/-- The same as revokeRoleHandler, with AdminService::revoke_role as a call. -/
def revokeRoleHandling : Handling HttpResponse :=
  withBearerToken json request (fun token => do
    let userId ← lift (pathId parameters)
    let role ← lift (roleParameter parameters)
    calling (AdminService.revokeRole service token userId role) adminRefusal
      (fun result => do
        record json context (.revokeRole userId role (.ok (result.administratorId, result.changed)))
        lift (makeJsonResponse json 200 (roleChangeJson role result)))
      (fun refusal => do
        record json context (.revokeRole userId role (.error refusal))
        lift (refusalAnswer json (adminErrorResponse json) refusal)))

def listAuditEventsHandler : Handling HttpResponse :=
  withBearerToken json request (fun token => do
    let filter ← lift (auditFilter request)
    calling (AdminService.authenticateWithPermission service token "audit.read") adminRefusal
      (fun administrator => do
        let events ← selectEvents (fun events => AuditRepository.list events filter)
        let total ← selectEvents (fun events => AuditRepository.count events filter)
        record json context (.listEvents administrator.id events.length filter.offset filter.limit)
        lift (makeJsonResponse json 200 (.object (Json.Members.ofList
          [("events", .array (events.map (auditEventJson json))), ("total", .integer total),
            ("limit", .integer filter.limit), ("offset", .integer filter.offset)]))))
      (fun refusal => lift (refusalAnswer json (auditRoutesErrorResponse json) refusal)))

/-- authorize_metrics answers an AdminError of any kind in one way. -/
def metricsHandler (requireAuthentication : Bool) : Handling HttpResponse := do
  let exposition : Handling HttpResponse := do
    let text ← observe Moment.exposition
    lift ((RouteResponse.metrics text).build json request)
  if !requireAuthentication then exposition
  else withBearerToken json request (fun token =>
    calling (AdminService.authenticateWithPermission service token "metrics.read") adminRefusal
      (fun _ => exposition)
      (fun refusal => lift (match refusal with
        | .auth .tokenCreationFailed => do
          let response ← makeJsonError json 401 (authErrorName .tokenCreationFailed)
          .ok (response.set "WWW-Authenticate" "Bearer".toList)
        | refusal => refusalAnswer json (fun _ => makeJsonError json 403 "permission_required") refusal)))

end handlers

end SecureCore
