import SecureCore.Http.ApiError
import SecureCore.Service.AuditService

/-! # The audit events of the routes

What the route handlers record, and how GET /v1/admin/audit-events lists it. -/

namespace SecureCore

set_option autoImplicit false

/-! ## Names of the errors -/

def authErrorName : AuthErrorCode → String
  | .invalidCredentials => "invalid_credentials"
  | .loginThrottled => "login_throttled"
  | .accountDisabled => "account_disabled"
  | .invalidAccessToken => "invalid_access_token"
  | .accessTokenExpired => "access_token_expired"
  | .invalidRefreshToken => "invalid_refresh_token"
  | .refreshTokenExpired => "refresh_token_expired"
  | .refreshTokenReused => "refresh_token_reused"
  | .tokenCreationFailed => "token_creation_failed"

def accountSecurityErrorName : AccountSecurityErrorCode → String
  | .sessionNotFound => "session_not_found"
  | .invalidCurrentPassword => "invalid_current_password"
  | .weakNewPassword => "weak_new_password"
  | .samePassword => "same_password"

def adminErrorName : AdminErrorCode → String
  | .forbidden => "permission_required"
  | .invalidPagination => "invalid_pagination"
  | .userNotFound => "user_not_found"
  | .cannotDisableSelf => "cannot_disable_self"
  | .cannotRemoveLastSuperAdmin => "cannot_remove_last_super_admin"
  | .cannotRemoveBaseRole => "cannot_remove_base_role"
  | .roleNotFound => "role_not_found"

def registrationErrorName : RegistrationErrorCode → String
  | .invalidUsername => "invalid_username"
  | .invalidEmail => "invalid_email"
  | .weakPassword => "weak_password"
  | .duplicateUser => "duplicate_user"

/-- The errors that a handler catches. -/
inductive Refusal where
  | auth (code : AuthErrorCode)
  | accountSecurity (code : AccountSecurityErrorCode)
  | admin (code : AdminErrorCode)
  | registration (code : RegistrationErrorCode)
  deriving DecidableEq, Repr

def Refusal.name : Refusal → String
  | .auth code => authErrorName code
  | .accountSecurity code => accountSecurityErrorName code
  | .admin code => adminErrorName code
  | .registration code => registrationErrorName code

/-! ## The records -/

/-- The calls of AuditService::record, with the results that they report. -/
inductive AuditedCall where
  | register (result : Except Refusal (Int × String))
  | login (result : Except (AuthErrorCode × Nat) Int)
  | refresh (result : Except AuthErrorCode Int)
  | logout (userId : Option Int) (revoked : Bool)
  | logoutAll (result : Except Refusal (Int × Int))
  | revokeSession (sessionId : Int) (result : Except Refusal (Int × Bool))
  | changePassword (result : Except Refusal (Int × Int))
  | setUserEnabled (userId : Int) (enabled : Bool) (result : Except Refusal (Int × User × Int))
  | assignRole (userId : Int) (role : String) (result : Except Refusal (Int × Bool))
  | revokeRole (userId : Int) (role : String) (result : Except Refusal (Int × Bool))
  | listEvents (administratorId returned offset limit : Int)

variable (json : JsonLibrary)

/-- A record with the dump of an object; none if dump throws. -/
def auditRecord (actorUserId : Option Int) (eventType outcome targetType : String)
    (targetId : Option Int) (metadata : List (String × Json)) : Option AuditRecord :=
  (json.dump (.object (Json.Members.ofList metadata))).map
    (fun text => { actorUserId, eventType, outcome, targetType, targetId, metadataJson := text })

def reason (refusal : Refusal) : String × Json := ("reason", .string refusal.name)

/-- The records of assign_role_handler and revoke_role_handler. -/
def roleRecord (eventType : String) (userId : Int) (role : String) :
    Except Refusal (Int × Bool) → Option AuditRecord
  | .ok (administratorId, changed) => auditRecord json (some administratorId) eventType "success" "user"
    (some userId) [("role", .string role), ("changed", .boolean changed)]
  | .error refusal => auditRecord json none eventType "failure" "user" (some userId)
    [("role", .string role), reason refusal]

def AuditedCall.record : AuditedCall → Option AuditRecord
  | .register (.ok (userId, username)) => auditRecord json (some userId) "user.register" "success" "user"
    (some userId) [("username", .string username)]
  | .register (.error refusal) => auditRecord json none "user.register" "failure" "user" none
    [reason refusal]
  | .login (.ok userId) => auditRecord json (some userId) "auth.login" "success" "user" (some userId) []
  | .login (.error (code, retryAfterSeconds)) => auditRecord json none
    (if code = .loginThrottled then "auth.login_throttled" else "auth.login") "failure" "user" none
    (reason (.auth code) :: if 0 < retryAfterSeconds then
      [("retry_after_seconds", .integer retryAfterSeconds)] else [])
  | .refresh (.ok userId) => auditRecord json (some userId) "auth.refresh" "success" "user" (some userId) []
  | .refresh (.error code) => auditRecord json none
    (if code = .refreshTokenReused then "auth.refresh_reuse" else "auth.refresh") "failure"
    "authentication_session" none [reason (.auth code)]
  | .logout userId revoked => auditRecord json userId "auth.logout"
    (if revoked then "success" else "failure") "authentication_session" none [("revoked", .boolean revoked)]
  | .logoutAll (.ok (userId, revokedSessions)) => auditRecord json (some userId) "auth.logout_all"
    "success" "user" (some userId) [("revoked_sessions", .integer revokedSessions)]
  | .logoutAll (.error refusal) => auditRecord json none "auth.logout_all" "failure" "user" none
    [reason refusal]
  | .revokeSession sessionId (.ok (userId, revoked)) => auditRecord json (some userId)
    "account.session_revoke" "success" "authentication_session" (some sessionId)
    [("revoked", .boolean revoked)]
  | .revokeSession sessionId (.error refusal) => auditRecord json none "account.session_revoke"
    "failure" "authentication_session" (some sessionId) [reason refusal]
  | .changePassword (.ok (userId, revokedSessions)) => auditRecord json (some userId)
    "account.password_change" "success" "user" (some userId)
    [("revoked_sessions", .integer revokedSessions)]
  | .changePassword (.error refusal) => auditRecord json none "account.password_change" "failure"
    "user" none [reason refusal]
  | .setUserEnabled _ enabled (.ok (administratorId, user, revokedSessions)) => auditRecord json
    (some administratorId) (if enabled then "admin.user_enable" else "admin.user_disable") "success"
    "user" (some user.id) [("enabled", .boolean user.enabled), ("revoked_sessions", .integer revokedSessions)]
  | .setUserEnabled userId enabled (.error refusal) => auditRecord json none
    (if enabled then "admin.user_enable" else "admin.user_disable") "failure" "user" (some userId)
    [reason refusal]
  | .assignRole userId role result => roleRecord json "rbac.role_assign" userId role result
  | .revokeRole userId role result => roleRecord json "rbac.role_revoke" userId role result
  | .listEvents administratorId returned offset limit => auditRecord json (some administratorId)
    "audit.events.read" "success" "audit_event" none
    [("returned", .integer returned), ("offset", .integer offset), ("limit", .integer limit)]

/-! ## The listing -/

def optionalInteger : Option Int → Json
  | some value => .integer value
  | none => .null

def auditEventJson (event : AuditEvent) : Json :=
  let metadata := (json.parse event.metadataJson).getD (.object [])
  let result := Json.Members.ofList [("id", .integer event.id), ("event_type", .string event.eventType),
    ("outcome", .string event.outcome), ("target_type", .string event.targetType),
    ("request_id", .string event.requestId), ("client_ip", .string event.clientIp),
    ("user_agent", .string event.userAgent), ("metadata", metadata),
    ("created_at", .string event.createdAt)]
  let result := Json.Members.insert result "actor_user_id" (optionalInteger event.actorUserId)
  .object (Json.Members.insert result "target_id" (optionalInteger event.targetId))

/-- list_audit_events_handler behind the check of the permission. -/
def listAuditEvents (events : Relational.Table AuditEvent) (filter : AuditEventFilter) :
    Except Thrown HttpResponse := do
  let result ← (AuditService.listEvents events filter).mapError .standard
  makeJsonResponse json 200 (.object (Json.Members.ofList [
    ("events", .array (result.events.map (auditEventJson json))), ("total", .integer result.total),
    ("limit", .integer result.limit), ("offset", .integer result.offset)]))

end SecureCore
