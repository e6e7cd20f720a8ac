import SecureCore.Http.AuditRoutes
import SecureCore.Http.RequestValidation
import SecureCore.Service.AdminService

/-! # The routes of roles

revoke_role_handler with all that it sends out: what it records, and what it answers or throws. -/

namespace SecureCore

set_option autoImplicit false

/-! ## Requests -/

def bearerToken (request : HttpMessage) : Option String :=
  let scheme := "Bearer ".toList
  match Fields.find request.fields "Authorization" with
  | none => none
  | some value =>
    if value.length ≤ scheme.length || value.take scheme.length != scheme then none
    else some (String.ofList (value.drop scheme.length))

def revokeRolePattern : List Char := "/v1/admin/users/{id}/roles/{role}".toList

/-- The parameters with which the route is entered. -/
def revokeRoleParameters (target : List Char) : Option RouteParameters :=
  match compilePattern revokeRolePattern with
  | .ok route => matchPattern route (pathFromTarget target)
  | .error _ => none

/-! ## Responses -/

section responses

variable (json : JsonLibrary)

def missingTokenResponse : Except Thrown HttpResponse := do
  let response ← makeJsonError json 401 "missing_access_token"
  .ok (response.set "WWW-Authenticate" "Bearer".toList)

def authErrorStatus : AuthErrorCode → Nat
  | .accountDisabled => 403
  | .tokenCreationFailed => 500
  | _ => 401

def authErrorResponse (code : AuthErrorCode) : Except Thrown HttpResponse := do
  let response ← makeJsonError json (authErrorStatus code) (authErrorName code)
  .ok (if authErrorStatus code = 401 then response.set "WWW-Authenticate" "Bearer".toList else response)

def adminErrorResponse : AdminErrorCode → Except Thrown HttpResponse
  | .forbidden => makeJsonError json 403 "permission_required"
  | .userNotFound => makeJsonError json 404 "user_not_found"
  | .roleNotFound => makeJsonError json 404 "role_not_found"
  | .cannotRemoveLastSuperAdmin => makeJsonError json 409 "cannot_remove_last_super_admin"
  | .cannotRemoveBaseRole => makeJsonError json 409 "cannot_remove_base_role"
  | .cannotDisableSelf => makeJsonError json 409 "cannot_disable_self"
  | .invalidPagination => makeJsonError json 422 "validation_failed"

def permissionJson (permission : Permission) : Json :=
  .object (Json.Members.ofList [("id", .integer permission.id), ("name", .string permission.name),
    ("description", .string permission.description)])

def roleJson (role : Role) : Json :=
  .object (Json.Members.ofList [("id", .integer role.id), ("name", .string role.name),
    ("description", .string role.description), ("built_in", .boolean role.builtIn),
    ("permissions", .array (role.permissions.map permissionJson))])

def rolesJson (roles : List Role) : Json := .array (roles.map roleJson)

/-- The body with which a change of roles is answered. -/
def roleChangeJson (role : String) (result : RoleChangeResult) : Json :=
  .object (Json.Members.ofList [("user_id", .integer result.user.id), ("role", .string role),
    ("changed", .boolean result.changed), ("roles", rolesJson result.roles)])

end responses

/-! ## The handler -/

/-- A handler answers or throws, and passes records to AuditService::record on its way. -/
abbrev AuditingHandler := ExceptT Thrown (StateM (List AuditRecord))

namespace AuditingHandler

variable {α : Type}

def lift (result : Except Thrown α) : AuditingHandler α := ExceptT.mk (pure result)

/-- The dump of the metadata comes first, and may throw. -/
def record : Option AuditRecord → AuditingHandler Unit
  | some record => modify (fun records => records ++ [record])
  | none => throw invalidUtf8

/-- What the handler made of a request: its answer and its records. -/
def outcome (handler : AuditingHandler α) : Except Thrown α × List AuditRecord := handler.run.run []

end AuditingHandler

variable (json : JsonLibrary)

def revokeRoleHandler (revokeRole : String → Int → String → Except Exception RoleChangeResult)
    (request : HttpMessage) (parameters : RouteParameters) : AuditingHandler HttpResponse :=
  match bearerToken request with
  | none => AuditingHandler.lift (missingTokenResponse json)
  | some token => do
    let userId ← AuditingHandler.lift (requirePathInteger parameters "id" 1 (2 ^ 63 - 1))
    match parameters.lookup "role".toList with
    | none | some [] => throw (validationFailed "role" "must be a non-empty role name")
    | some role => do
      let role := String.ofList role
      match revokeRole token userId role with
      | .ok result =>
        AuditingHandler.record
          ((AuditedCall.revokeRole userId role (.ok (result.administratorId, result.changed))).record json)
        AuditingHandler.lift (makeJsonResponse json 200 (roleChangeJson role result))
      | .error (.authError code _ _) =>
        AuditingHandler.record ((AuditedCall.revokeRole userId role (.error (.auth code))).record json)
        AuditingHandler.lift (authErrorResponse json code)
      | .error (.adminError code _) =>
        AuditingHandler.record ((AuditedCall.revokeRole userId role (.error (.admin code))).record json)
        AuditingHandler.lift (adminErrorResponse json code)
      | .error e => throw (.standard e)

end SecureCore
