import SecureCore.Repository.RbacRepository
import SecureCore.Service.AuthService

/-! # AdminService -/

namespace SecureCore

set_option autoImplicit false

open Interleaving

structure UserStatusResult where
  administratorId : Int
  user : User
  revokedSessions : Nat
  deriving DecidableEq, Repr

structure RoleChangeResult where
  administratorId : Int
  user : User
  roles : List Role
  changed : Bool
  deriving DecidableEq, Repr

structure UserListResult where
  users : List User
  total : Nat
  limit : Int
  offset : Int
  deriving DecidableEq, Repr

namespace AdminService

variable (service : AuthService)

def forbidden (permission : String) : Exception :=
  .adminError .forbidden ("Required permission is missing: " ++ permission)

def userNotFound : Exception := .adminError .userNotFound "User does not exist"

def cannotDisableSelf : Exception :=
  .adminError .cannotDisableSelf "Administrator cannot disable their own account"

def cannotDisableLastSuperAdmin : Exception :=
  .adminError .cannotRemoveLastSuperAdmin
    "The last enabled super administrator cannot be disabled"

def cannotRemoveLastSuperAdmin : Exception :=
  .adminError .cannotRemoveLastSuperAdmin "The last enabled super administrator cannot be removed"

def updatedUserNotFound : Exception :=
  .adminError .userNotFound "Updated user could not be found"

def cannotRemoveBaseRole : Exception :=
  .adminError .cannotRemoveBaseRole "The base user role cannot be removed"

def roleNotFound : Exception := .adminError .roleNotFound "Role does not exist"

def invalidPagination : Exception := .adminError .invalidPagination "Invalid user list pagination"

def authenticateWithPermission (accessToken permission : String) : Call User := do
  let user ← service.authenticateAccessToken accessToken
  let granted ← RbacRepository.hasPermission user.id permission
  Fallible.throwIf (!granted) (forbidden permission)
  pure user

/-- The page and the total are read by two statements. -/
def listUsers (accessToken : String) (limit offset : Int) : Call UserListResult := do
  let _ ← authenticateWithPermission service accessToken "users.read"
  Fallible.throwIf (decide (limit ≤ 0) || decide (100 < limit) || decide (offset < 0)) invalidPagination
  let users ← UserRepository.list limit offset
  let total ← UserRepository.count
  pure ⟨users, total, limit, offset⟩

def getUser (accessToken : String) (userId : Int) : Call User := do
  let _ ← authenticateWithPermission service accessToken "users.read"
  match ← UserRepository.findById userId with
  | none => throw userNotFound
  | some user => pure user

def listRoles (accessToken : String) : Call (List Role) := do
  let _ ← authenticateWithPermission service accessToken "roles.manage"
  RbacRepository.listRoles

def listPermissions (accessToken : String) : Call (List Permission) := do
  let _ ← authenticateWithPermission service accessToken "roles.manage"
  RbacRepository.listPermissions

def listUserRoles (accessToken : String) (userId : Int) : Call (List Role) := do
  let _ ← authenticateWithPermission service accessToken "roles.manage"
  match ← UserRepository.findById userId with
  | none => throw userNotFound
  | some _ => RbacRepository.rolesForUser userId

/-- The guard that every operation repeats: the user is enabled, holds super_admin,
and no other enabled user does. `&&` stops at the first false condition. -/
def lastSuperAdmin (user : User) : Tx Bool := do
  if user.enabled then
    if ← RbacRepository.hasRoleIn user.id "super_admin" then
      let members ← RbacRepository.countEnabledUsersWithRoleIn "super_admin"
      pure (members ≤ 1)
    else pure false
  else pure false

def setUserEnabledIn (targetUserId : Int) (enabled : Bool) : Tx (User × Nat) := do
  match ← UserRepository.findByIdIn targetUserId with
  | none => throw userNotFound
  | some target =>
    let last ← if enabled then pure false else lastSuperAdmin target
    Fallible.throwIf last cannotDisableLastSuperAdmin
    let updated ← UserRepository.setEnabledIn targetUserId enabled
    Fallible.throwIf (!updated) userNotFound
    let revokedSessions ← if enabled then pure 0
      else AuthSessionRepository.revokeAllForUserIn targetUserId
    match ← UserRepository.findByIdIn targetUserId with
    | none => throw updatedUserNotFound
    | some updatedUser =>
      Transaction.commit
      pure (updatedUser, revokedSessions)

def setUserEnabled (accessToken : String) (targetUserId : Int) (enabled : Bool) :
    Call UserStatusResult := do
  let administrator ← authenticateWithPermission service accessToken
    (if enabled then "users.enable" else "users.disable")
  Fallible.throwIf (!enabled && administrator.id == targetUserId) cannotDisableSelf
  let (updatedUser, revokedSessions) ← Database.transaction (setUserEnabledIn targetUserId enabled)
  pure ⟨administrator.id, updatedUser, revokedSessions⟩

def translateRoleNotFound {α : Type} (body : Tx α) : Tx α :=
  tryCatch body (fun error => match error with
    | .rbacRoleNotFoundError _ => throw roleNotFound
    | _ => throw error)

def assignRoleIn (targetUserId : Int) (roleName : String) (assignedBy : Int) :
    Tx (User × Bool) := do
  match ← UserRepository.findByIdIn targetUserId with
  | none => throw userNotFound
  | some _ =>
    let changed ← translateRoleNotFound
      (RbacRepository.assignRoleIn targetUserId roleName (some assignedBy))
    match ← UserRepository.findByIdIn targetUserId with
    | none => throw userNotFound
    | some updated =>
      Transaction.commit
      pure (updated, changed)

/-- The roles of the answer are read after the COMMIT, on another connection. -/
def assignRole (accessToken : String) (targetUserId : Int) (roleName : String) :
    Call RoleChangeResult := do
  let administrator ← authenticateWithPermission service accessToken "roles.manage"
  let (updated, changed) ←
    Database.transaction (assignRoleIn targetUserId roleName administrator.id)
  let roles ← RbacRepository.rolesForUser targetUserId
  pure ⟨administrator.id, updated, roles, changed⟩

def revokeRoleIn (targetUserId : Int) (roleName : String) : Tx (User × Bool) := do
  match ← UserRepository.findByIdIn targetUserId with
  | none => throw userNotFound
  | some target => translateRoleNotFound (do
    let last ← if roleName = "super_admin" then lastSuperAdmin target else pure false
    Fallible.throwIf last cannotRemoveLastSuperAdmin
    let changed ← RbacRepository.revokeRoleIn targetUserId roleName
    match ← UserRepository.findByIdIn targetUserId with
    | none => throw userNotFound
    | some updated =>
      Transaction.commit
      pure (updated, changed))

def revokeRole (accessToken : String) (targetUserId : Int) (roleName : String) :
    Call RoleChangeResult := do
  let administrator ← authenticateWithPermission service accessToken "roles.manage"
  Fallible.throwIf (roleName == "user") cannotRemoveBaseRole
  let (updated, changed) ← Database.transaction (revokeRoleIn targetUserId roleName)
  let roles ← RbacRepository.rolesForUser targetUserId
  pure ⟨administrator.id, updated, roles, changed⟩

end AdminService

end SecureCore
