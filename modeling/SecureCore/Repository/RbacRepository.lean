import SecureCore.Database.Access

/-! # RbacRepository -/

namespace SecureCore.RbacRepository

set_option autoImplicit false

open Interleaving

def requireRoleId (roleName : String) : Sql Int :=
  Sql.statement (.rbacRepositoryError "Reading RBAC role") (fun _ db =>
    match db.roleId roleName with
    | some roleId => ⟨.ok roleId, db, []⟩
    | none => ⟨.error (.rbacRoleNotFoundError ("RBAC role does not exist: " ++ roleName)), db, []⟩)

def userExists (userId : Int) : Sql Bool :=
  Sql.select (.rbacRepositoryError "Checking RBAC user") (fun db => db.userExists userId)
    (fun _ => [])

/-- The foreign keys of user_roles, which INSERT OR IGNORE does not ignore. -/
def referencesExist (db : Database) (row : UserRoleRow) : Bool :=
  db.userExists row.userId && db.roles.rows.any (fun r => r.id == row.roleId) &&
    match row.assignedByUserId with
    | some assignedBy => db.userExists assignedBy
    | none => true

def insertUserRoleLocked (userId roleId : Int) (assignedBy : Option Int) : Sql Bool :=
  Sql.statement (.rbacRepositoryError "Assigning RBAC role") (fun env db =>
    let row : UserRoleRow := ⟨userId, roleId, assignedBy, env.strftimeNow⟩
    if db.userRoles.any (fun ur => ur.userId == userId && ur.roleId == roleId) then
      ⟨.ok false, db, []⟩
    else if referencesExist db row then ⟨.ok true, db.insertUserRole row, []⟩
    else ⟨.error (.rbacRepositoryError "Assigning RBAC role" 787), db, []⟩)

def setLegacyRoleLocked (operation : String) (userId : Int) (role : String) : Sql Unit :=
  Sql.statement (.rbacRepositoryError operation) (fun env db =>
    ⟨.ok (), db.setLegacyRole userId role env.strftimeNow, []⟩)

def assignRoleLocked (userId : Int) (roleName : String) (assignedBy : Option Int) : Sql Bool := do
  if ← userExists userId then
    let roleId ← requireRoleId roleName
    let changed ← insertUserRoleLocked userId roleId assignedBy
    if roleName = "super_admin" then
      setLegacyRoleLocked "Updating legacy administrator role" userId "admin"
      pure changed
    else pure changed
  else pure false

def deleteUserRoleLocked (userId roleId : Int) : Sql Bool :=
  Sql.statement (.rbacRepositoryError "Revoking RBAC role") (fun _ db =>
    ⟨.ok (db.userRoles.any (fun ur => ur.userId == userId && ur.roleId == roleId)),
      db.deleteUserRole userId roleId, []⟩)

def revokeRoleLocked (userId : Int) (roleName : String) : Sql Bool := do
  let roleId ← requireRoleId roleName
  let changed ← deleteUserRoleLocked userId roleId
  if roleName = "super_admin" then
    let remaining ← Sql.select (.rbacRepositoryError "Checking remaining super-admin role")
      (fun db => db.hasRole userId "super_admin") (fun _ => [])
    if remaining then pure changed
    else
      setLegacyRoleLocked "Updating legacy user role" userId "user"
      pure changed
  else pure changed

def assignRoleIn (userId : Int) (roleName : String) (assignedBy : Option Int) : Tx Bool :=
  Transaction.perform (assignRoleLocked userId roleName assignedBy)

def revokeRoleIn (userId : Int) (roleName : String) : Tx Bool :=
  Transaction.perform (revokeRoleLocked userId roleName)

/-- One SELECT for the roles and one more for the permissions of each. -/
def withPermissionsLocked : List RoleRow → Sql (List Role)
  | [] => pure []
  | row :: rows => do
    let permissions ← Sql.select (.rbacRepositoryError "Listing role permissions")
      (fun db => db.permissionsForRole row.id) (fun _ => [])
    let roles ← withPermissionsLocked rows
    pure (⟨row.id, row.name, row.description, row.builtIn, permissions⟩ :: roles)

def listRolesLocked : Sql (List Role) := do
  let rows ← Sql.select (.rbacRepositoryError "Listing RBAC roles") (fun db => db.listRoles) (fun _ => [])
  withPermissionsLocked rows

def listRoles : Call (List Role) := Database.withLockedHandle listRolesLocked

def listPermissions : Call (List Permission) :=
  Database.withLockedHandle (Sql.select (.rbacRepositoryError "Listing RBAC permissions")
    (fun db => db.listPermissions) (fun _ => []))

def rolesForUserLocked (userId : Int) : Sql (List Role) := do
  let rows ← Sql.select (.rbacRepositoryError "Listing user roles")
    (fun db => db.rolesForUser userId) (fun _ => [])
  withPermissionsLocked rows

def rolesForUser (userId : Int) : Call (List Role) :=
  if userId ≤ 0 then pure [] else Database.withLockedHandle (rolesForUserLocked userId)

def permissionNamesForUser (userId : Int) : Call (List String) :=
  if userId ≤ 0 then pure []
  else Database.withLockedHandle (Sql.select (.rbacRepositoryError "Listing user permissions")
    (fun db => db.permissionNamesForUser userId) (fun _ => []))

def hasPermission (userId : Int) (permissionName : String) : Call Bool :=
  if userId ≤ 0 || permissionName.isEmpty then pure false
  else Database.withLockedHandle (Sql.select (.rbacRepositoryError "Checking user permission")
    (fun db => db.hasPermission userId permissionName)
    (fun granted => [.permissionChecked userId permissionName granted]))

def hasRoleIn (userId : Int) (roleName : String) : Tx Bool :=
  if userId ≤ 0 || roleName.isEmpty then pure false
  else Transaction.perform (Sql.select (.rbacRepositoryError "Checking transactional user role")
    (fun db => db.hasRole userId roleName) (fun _ => []))

def countEnabledUsersWithRoleIn (roleName : String) : Tx Nat :=
  Transaction.perform (Sql.select (.rbacRepositoryError "Counting transactional role members")
    (fun db => db.countEnabledUsersWithRole roleName) (fun _ => []))

end SecureCore.RbacRepository
