import SecureCore.Database.Tables

/-! # Migrations

What migrations 4 and 5 make of the tables that they find. The tables of roles and
permissions do not exist before migration 5. -/

set_option autoImplicit false

namespace SecureCore.Migration

open Relational

/-- Version 4: two new columns, then a family of its own for every session. -/
def addRefreshTokenFamilies (authSessions : Table AuthSession) : Table AuthSession :=
  let added := authSessions.update (fun _ => true)
    (fun s => { s with tokenFamilyId := "", parentSessionId := none })
  added.update (fun s => s.tokenFamilyId == "")
    (fun s => { s with tokenFamilyId := "legacy-" ++ toString s.id })

/-! ## Version 5 -/

def builtInRoles : List (String × String) :=
  [("user", "Base authenticated user role."),
   ("auditor", "Can inspect security audit events."),
   ("support", "Can inspect users and re-enable accounts."),
   ("security_admin", "Can manage account security and inspect protected metrics."),
   ("super_admin", "Has every built-in administrative permission.")]

def builtInPermissions : List (String × String) :=
  [("users.read", "Read user profiles and user lists."),
   ("users.enable", "Enable disabled user accounts."),
   ("users.disable", "Disable user accounts."),
   ("sessions.read", "Read user authentication sessions."),
   ("sessions.revoke", "Revoke user authentication sessions."),
   ("audit.read", "Read security audit events."),
   ("metrics.read", "Read protected runtime metrics."),
   ("roles.manage", "Assign and revoke RBAC roles.")]

/-- INSERT OR IGNORE INTO roles, whose column name is UNIQUE. -/
def insertRole (roles : Table RoleRow) (row : String × String) : Table RoleRow :=
  if roles.rows.any (fun r => r.name == row.1) then roles
  else roles.insert ⟨0, row.1, row.2, true⟩

def insertPermission (permissions : Table Permission) (row : String × String) : Table Permission :=
  if permissions.rows.any (fun p => p.name == row.1) then permissions
  else permissions.insert ⟨0, row.1, row.2⟩

/-- Which role gets which permission. -/
def grants (roleName permissionName : String) : Bool :=
  (roleName == "auditor" && permissionName == "audit.read") ||
  (roleName == "support" && ["users.read", "users.enable"].contains permissionName) ||
  (roleName == "security_admin" && ["users.read", "users.enable", "users.disable",
    "sessions.read", "sessions.revoke", "audit.read", "metrics.read"].contains permissionName) ||
  roleName == "super_admin"

/-- SELECT u.id, r.id FROM users AS u JOIN roles AS r ON r.name = ... WHERE condition. -/
def selectMembers (db : Database) (condition : User → Bool) (roleName now : String) :
    List UserRoleRow :=
  (db.users.rows.filter condition).flatMap (fun u =>
    (db.roles.rows.filter (fun r => r.name == roleName)).map (fun r => ⟨u.id, r.id, none, now⟩))

/-- The tables of version 5 before anyone is a member of a role. -/
def rbacTables (users : Table User) (authSessions : Table AuthSession) : Database :=
  let roles := builtInRoles.foldl insertRole Table.empty
  let permissions := builtInPermissions.foldl insertPermission Table.empty
  { users := users
    authSessions := authSessions
    roles := roles
    permissions := permissions
    rolePermissions := roles.rows.flatMap (fun r =>
      (permissions.rows.filter (fun p => grants r.name p.name)).map (fun p => ⟨r.id, p.id⟩))
    userRoles := [] }

/-- Every user becomes a member of user, and every legacy administrator of super_admin. -/
def createRbac (users : Table User) (authSessions : Table AuthSession) (now now' : String) :
    Database :=
  let db := rbacTables users authSessions
  let db := (selectMembers db (fun _ => true) "user" now).foldl Database.insertUserRole db
  (selectMembers db (fun u => u.role == "admin") "super_admin" now').foldl
    Database.insertUserRole db

end SecureCore.Migration
