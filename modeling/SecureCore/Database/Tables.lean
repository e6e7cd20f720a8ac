import SecureCore.Model.Records
import SecureCore.Model.Text

/-! # The tables and what one SQL statement makes of them

Schema version 5. Every function here is one statement of a repository; the texts
`now` are the values of strftime in the statement. -/

namespace SecureCore

set_option autoImplicit false

open Relational

structure RoleRow where
  id : Int
  name : String
  description : String
  builtIn : Bool
  deriving DecidableEq, Repr

instance : Keyed RoleRow := ⟨RoleRow.id, fun n r => { r with id := n }, fun _ _ => rfl⟩

structure RolePermissionRow where
  roleId : Int
  permissionId : Int
  deriving DecidableEq, Repr

structure UserRoleRow where
  userId : Int
  roleId : Int
  assignedByUserId : Option Int
  assignedAt : String
  deriving DecidableEq, Repr

structure Database where
  users : Table User
  authSessions : Table AuthSession
  roles : Table RoleRow
  permissions : Table Permission
  rolePermissions : List RolePermissionRow
  userRoles : List UserRoleRow

namespace Database

/-! ## Users -/

def findUserById (db : Database) (userId : Int) : Option User :=
  db.users.first (fun u => u.id == userId)

/-- The columns username and email have the collation NOCASE. -/
def matchesLogin (login : String) (u : User) : Bool :=
  nocaseEq u.username login || nocaseEq u.email login

def findUserByLogin (db : Database) (login : String) : Option User :=
  db.users.first (matchesLogin login)

def userExists (db : Database) (userId : Int) : Bool := (db.findUserById userId).isSome

/-- SELECT ... ORDER BY id ASC LIMIT limit OFFSET offset. -/
def listUsers (db : Database) (limit offset : Int) : List User :=
  (db.users.rows.drop offset.toNat).take limit.toNat

def setPasswordHash (db : Database) (userId : Int) (passwordHash now : String) : Database :=
  { db with
    users := db.users.update (fun u => u.id == userId)
      (fun u => { u with passwordHash := passwordHash, updatedAt := now }) }

def setEnabled (db : Database) (userId : Int) (enabled : Bool) (now : String) : Database :=
  { db with
    users := db.users.update (fun u => u.id == userId)
      (fun u => { u with enabled := enabled, updatedAt := now }) }

/-- UPDATE users SET role = ... WHERE id = ... AND role <> ... -/
def setLegacyRole (db : Database) (userId : Int) (role now : String) : Database :=
  { db with
    users := db.users.update (fun u => u.id == userId && u.role != role)
      (fun u => { u with role := role, updatedAt := now }) }

/-- The UNIQUE constraints on username and email. -/
def duplicatesUser (db : Database) (input : CreateUser) : Bool :=
  db.users.rows.any (fun u => nocaseEq u.username input.username || nocaseEq u.email input.email)

/-- INSERT INTO users with the trigger assign_default_user_role. -/
def insertUser (db : Database) (input : CreateUser) (now : String) : Database :=
  let row : User := ⟨0, input.username, input.email, input.passwordHash, input.role, true, now, now⟩
  { db with
    users := db.users.insert row
    userRoles := db.userRoles ++ (db.roles.rows.filter (fun r => r.name == "user")).map
      (fun r => ⟨db.users.nextKey, r.id, none, now⟩) }

/-! ## Sessions -/

def findSessionById (db : Database) (sessionId : Int) : Option AuthSession :=
  db.authSessions.first (fun s => s.id == sessionId)

def findSessionByAccessTokenHash (db : Database) (tokenHash : String) : Option AuthSession :=
  db.authSessions.first (fun s => s.accessTokenHash == tokenHash)

def findSessionByRefreshTokenHash (db : Database) (tokenHash : String) : Option AuthSession :=
  db.authSessions.first (fun s => s.refreshTokenHash == tokenHash)

/-- SELECT ... WHERE user_id = ... AND revoked = 0 AND refresh_expires_at > ... ORDER BY id DESC. -/
def listActiveSessions (db : Database) (userId currentTime : Int) : List AuthSession :=
  (db.authSessions.rows.filter (fun s =>
    s.userId == userId && !s.revoked && decide (currentTime < s.refreshExpiresAt))).reverse

/-- UPDATE auth_sessions SET revoked = 1 WHERE condition AND revoked = 0. -/
def revokeSessions (db : Database) (condition : AuthSession → Bool)
    (revokedAt : Option String → String) : Database :=
  { db with
    authSessions := db.authSessions.update (fun s => condition s && !s.revoked)
      (fun s => { s with revoked := true, revokedAt := some (revokedAt s.revokedAt) }) }

def countRevocable (db : Database) (condition : AuthSession → Bool) : Nat :=
  db.authSessions.count (fun s => condition s && !s.revoked)

/-- The UNIQUE constraints on the two token hashes. -/
def duplicatesToken (db : Database) (input : CreateAuthSession) : Bool :=
  db.authSessions.rows.any (fun s =>
    s.accessTokenHash == input.accessTokenHash || s.refreshTokenHash == input.refreshTokenHash)

def sessionRow (db : Database) (input : CreateAuthSession) (familyId now : String) : AuthSession :=
  ⟨db.authSessions.nextKey, input.userId, input.accessTokenHash, input.refreshTokenHash,
    input.accessExpiresAt, input.refreshExpiresAt, false, now, none, familyId,
    input.parentSessionId⟩

def insertSession (db : Database) (row : AuthSession) : Database :=
  { db with authSessions := db.authSessions.insert row }

def deleteExpiredSessions (db : Database) (currentTime : Int) : Database :=
  { db with
    authSessions := db.authSessions.delete (fun s => decide (s.refreshExpiresAt ≤ currentTime)) }

/-! ## Roles -/

def roleId (db : Database) (roleName : String) : Option Int :=
  (db.roles.first (fun r => r.name == roleName)).map RoleRow.id

/-- user_roles JOIN roles WHERE user_id = ... AND name = ... -/
def hasRole (db : Database) (userId : Int) (roleName : String) : Bool :=
  db.userRoles.any (fun ur => ur.userId == userId &&
    db.roles.rows.any (fun r => r.id == ur.roleId && r.name == roleName))

/-- user_roles JOIN role_permissions JOIN permissions WHERE user_id = ... AND name = ... -/
def hasPermission (db : Database) (userId : Int) (permissionName : String) : Bool :=
  db.userRoles.any (fun ur => ur.userId == userId &&
    db.rolePermissions.any (fun rp => rp.roleId == ur.roleId &&
      db.permissions.rows.any (fun p => p.id == rp.permissionId && p.name == permissionName)))

/-- SELECT COUNT(DISTINCT u.id) over the enabled users that hold the role. -/
def countEnabledUsersWithRole (db : Database) (roleName : String) : Nat :=
  db.users.count (fun u => u.enabled && db.hasRole u.id roleName)

/-- INSERT OR IGNORE INTO user_roles: a row with the same primary key is kept. -/
def insertUserRole (db : Database) (row : UserRoleRow) : Database :=
  if db.userRoles.any (fun ur => ur.userId == row.userId && ur.roleId == row.roleId) then db
  else { db with userRoles := db.userRoles ++ [row] }

def deleteUserRole (db : Database) (userId roleId : Int) : Database :=
  { db with userRoles := db.userRoles.filter (fun ur => !(ur.userId == userId && ur.roleId == roleId)) }

/-- The ORDER BY of every role listing. -/
def roleRank (name : String) : Nat :=
  if name = "user" then 0 else if name = "auditor" then 1 else if name = "support" then 2
  else if name = "security_admin" then 3 else if name = "super_admin" then 4 else 100

def roleBefore (a b : RoleRow) : Bool :=
  roleRank a.name < roleRank b.name || (roleRank a.name == roleRank b.name && a.name ≤ b.name)

def listRoles (db : Database) : List RoleRow := db.roles.rows.mergeSort roleBefore

def rolesForUser (db : Database) (userId : Int) : List RoleRow :=
  (db.roles.rows.filter (fun r =>
    db.userRoles.any (fun ur => ur.userId == userId && ur.roleId == r.id))).mergeSort roleBefore

def permissionsForRole (db : Database) (roleId : Int) : List Permission :=
  (db.permissions.rows.filter (fun p =>
    db.rolePermissions.any (fun rp => rp.roleId == roleId && rp.permissionId == p.id))).mergeSort
      (fun a b => a.name ≤ b.name)

def listPermissions (db : Database) : List Permission :=
  db.permissions.rows.mergeSort (fun a b => a.name ≤ b.name)

/-- SELECT DISTINCT p.name ... ORDER BY p.name ASC. -/
def permissionNamesForUser (db : Database) (userId : Int) : List String :=
  (((db.permissions.rows.filter (fun p => db.rolePermissions.any (fun rp => rp.permissionId == p.id &&
    db.userRoles.any (fun ur => ur.roleId == rp.roleId && ur.userId == userId)))).map
      Permission.name).eraseDups).mergeSort (fun a b => a ≤ b)

end Database

end SecureCore
