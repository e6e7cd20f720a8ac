import SecureCore.Database.Migration
import SecureCore.Database.Transactions
import SecureCore.Relational.Migrations
import SecureCore.Service.AuditService

/-! # The statements of the migrations

A table, a column, an index or a trigger exists or does not. A statement reads the clock
at most once. -/

set_option autoImplicit false

namespace SecureCore

open Relational

/-- In the rows of a table without the two columns of version 4 their values mean nothing. -/
structure SessionTable where
  familyColumn : Bool := false
  parentColumn : Bool := false
  sessions : Table AuthSession

structure StoredDatabase where
  users : Option (Table User) := none
  authSessions : Option SessionTable := none
  auditEvents : Option (Table AuditEvent) := none
  roles : Option (Table RoleRow) := none
  permissions : Option (Table Permission) := none
  rolePermissions : Option (List RolePermissionRow) := none
  userRoles : Option (List UserRoleRow) := none
  indexes : List String := []
  triggers : List String := []

/-- A statement with the text of strftime. -/
abbrev MigrationStatement := String → StoredDatabase → Except Exception StoredDatabase

namespace Migration

/-- What execute throws where SQLite does not accept a statement. -/
def sqlError (message : String) : Exception := makeDatabaseError "Executing transactional SQL" 1 message

/-! ## Tables -/

def createTableUsers : MigrationStatement := fun _ db => .ok { db with users := some (db.users.getD Table.empty) }

def createTableAuthSessions : MigrationStatement := fun _ db =>
  .ok { db with authSessions := some (db.authSessions.getD { sessions := Table.empty }) }

def createTableAuditEvents : MigrationStatement := fun _ db =>
  .ok { db with auditEvents := some (db.auditEvents.getD Table.empty) }

def createTableRoles : MigrationStatement := fun _ db => .ok { db with roles := some (db.roles.getD Table.empty) }

def createTablePermissions : MigrationStatement := fun _ db =>
  .ok { db with permissions := some (db.permissions.getD Table.empty) }

def createTableUserRoles : MigrationStatement := fun _ db => .ok { db with userRoles := some (db.userRoles.getD []) }

def createTableRolePermissions : MigrationStatement := fun _ db =>
  .ok { db with rolePermissions := some (db.rolePermissions.getD []) }

/-! ## Indexes and triggers -/

/-- CREATE INDEX IF NOT EXISTS on a table and, perhaps, a column that may be missing. -/
def createIndex (name table : String) (hasTable : StoredDatabase → Bool) (column : String)
    (hasColumn : StoredDatabase → Bool) : MigrationStatement := fun _ db =>
  if !hasTable db then .error (sqlError ("no such table: main." ++ table))
  else if name ∈ db.indexes then .ok db
  else if !hasColumn db then .error (sqlError ("table " ++ table ++ " has no column named " ++ column))
  else .ok { db with indexes := db.indexes ++ [name] }

/-- CREATE TRIGGER IF NOT EXISTS. -/
def createTrigger (name table : String) (hasTable : StoredDatabase → Bool) : MigrationStatement := fun _ db =>
  if !hasTable db then .error (sqlError ("no such table: main." ++ table))
  else if name ∈ db.triggers then .ok db
  else .ok { db with triggers := db.triggers ++ [name] }

def createSessionIndex (name column : String) (hasColumn : SessionTable → Bool) : MigrationStatement :=
  createIndex name "auth_sessions" (fun db => db.authSessions.isSome) column
    (fun db => db.authSessions.any hasColumn)

def createAuditIndex (name column : String) : MigrationStatement :=
  createIndex name "audit_events" (fun db => db.auditEvents.isSome) column (fun _ => true)

/-! ## Refresh token families -/

/-- A statement on the sessions. -/
def onSessions (body : SessionTable → Except Exception SessionTable) : MigrationStatement := fun _ db =>
  match db.authSessions with
  | none => .error (sqlError "no such table: auth_sessions")
  | some table => (body table).map (fun table => { db with authSessions := some table })

/-- A new column has its default in every row. -/
def addFamilyColumn : MigrationStatement := onSessions (fun table =>
  if table.familyColumn then .error (sqlError "duplicate column name: token_family_id")
  else .ok { table with
    familyColumn := true
    sessions := table.sessions.update (fun _ => true) (fun s => { s with tokenFamilyId := "" }) })

def addParentColumn : MigrationStatement := onSessions (fun table =>
  if table.parentColumn then .error (sqlError "duplicate column name: parent_session_id")
  else .ok { table with
    parentColumn := true
    sessions := table.sessions.update (fun _ => true) (fun s => { s with parentSessionId := none }) })

def fillFamilyColumn : MigrationStatement := onSessions (fun table =>
  if !table.familyColumn then .error (sqlError "no such column: token_family_id")
  else .ok { table with
    sessions := table.sessions.update (fun s => s.tokenFamilyId == "")
      (fun s => { s with tokenFamilyId := "legacy-" ++ toString s.id }) })

/-! ## Roles -/

def insertBuiltInRoles : MigrationStatement := fun _ db =>
  match db.roles with
  | none => .error (sqlError "no such table: roles")
  | some roles => .ok { db with roles := some (builtInRoles.foldl insertRole roles) }

def insertBuiltInPermissions : MigrationStatement := fun _ db =>
  match db.permissions with
  | none => .error (sqlError "no such table: permissions")
  | some permissions => .ok { db with permissions := some (builtInPermissions.foldl insertPermission permissions) }

/-- INSERT OR IGNORE INTO a table whose key is all of the row. -/
def insertRolePermission (rows : List RolePermissionRow) (row : RolePermissionRow) : List RolePermissionRow :=
  if row ∈ rows then rows else rows ++ [row]

def insertGrants : MigrationStatement := fun _ db =>
  match db.rolePermissions, db.roles, db.permissions with
  | none, _, _ => .error (sqlError "no such table: role_permissions")
  | _, none, _ => .error (sqlError "no such table: roles")
  | _, _, none => .error (sqlError "no such table: permissions")
  | some rows, some roles, some permissions =>
    let granted := roles.rows.flatMap (fun r =>
      (permissions.rows.filter (fun p => grants r.name p.name)).map (fun p => ⟨r.id, p.id⟩))
    .ok { db with rolePermissions := some (granted.foldl insertRolePermission rows) }

/-- INSERT OR IGNORE INTO user_roles(user_id, role_id) SELECT ... -/
def insertMembers (condition : User → Bool) (roleName : String) : MigrationStatement := fun now db =>
  match db.userRoles, db.users, db.roles with
  | none, _, _ => .error (sqlError "no such table: user_roles")
  | _, none, _ => .error (sqlError "no such table: users")
  | _, _, none => .error (sqlError "no such table: roles")
  | some userRoles, some users, some roles =>
    let tables : Database := ⟨users, Table.empty, roles, Table.empty, [], userRoles⟩
    .ok { db with
      userRoles := some ((selectMembers tables condition roleName now).foldl Database.insertUserRole tables).userRoles }

end Migration

open Migration

namespace MigrationRunner

/-! ## The migrations -/

def createUsers : Relational.Migration StoredDatabase Exception String :=
  ⟨1, "create_users", [createTableUsers]⟩

def createAuthSessions : Relational.Migration StoredDatabase Exception String :=
  ⟨2, "create_auth_sessions", [createTableAuthSessions,
    createSessionIndex "idx_auth_sessions_user_id" "user_id" (fun _ => true),
    createSessionIndex "idx_auth_sessions_refresh_expires_at" "refresh_expires_at" (fun _ => true)]⟩

def createAuditEvents : Relational.Migration StoredDatabase Exception String :=
  ⟨3, "create_audit_events", [createTableAuditEvents,
    createAuditIndex "idx_audit_events_created_at" "created_at",
    createAuditIndex "idx_audit_events_event_type" "event_type",
    createAuditIndex "idx_audit_events_actor_user_id" "actor_user_id",
    createAuditIndex "idx_audit_events_outcome" "outcome",
    createTrigger "prevent_audit_event_updates" "audit_events" (fun db => db.auditEvents.isSome)]⟩

def addRefreshTokenFamilies : Relational.Migration StoredDatabase Exception String :=
  ⟨4, "add_refresh_token_families", [addFamilyColumn, addParentColumn, fillFamilyColumn,
    createSessionIndex "idx_auth_sessions_token_family_id" "token_family_id" SessionTable.familyColumn,
    createSessionIndex "idx_auth_sessions_parent_session_id" "parent_session_id" SessionTable.parentColumn]⟩

def createRbac : Relational.Migration StoredDatabase Exception String :=
  ⟨5, "create_rbac", [createTableRoles, createTablePermissions, createTableUserRoles, createTableRolePermissions,
    createIndex "idx_user_roles_role_id" "user_roles" (fun db => db.userRoles.isSome) "role_id" (fun _ => true),
    createIndex "idx_role_permissions_permission_id" "role_permissions" (fun db => db.rolePermissions.isSome)
      "permission_id" (fun _ => true),
    insertBuiltInRoles, insertBuiltInPermissions, insertGrants, insertMembers (fun _ => true) "user",
    insertMembers (fun u => u.role == "admin") "super_admin",
    createTrigger "assign_default_user_role" "users" (fun db => db.users.isSome)]⟩

def migrations : List (Relational.Migration StoredDatabase Exception String) :=
  [createUsers, createAuthSessions, createAuditEvents, addRefreshTokenFamilies, createRbac]

def refusals : Refusals Exception where
  unreadable := makeDatabaseError "Preparing SQL query" 1 "no such table: schema_migrations"
  missingTable := sqlError "no such table: schema_migrations"
  recordedTwice _ := makeDatabaseError "Executing transactional SQL" 1555
    "UNIQUE constraint failed: schema_migrations.version"

/-- MigrationRunner::apply, in any number of runs at once. -/
def step : Runs StoredDatabase Exception String → RunEvent Exception String →
    Option (Runs StoredDatabase Exception String × List Nat) :=
  Runs.step refusals migrations

end MigrationRunner

end SecureCore
