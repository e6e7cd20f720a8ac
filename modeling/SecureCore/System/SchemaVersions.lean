import SecureCore.Database.SchemaStatements
import SecureCore.Relational.MigrationCompletion
import SecureCore.System.LegacyRoles

/-! # The schema of every version

What each migration makes of a content of the version before it. -/

set_option autoImplicit false

namespace SecureCore

open Relational

/-- The tables and columns of a version are there, and those of later versions are not. -/
structure AtVersion (version : Nat) (db : StoredDatabase) : Prop where
  users : db.users.isSome = decide (1 ≤ version)
  authSessions : db.authSessions.isSome = decide (2 ≤ version)
  columns : ∀ table, db.authSessions = some table →
    table.familyColumn = decide (4 ≤ version) ∧ table.parentColumn = decide (4 ≤ version)
  auditEvents : db.auditEvents.isSome = decide (3 ≤ version)
  roles : db.roles.isSome = decide (5 ≤ version)
  permissions : db.permissions.isSome = decide (5 ≤ version)
  userRoles : db.userRoles.isSome = decide (5 ≤ version)
  rolePermissions : db.rolePermissions.isSome = decide (5 ≤ version)

namespace AtVersion

variable {version : Nat} {db : StoredDatabase}

theorem someUsers (h : AtVersion version db) (hVersion : 1 ≤ version) : ∃ users, db.users = some users :=
  Option.isSome_iff_exists.mp (h.users.trans (decide_eq_true hVersion))

theorem someSessions (h : AtVersion version db) (hVersion : 2 ≤ version) : ∃ sessions,
    db.authSessions = some ⟨decide (4 ≤ version), decide (4 ≤ version), sessions⟩ := by
  obtain ⟨⟨family, parent, sessions⟩, hTable⟩ :=
    Option.isSome_iff_exists.mp (h.authSessions.trans (decide_eq_true hVersion))
  obtain ⟨rfl, rfl⟩ := h.columns _ hTable
  exact ⟨sessions, hTable⟩

end AtVersion

namespace MigrationRunner

open Migration

/-! ## Statements -/

section statements

variable {P : StoredDatabase → Prop} {rest : List MigrationStatement} {db : StoredDatabase}

/-- An index changes nothing but the list of indexes. -/
theorem succeeds_createIndex {name table column : String} {hasTable hasColumn : StoredDatabase → Bool}
    (hTable : hasTable db = true) (hColumn : hasColumn db = true)
    (hRest : ∀ indexes, Succeeds P rest { db with indexes := indexes }) :
    Succeeds P (createIndex name table hasTable column hasColumn :: rest) db := by
  intro now
  simp only [createIndex, hTable, hColumn, Bool.not_true, Bool.false_eq_true, if_false]
  split
  · exact ⟨db, rfl, hRest db.indexes⟩
  · exact ⟨_, rfl, hRest _⟩

theorem succeeds_createTrigger {name table : String} {hasTable : StoredDatabase → Bool}
    (hTable : hasTable db = true) (hRest : ∀ triggers, Succeeds P rest { db with triggers := triggers }) :
    Succeeds P (createTrigger name table hasTable :: rest) db := by
  intro now
  simp only [createTrigger, hTable, Bool.not_true, Bool.false_eq_true, if_false]
  split
  · exact ⟨db, rfl, hRest db.triggers⟩
  · exact ⟨_, rfl, hRest _⟩

end statements

/-! ## Migrations -/

section migrations

variable (db : StoredDatabase)

theorem succeeds_createUsers :
    Succeeds (fun after => after = { db with users := some (db.users.getD Table.empty) }) createUsers.statements db :=
  fun _ => ⟨_, rfl, rfl⟩

theorem succeeds_createAuthSessions : Succeeds (fun after => ∃ indexes, after =
    { db with
      authSessions := some (db.authSessions.getD { sessions := Table.empty })
      indexes := indexes }) createAuthSessions.statements db := by
  intro now
  refine ⟨_, rfl, ?_⟩
  apply succeeds_createIndex rfl rfl
  intro _
  apply succeeds_createIndex rfl rfl
  intro indexes
  exact ⟨indexes, rfl⟩

theorem succeeds_createAuditEvents : Succeeds (fun after => ∃ indexes triggers, after =
    { db with
      auditEvents := some (db.auditEvents.getD Table.empty)
      indexes := indexes
      triggers := triggers }) createAuditEvents.statements db := by
  intro now
  refine ⟨_, rfl, ?_⟩
  apply succeeds_createIndex rfl rfl
  intro _
  apply succeeds_createIndex rfl rfl
  intro _
  apply succeeds_createIndex rfl rfl
  intro _
  apply succeeds_createIndex rfl rfl
  intro indexes
  apply succeeds_createTrigger rfl
  intro triggers
  exact ⟨indexes, triggers, rfl⟩

variable {db}

theorem ext_rows {ρ : Type} [Keyed ρ] {a b : Table ρ} (hRows : a.rows = b.rows)
    (hSequence : a.sequence = b.sequence) : a = b := by
  cases a
  cases b
  cases hRows
  cases hSequence
  rfl

/-- Two columns added one after the other, or at once. -/
theorem addColumns_eq (sessions : Table AuthSession) :
    (sessions.update (fun _ => true) (fun s => { s with tokenFamilyId := "" })).update (fun _ => true)
        (fun s => { s with parentSessionId := none }) =
      sessions.update (fun _ => true) (fun s => { s with tokenFamilyId := "", parentSessionId := none }) := by
  apply ext_rows
  · simp only [Table.update, List.map_map]
    rfl
  · rfl

theorem succeeds_addRefreshTokenFamilies {sessions : Table AuthSession}
    (hSessions : db.authSessions = some ⟨false, false, sessions⟩) : Succeeds (fun after => ∃ indexes, after =
      { db with
        authSessions := some ⟨true, true, Migration.addRefreshTokenFamilies sessions⟩
        indexes := indexes }) addRefreshTokenFamilies.statements db := by
  intro now
  refine ⟨_, by simp only [addFamilyColumn, onSessions, hSessions]; rfl, ?_⟩
  intro now
  refine ⟨_, rfl, ?_⟩
  intro now
  refine ⟨_, rfl, ?_⟩
  apply succeeds_createIndex rfl rfl
  intro _
  apply succeeds_createIndex rfl rfl
  intro indexes
  refine ⟨indexes, ?_⟩
  rw [Migration.addRefreshTokenFamilies, ← addColumns_eq]

/-- The tables of version 5 as the services read them. -/
structure Shows (db : StoredDatabase) (tables : Database) : Prop where
  users : db.users = some tables.users
  authSessions : db.authSessions = some ⟨true, true, tables.authSessions⟩
  roles : db.roles = some tables.roles
  permissions : db.permissions = some tables.permissions
  rolePermissions : db.rolePermissions = some tables.rolePermissions
  userRoles : db.userRoles = some tables.userRoles

theorem userRoles_insertUserRoles (rows : List UserRoleRow) {tables tables' : Database}
    (h : tables.userRoles = tables'.userRoles) : (rows.foldl Database.insertUserRole tables).userRoles =
      (rows.foldl Database.insertUserRole tables').userRoles := by
  induction rows generalizing tables tables' with
  | nil => exact h
  | cons row rows ih =>
    apply ih
    simp only [Database.insertUserRole, h]
    split
    · exact h
    · rfl

theorem insertUserRoles_eq (rows : List UserRoleRow) (tables : Database) :
    rows.foldl Database.insertUserRole tables =
      { tables with userRoles := (rows.foldl Database.insertUserRole tables).userRoles } := by
  induction rows generalizing tables with
  | nil => rfl
  | cons row rows ih =>
    rw [List.foldl_cons, ih]
    simp only [Database.insertUserRole]
    split <;> rfl

theorem selectMembers_congr {tables tables' : Database} (hUsers : tables.users = tables'.users)
    (hRoles : tables.roles = tables'.roles) (condition : User → Bool) (roleName now : String) :
    selectMembers tables condition roleName now = selectMembers tables' condition roleName now := by
  rw [selectMembers, selectMembers, hUsers, hRoles]

/-- No grant is inserted twice. -/
theorem insertGrants_eq (users : Table User) (sessions : Table AuthSession) :
    (rbacTables users sessions).rolePermissions.foldl insertRolePermission [] =
      (rbacTables users sessions).rolePermissions := by
  have hClosed : (rbacTables Table.empty Table.empty).rolePermissions.foldl insertRolePermission [] =
      (rbacTables Table.empty Table.empty).rolePermissions := by
    decide +kernel
  exact hClosed

/-- The tables that a SELECT of members and the INSERT into user_roles read. -/
def memberTables (tables : Database) (userRoles : List UserRoleRow) : Database :=
  ⟨tables.users, Table.empty, tables.roles, Table.empty, [], userRoles⟩

/-- user_roles after the INSERT of members. -/
def withMembers (tables : Database) (condition : User → Bool) (roleName now : String)
    (userRoles : List UserRoleRow) : List UserRoleRow :=
  ((selectMembers (memberTables tables userRoles) condition roleName now).foldl Database.insertUserRole
    (memberTables tables userRoles)).userRoles

theorem insertMembers_eq (tables : Database) (condition : User → Bool) (roleName now : String) :
    (selectMembers tables condition roleName now).foldl Database.insertUserRole tables =
      { tables with userRoles := withMembers tables condition roleName now tables.userRoles } := by
  have hSelect : selectMembers (memberTables tables tables.userRoles) condition roleName now =
      selectMembers tables condition roleName now := selectMembers_congr rfl rfl condition roleName now
  rw [insertUserRoles_eq, withMembers, hSelect]
  congr 1
  exact userRoles_insertUserRoles _ rfl

/-- The members are all that is inserted after the tables have been filled. -/
theorem createRbac_eq (users : Table User) (sessions : Table AuthSession) (now now' : String) :
    Migration.createRbac users sessions now now' =
      { rbacTables users sessions with
        userRoles := withMembers (rbacTables users sessions) (fun u => u.role == "admin") "super_admin" now'
          (withMembers (rbacTables users sessions) (fun _ => true) "user" now []) } := by
  have hNone : (rbacTables users sessions).userRoles = [] := rfl
  rw [Migration.createRbac]
  generalize rbacTables users sessions = tables at hNone
  dsimp only
  rw [insertMembers_eq, insertMembers_eq, hNone]
  rfl

theorem insertMembers_ok (db : StoredDatabase) (tables : Database) {userRoles : List UserRoleRow}
    (hUsers : db.users = some tables.users)
    (hRoles : db.roles = some tables.roles) (hUserRoles : db.userRoles = some userRoles)
    (condition : User → Bool) (roleName now : String) : insertMembers condition roleName now db =
      .ok { db with userRoles := some (withMembers tables condition roleName now userRoles) } := by
  cases db
  cases hUsers
  cases hRoles
  cases hUserRoles
  rfl

/-- The end of the migration, on tables that are filled already. -/
theorem succeeds_members (tables : Database) (hUsers : db.users = some tables.users)
    (hRoles : db.roles = some tables.roles) (hUserRoles : db.userRoles = some []) :
    Succeeds (fun after => ∃ triggers now now', after =
      { db with
        userRoles := some (withMembers tables (fun u => u.role == "admin") "super_admin" now'
          (withMembers tables (fun _ => true) "user" now []))
        triggers := triggers })
      [insertMembers (fun _ => true) "user", insertMembers (fun u => u.role == "admin") "super_admin",
        createTrigger "assign_default_user_role" "users" (fun db => db.users.isSome)] db := by
  intro now
  refine ⟨_, insertMembers_ok _ tables hUsers hRoles hUserRoles _ _ _, ?_⟩
  intro now'
  refine ⟨_, insertMembers_ok _ tables (by exact hUsers) (by exact hRoles) (by rfl) _ _ _, ?_⟩
  apply succeeds_createTrigger (by simp [hUsers])
  intro triggers
  exact ⟨triggers, now, now', rfl⟩

/-! The tables are filled one after another. Their closed contents stay folded. -/

theorem rbacTables_roles (users : Table User) (sessions : Table AuthSession) :
    (rbacTables users sessions).roles = builtInRoles.foldl insertRole Table.empty := by
  rw [rbacTables]

theorem rbacTables_permissions (users : Table User) (sessions : Table AuthSession) :
    (rbacTables users sessions).permissions = builtInPermissions.foldl insertPermission Table.empty := by
  rw [rbacTables]

theorem insertBuiltInRoles_ok {roles : Table RoleRow} (hRoles : db.roles = some roles) (now : String) :
    insertBuiltInRoles now db = .ok { db with roles := some (builtInRoles.foldl insertRole roles) } := by
  cases db
  cases hRoles
  rfl

theorem insertBuiltInPermissions_ok {permissions : Table Permission}
    (hPermissions : db.permissions = some permissions) (now : String) : insertBuiltInPermissions now db =
      .ok { db with permissions := some (builtInPermissions.foldl insertPermission permissions) } := by
  cases db
  cases hPermissions
  rfl

theorem insertGrants_ok (users : Table User) (sessions : Table AuthSession)
    (hRolePermissions : db.rolePermissions = some []) (hRoles : db.roles = some (rbacTables users sessions).roles)
    (hPermissions : db.permissions = some (rbacTables users sessions).permissions) (now : String) :
    insertGrants now db =
      .ok { db with rolePermissions := some (rbacTables users sessions).rolePermissions } := by
  rw [← insertGrants_eq users sessions]
  have hGranted : (rbacTables users sessions).rolePermissions = (rbacTables users sessions).roles.rows.flatMap
      (fun r => ((rbacTables users sessions).permissions.rows.filter (fun p => grants r.name p.name)).map
        (fun p => ⟨r.id, p.id⟩)) := by
    rw [rbacTables]
  rw [hGranted]
  generalize rbacTables users sessions = tables at *
  cases db
  cases hRolePermissions
  cases hRoles
  cases hPermissions
  rfl

/-- From empty tables to the tables that the services read. -/
theorem succeeds_fill {users : Table User} {sessions : Table AuthSession} (hUsers : db.users = some users)
    (hSessions : db.authSessions = some ⟨true, true, sessions⟩) (hRoles : db.roles = some Table.empty)
    (hPermissions : db.permissions = some Table.empty) (hUserRoles : db.userRoles = some [])
    (hRolePermissions : db.rolePermissions = some []) :
    Succeeds (fun after => after.auditEvents = db.auditEvents ∧
        ∃ now now', Shows after (Migration.createRbac users sessions now now'))
      [insertBuiltInRoles, insertBuiltInPermissions, insertGrants, insertMembers (fun _ => true) "user",
        insertMembers (fun u => u.role == "admin") "super_admin",
        createTrigger "assign_default_user_role" "users" (fun db => db.users.isSome)] db := by
  intro now
  refine ⟨_, insertBuiltInRoles_ok hRoles now, ?_⟩
  intro now
  refine ⟨_, insertBuiltInPermissions_ok (by exact hPermissions) now, ?_⟩
  rw [← rbacTables_roles users sessions, ← rbacTables_permissions users sessions]
  intro now
  refine ⟨_, insertGrants_ok users sessions (by exact hRolePermissions) (by rfl) (by rfl) now, ?_⟩
  apply Succeeds.mono _ (succeeds_members (rbacTables users sessions) (by exact hUsers) (by rfl) (by exact hUserRoles))
  rintro after ⟨triggers, now, now', rfl⟩
  refine ⟨rfl, now, now', ?_⟩
  rw [createRbac_eq]
  exact ⟨hUsers, hSessions, rfl, rfl, rfl, rfl⟩

theorem succeeds_createRbac {users : Table User} {sessions : Table AuthSession} (hUsers : db.users = some users)
    (hSessions : db.authSessions = some ⟨true, true, sessions⟩) (hNew : AtVersion 4 db) :
    Succeeds (fun after => after.auditEvents = db.auditEvents ∧
      ∃ now now', Shows after (Migration.createRbac users sessions now now')) createRbac.statements db := by
  have hRoles : db.roles = none := Option.not_isSome_iff_eq_none.mp (by simp [hNew.roles])
  have hPermissions : db.permissions = none := Option.not_isSome_iff_eq_none.mp (by simp [hNew.permissions])
  have hUserRoles : db.userRoles = none := Option.not_isSome_iff_eq_none.mp (by simp [hNew.userRoles])
  have hRolePermissions : db.rolePermissions = none :=
    Option.not_isSome_iff_eq_none.mp (by simp [hNew.rolePermissions])
  cases db
  cases hUsers
  cases hSessions
  cases hRoles
  cases hPermissions
  cases hUserRoles
  cases hRolePermissions
  intro now
  refine ⟨_, rfl, ?_⟩
  intro now
  refine ⟨_, rfl, ?_⟩
  intro now
  refine ⟨_, rfl, ?_⟩
  intro now
  refine ⟨_, rfl, ?_⟩
  apply succeeds_createIndex rfl rfl
  intro indexes
  apply succeeds_createIndex rfl rfl
  intro indexes
  exact succeeds_fill rfl rfl rfl rfl rfl rfl

end migrations

/-! ## One version after another -/

theorem numbered : Numbered migrations := by
  intro index migration hIndex
  match index with
  | 0 | 1 | 2 | 3 | 4 =>
    cases hIndex
    rfl
  | n + 5 => cases hIndex

theorem viable : Viable migrations AtVersion := by
  constructor
  · exact numbered
  · intro version migration db hIndex h
    match version with
    | 0 =>
      cases hIndex
      apply Succeeds.mono _ (succeeds_createUsers db)
      rintro after rfl
      exact ⟨rfl, h.authSessions, h.columns, h.auditEvents, h.roles, h.permissions, h.userRoles, h.rolePermissions⟩
    | 1 =>
      cases hIndex
      apply Succeeds.mono _ (succeeds_createAuthSessions db)
      rintro after ⟨indexes, rfl⟩
      refine ⟨h.users, rfl, ?_, h.auditEvents, h.roles, h.permissions, h.userRoles, h.rolePermissions⟩
      have hNone : db.authSessions = none := Option.not_isSome_iff_eq_none.mp (by simp [h.authSessions])
      rintro table hTable
      rw [hNone] at hTable
      cases hTable
      exact ⟨rfl, rfl⟩
    | 2 =>
      cases hIndex
      apply Succeeds.mono _ (succeeds_createAuditEvents db)
      rintro after ⟨indexes, triggers, rfl⟩
      exact ⟨h.users, h.authSessions, h.columns, rfl, h.roles, h.permissions, h.userRoles, h.rolePermissions⟩
    | 3 =>
      cases hIndex
      obtain ⟨sessions, hSessions⟩ := h.someSessions (by decide)
      apply Succeeds.mono _ (succeeds_addRefreshTokenFamilies hSessions)
      rintro after ⟨indexes, rfl⟩
      refine ⟨h.users, rfl, ?_, h.auditEvents, h.roles, h.permissions, h.userRoles, h.rolePermissions⟩
      rintro table hTable
      cases hTable
      exact ⟨rfl, rfl⟩
    | 4 =>
      cases hIndex
      obtain ⟨users, hUsers⟩ := h.someUsers (by decide)
      obtain ⟨sessions, hSessions⟩ := h.someSessions (by decide)
      apply Succeeds.mono _ (succeeds_createRbac hUsers hSessions h)
      rintro after ⟨hAudit, now, now', hShows⟩
      have hSome : ∀ {α : Type} {value : Option α} {a : α}, value = some a → value.isSome = true := by
        rintro α value a rfl
        rfl
      refine ⟨hSome hShows.users, hSome hShows.authSessions, ?_, (congrArg Option.isSome hAudit).trans h.auditEvents,
        hSome hShows.roles, hSome hShows.permissions, hSome hShows.userRoles, hSome hShows.rolePermissions⟩
      intro table hTable
      cases hShows.authSessions.symm.trans hTable
      exact ⟨rfl, rfl⟩
    | n + 5 => cases hIndex

end MigrationRunner

end SecureCore
