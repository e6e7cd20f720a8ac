import SecureCore.Database.Migration
import SecureCore.System.Administration

/-! # The legacy role of a user and its roles

users.role says the same as the membership in super_admin, and everyone is a member
of user: migration 5 establishes it, and every access keeps it. -/

set_option autoImplicit false

namespace SecureCore

open Interleaving Relational

/-! ## Memberships after one statement -/

namespace Database

variable {db : Database}

/-- The role with this id has this name. -/
def NamesRole (db : Database) (roleId : Int) (roleName : String) : Prop :=
  ∃ r ∈ db.roles.rows, r.id = roleId ∧ r.name = roleName

theorem hasRole_iff_namesRole {userId : Int} {roleName : String} :
    db.hasRole userId roleName = true ↔
      ∃ ur ∈ db.userRoles, ur.userId = userId ∧ db.NamesRole ur.roleId roleName :=
  hasRole_iff

theorem NamesRole.unique {roleId : Int} {name name' : String} (h : db.NamesRole roleId name)
    (h' : db.NamesRole roleId name') : name = name' := by
  obtain ⟨r, hr, hId, rfl⟩ := h
  obtain ⟨r', hr', hId', rfl⟩ := h'
  rw [Table.eq_of_key hr hr' (hId.trans hId'.symm)]

theorem namesRole_of_roleId {roleName : String} {roleId : Int} (h : db.roleId roleName = some roleId) :
    db.NamesRole roleId roleName := by
  obtain ⟨r, hFirst, hId⟩ := Option.map_eq_some_iff.mp h
  obtain ⟨hr, hName⟩ := Table.mem_of_first hFirst
  exact ⟨r, hr, hId, beq_iff_eq.mp hName⟩

@[simp] theorem insertUserRole_users (row : UserRoleRow) :
    (db.insertUserRole row).users = db.users := by
  unfold insertUserRole
  split <;> rfl

@[simp] theorem insertUserRole_roles (row : UserRoleRow) :
    (db.insertUserRole row).roles = db.roles := by
  unfold insertUserRole
  split <;> rfl

theorem hasRole_insertUserRole (row : UserRoleRow) {userId : Int} {roleName : String} :
    (db.insertUserRole row).hasRole userId roleName = true ↔
      db.hasRole userId roleName = true ∨ row.userId = userId ∧ db.NamesRole row.roleId roleName := by
  unfold insertUserRole
  split
  · rename_i hMember
    obtain ⟨ur, hMem, hSame⟩ := List.any_eq_true.mp hMember
    simp only [Bool.and_eq_true, beq_iff_eq] at hSame
    constructor
    · exact Or.inl
    · rintro (hOld | ⟨hUser, hRole⟩)
      · exact hOld
      · rw [hasRole_iff_namesRole]
        exact ⟨ur, hMem, hSame.1.trans hUser, by rwa [hSame.2]⟩
  · simp only [hasRole_iff_namesRole, NamesRole, List.mem_append, List.mem_singleton, or_and_right,
      exists_or, exists_eq_left]

theorem mem_insertUserRole {row ur : UserRoleRow} (h : ur ∈ (db.insertUserRole row).userRoles) :
    ur ∈ db.userRoles ∨ ur = row := by
  unfold insertUserRole at h
  split at h
  · exact Or.inl h
  · simpa using h

theorem hasRole_deleteUserRole {userId roleId : Int} {roleName other : String} {i : Int}
    (hRole : db.NamesRole roleId roleName) (hOther : i ≠ userId ∨ other ≠ roleName) :
    (db.deleteUserRole userId roleId).hasRole i other = db.hasRole i other := by
  rw [Bool.eq_iff_iff, hasRole_iff_namesRole, hasRole_iff_namesRole]
  constructor
  · rintro ⟨ur, hMem, hHolds⟩
    exact ⟨ur, (List.mem_filter.mp hMem).1, hHolds⟩
  · rintro ⟨ur, hMem, hUser, hNamed⟩
    refine ⟨ur, List.mem_filter.mpr ⟨hMem, ?_⟩, hUser, hNamed⟩
    simp only [Bool.not_eq_true', Bool.and_eq_false_iff, beq_eq_false_iff_ne]
    obtain hUserId | hName := hOther
    · exact Or.inl (by rwa [hUser])
    · right
      rintro rfl
      exact hName (hNamed.unique hRole)

/-- What UPDATE users SET role = ... makes of one row. -/
theorem role_setLegacyRole {userId : Int} {role now : String} {u : User}
    (hu : u ∈ (db.setLegacyRole userId role now).users.rows) :
    ∃ old ∈ db.users.rows, u.id = old.id ∧ u.role = if old.id = userId then role else old.role := by
  obtain ⟨old, hOld, rfl⟩ := Table.mem_update.mp hu
  refine ⟨old, hOld, Table.key_updated _ _ old, ?_⟩
  unfold Table.updated
  by_cases hTarget : old.id = userId <;> by_cases hRole : old.role = role <;>
    simp [hTarget, hRole, Keyed.withKey]

@[simp] theorem hasRole_setLegacyRole (userId : Int) (role now : String) (i : Int)
    (roleName : String) :
    (db.setLegacyRole userId role now).hasRole i roleName = db.hasRole i roleName := rfl

end Database

/-! ## The invariant -/

/-- The legacy role agrees with the roles of RBAC. -/
structure RolesInStep (db : Database) : Prop where
  legacy : ∀ u ∈ db.users.rows, u.role = "admin" ↔ db.hasRole u.id "super_admin" = true
  base : ∀ u ∈ db.users.rows, db.hasRole u.id "user" = true
  /-- The trigger of the registration finds the role that it assigns. -/
  baseRole : ∃ roleId, db.NamesRole roleId "user"
  members : ∀ ur ∈ db.userRoles, ur.userId < db.users.nextKey

variable {db db' : Database}

/-- The columns that the invariant is about. -/
def User.roleColumns (u : User) : Int × String := (u.id, u.role)

structure KeepsRoles (db db' : Database) : Prop where
  users : db'.users.rows.map User.roleColumns = db.users.rows.map User.roleColumns
  nextKey : db'.users.nextKey = db.users.nextKey
  userRoles : db'.userRoles = db.userRoles
  roles : db'.roles = db.roles

theorem KeepsRoles.hasRole (h : KeepsRoles db db') (userId : Int) (roleName : String) :
    db'.hasRole userId roleName = db.hasRole userId roleName := by
  simp only [Database.hasRole, h.userRoles, h.roles]

theorem RolesInStep.kept (h : RolesInStep db) (hKeeps : KeepsRoles db db') : RolesInStep db' := by
  have hOld : ∀ u ∈ db'.users.rows, ∃ old ∈ db.users.rows, old.id = u.id ∧ old.role = u.role := by
    intro u hu
    have hMem : u.roleColumns ∈ db.users.rows.map User.roleColumns := by
      rw [← hKeeps.users]
      exact List.mem_map_of_mem hu
    obtain ⟨old, hOld, hLegacy⟩ := List.mem_map.mp hMem
    exact ⟨old, hOld, congrArg Prod.fst hLegacy, congrArg Prod.snd hLegacy⟩
  constructor
  · intro u hu
    obtain ⟨old, hMem, hId, hRole⟩ := hOld u hu
    rw [hKeeps.hasRole, ← hId, ← hRole]
    exact h.legacy old hMem
  · intro u hu
    obtain ⟨old, hMem, hId, -⟩ := hOld u hu
    rw [hKeeps.hasRole, ← hId]
    exact h.base old hMem
  · unfold Database.NamesRole
    rw [hKeeps.roles]
    exact h.baseRole
  · rw [hKeeps.userRoles, hKeeps.nextKey]
    exact h.members

/-- A new user gets the role user from the trigger and no other role. -/
theorem RolesInStep.insertUser (h : RolesInStep db) {input : CreateUser} (hRole : input.role = "user")
    (now : String) : RolesInStep (db.insertUser input now) := by
  have hMember : ∀ {userId : Int} {roleName : String},
      (db.insertUser input now).hasRole userId roleName = true ↔
        db.hasRole userId roleName = true ∨
          db.users.nextKey = userId ∧ roleName = "user" := by
    intro userId roleName
    obtain ⟨roleId, r, hr, hId, hName⟩ := h.baseRole
    simp only [Database.hasRole_iff_namesRole]
    constructor
    · rintro ⟨ur, hMem, hUser, hNamed⟩
      obtain hOld | hNew := List.mem_append.mp hMem
      · exact Or.inl ⟨ur, hOld, hUser, hNamed⟩
      · obtain ⟨r', hr', rfl⟩ := List.mem_map.mp hNew
        obtain ⟨hMem', hUserRole⟩ := List.mem_filter.mp hr'
        exact Or.inr ⟨hUser, hNamed.unique ⟨r', hMem', rfl, beq_iff_eq.mp hUserRole⟩⟩
    · rintro (⟨ur, hMem, hHolds⟩ | ⟨hUser, rfl⟩)
      · exact ⟨ur, List.mem_append_left _ hMem, hHolds⟩
      · refine ⟨⟨db.users.nextKey, r.id, none, now⟩, List.mem_append_right _ ?_, hUser,
          r, hr, rfl, hName⟩
        exact List.mem_map.mpr ⟨r, List.mem_filter.mpr ⟨hr, by simp [hName]⟩, rfl⟩
  have hNoMember : ∀ roleName, ¬ db.hasRole db.users.nextKey roleName = true := by
    intro roleName hHolds
    obtain ⟨ur, hMem, hUser, -⟩ := Database.hasRole_iff.mp hHolds
    have hOlder := h.members ur hMem
    omega
  constructor
  · intro u hu
    rw [hMember]
    obtain hOld | rfl := Table.mem_insert.mp hu
    · rw [h.legacy u hOld]
      simp
    · have hNone := hNoMember "super_admin"
      simp [Keyed.withKey, hRole, hNone]
  · intro u hu
    rw [hMember]
    obtain hOld | rfl := Table.mem_insert.mp hu
    · exact Or.inl (h.base u hOld)
    · exact Or.inr ⟨rfl, rfl⟩
  · exact h.baseRole
  · intro ur hMem
    obtain hOld | hNew := List.mem_append.mp hMem
    · exact Int.lt_trans (h.members ur hOld) (Int.lt_succ _)
    · obtain ⟨r, -, rfl⟩ := List.mem_map.mp hNew
      exact Int.lt_succ _

theorem RolesInStep.grantRole (h : RolesInStep db) {userId roleId : Int} {roleName : String}
    {assignedBy : Option Int} (hUser : db.userExists userId = true)
    (hRole : db.NamesRole roleId roleName) (now now' : String) :
    RolesInStep (db.grantRole ⟨userId, roleId, assignedBy, now⟩ roleName now') := by
  have hNamed : ∀ {name}, db.NamesRole roleId name ↔ roleName = name := by
    intro name
    constructor
    · exact hRole.unique
    · rintro rfl
      exact hRole
  have hMembers : ∀ ur ∈ (db.insertUserRole ⟨userId, roleId, assignedBy, now⟩).userRoles,
      ur.userId < db.users.nextKey := by
    intro ur hMem
    obtain hOld | rfl := Database.mem_insertUserRole hMem
    · exact h.members ur hOld
    · obtain ⟨user, hFound⟩ := Option.isSome_iff_exists.mp hUser
      obtain ⟨hStored, hId⟩ := Database.findUserById_eq_some hFound
      rw [← hId]
      exact Table.lt_nextKey hStored
  have hBaseRole : ∃ roleId', (db.insertUserRole ⟨userId, roleId, assignedBy, now⟩).NamesRole
      roleId' "user" := by
    unfold Database.NamesRole
    rw [Database.insertUserRole_roles]
    exact h.baseRole
  unfold Database.grantRole
  by_cases hSuper : roleName = "super_admin"
  · rw [if_pos hSuper]
    constructor
    · intro u hu
      obtain ⟨old, hOld, hId, hLegacy⟩ := Database.role_setLegacyRole hu
      rw [Database.insertUserRole_users] at hOld
      rw [Database.hasRole_setLegacyRole, Database.hasRole_insertUserRole, hLegacy, hId, hNamed]
      by_cases hTarget : old.id = userId
      · simp [hTarget, hSuper]
      · rw [if_neg hTarget, h.legacy old hOld]
        simp [Ne.symm hTarget]
    · intro u hu
      obtain ⟨old, hOld, hId, -⟩ := Database.role_setLegacyRole hu
      rw [Database.insertUserRole_users] at hOld
      rw [Database.hasRole_setLegacyRole, Database.hasRole_insertUserRole, hId]
      exact Or.inl (h.base old hOld)
    · exact hBaseRole
    · intro ur hMem
      have hNext : (db.insertUserRole ⟨userId, roleId, assignedBy, now⟩).users.nextKey =
          db.users.nextKey := by
        rw [Database.insertUserRole_users]
      exact lt_of_lt_of_eq (hMembers ur hMem) hNext.symm
  · rw [if_neg hSuper]
    constructor
    · intro u hu
      rw [Database.insertUserRole_users] at hu
      rw [Database.hasRole_insertUserRole, hNamed, h.legacy u hu]
      simp [hSuper]
    · intro u hu
      rw [Database.insertUserRole_users] at hu
      rw [Database.hasRole_insertUserRole]
      exact Or.inl (h.base u hu)
    · exact hBaseRole
    · intro ur hMem
      rw [Database.insertUserRole_users]
      exact hMembers ur hMem

theorem RolesInStep.removeRole (h : RolesInStep db) {userId roleId : Int} {roleName : String}
    (hRole : db.NamesRole roleId roleName) (hBase : roleName ≠ "user") (now : String) :
    RolesInStep (db.removeRole userId roleId roleName now) := by
  have hUser : ∀ i, (db.deleteUserRole userId roleId).hasRole i "user" = db.hasRole i "user" :=
    fun i => Database.hasRole_deleteUserRole hRole (Or.inr hBase.symm)
  have hMembers : ∀ ur ∈ (db.deleteUserRole userId roleId).userRoles,
      ur.userId < db.users.nextKey :=
    fun ur hMem => h.members ur (List.mem_filter.mp hMem).1
  unfold Database.removeRole
  by_cases hLost : roleName = "super_admin" ∧
      (db.deleteUserRole userId roleId).hasRole userId "super_admin" = false
  · rw [if_pos hLost]
    constructor
    · intro u hu
      obtain ⟨old, hOld, hId, hLegacy⟩ := Database.role_setLegacyRole hu
      rw [Database.hasRole_setLegacyRole, hLegacy, hId]
      by_cases hTarget : old.id = userId
      · simp [hTarget, hLost.2]
      · rw [if_neg hTarget, Database.hasRole_deleteUserRole hRole (Or.inl hTarget)]
        exact h.legacy old hOld
    · intro u hu
      obtain ⟨old, hOld, hId, -⟩ := Database.role_setLegacyRole hu
      rw [Database.hasRole_setLegacyRole, hUser, hId]
      exact h.base old hOld
    · exact h.baseRole
    · exact hMembers
  · rw [if_neg hLost]
    constructor
    · intro u hu
      have hSame : (db.deleteUserRole userId roleId).hasRole u.id "super_admin" =
          db.hasRole u.id "super_admin" := by
        by_cases hTarget : u.id = userId ∧ roleName = "super_admin"
        · obtain ⟨rfl, rfl⟩ := hTarget
          -- the membership is still there, so it was there before
          have hKept : (db.deleteUserRole u.id roleId).hasRole u.id "super_admin" = true := by
            simpa using hLost
          have hHeld : db.hasRole u.id "super_admin" = true := by
            obtain ⟨ur, hMem, hHolds⟩ := Database.hasRole_iff.mp hKept
            exact Database.hasRole_iff.mpr ⟨ur, (List.mem_filter.mp hMem).1, hHolds⟩
          rw [hKept, hHeld]
        · apply Database.hasRole_deleteUserRole hRole
          by_cases hId : u.id = userId
          · exact Or.inr (fun hName => hTarget ⟨hId, hName.symm⟩)
          · exact Or.inl hId
      rw [hSame]
      exact h.legacy u hu
    · intro u hu
      rw [hUser]
      exact h.base u hu
    · exact h.baseRole
    · exact hMembers

/-! ## Every access keeps it -/

theorem keepsRoles_of_eq (hUsers : db'.users = db.users) (hUserRoles : db'.userRoles = db.userRoles)
    (hRoles : db'.roles = db.roles) : KeepsRoles db db' :=
  ⟨by rw [hUsers], by rw [hUsers], hUserRoles, hRoles⟩

theorem keepsRoles_setPasswordHash (db : Database) (userId : Int) (passwordHash now : String) :
    KeepsRoles db (db.setPasswordHash userId passwordHash now) :=
  ⟨Table.map_update db.users _ (fun _ => rfl), rfl, rfl, rfl⟩

theorem keepsRoles_setEnabled (db : Database) (userId : Int) (enabled : Bool) (now : String) :
    KeepsRoles db (db.setEnabled userId enabled now) :=
  ⟨Table.map_update db.users _ (fun _ => rfl), rfl, rfl, rfl⟩

theorem keepsRoles_changePassword (db : Database) (userId sessionId : Int)
    (passwordHash now revokedAt : String) :
    KeepsRoles db (db.changePassword userId sessionId passwordHash now revokedAt) :=
  ⟨Table.map_update db.users _ (fun _ => rfl), rfl, rfl, rfl⟩

theorem keepsRoles_disableUser (db : Database) (userId : Int) (now revokedAt : String) :
    KeepsRoles db (db.disableUser userId now revokedAt) :=
  ⟨Table.map_update db.users _ (fun _ => rfl), rfl, rfl, rfl⟩

theorem AuthService.RefreshOutcome.keepsRoles {tokenHash : String} {now : Int}
    {r : Except Exception LoginResult} {events : List Event}
    (h : RefreshOutcome db tokenHash now r db' events) : KeepsRoles db db' := by
  cases h with
  | reusedUser revokedAt hFound hRevoked hFamily =>
    split <;> exact keepsRoles_of_eq rfl rfl rfl
  | _ => exact keepsRoles_of_eq rfl rfl rfl

theorem AdminChange.rolesInStep {userId : Int} {action : AdminAction}
    (hChange : AdminChange db userId action db') (h : RolesInStep db) : RolesInStep db' := by
  cases hChange with
  | enabled now => exact h.kept (keepsRoles_setEnabled db userId true now)
  | disabled now revokedAt hUser hGuard => exact h.kept (keepsRoles_disableUser db userId _ _)
  | alreadyEnabled | alreadyDisabled => exact h
  | granted now now' hUser hRole =>
    exact h.grantRole hUser (Database.namesRole_of_roleId hRole) now now'
  | removed now hUser hRole hGuard hBase =>
    exact h.removeRole (Database.namesRole_of_roleId hRole) hBase now

theorem Obeys.rolesInStep {d : Deployment} {op : Operation} {past : List (Act World Event)}
    {act : Act World Event} (hObeys : Obeys d op past act) (h : RolesInStep act.before.database) :
    RolesInStep act.after.database := by
  cases hObeys with
  | reads hSame hEvents =>
    rw [hSame]
    exact h
  | register now hUnused hAfter hEvents hRole =>
    rw [hAfter]
    exact h.insertUser hRole now
  | upgradeHash salt now hReady hAfter hEvents =>
    rw [hAfter]
    exact h.kept (keepsRoles_setPasswordHash _ _ _ _)
  | refresh hOutcome => exact h.kept hOutcome.keepsRoles
  | changePassword salt now revokedAt hReady hAfter hEvents =>
    rw [hAfter]
    exact h.kept (keepsRoles_changePassword _ _ _ _ _ _)
  | administer hRequest hAuthorised hChange hEvents => exact hChange.rolesInStep h
  | secureAdmin hAction hChange hEvents => exact hChange.rolesInStep h
  | openSession _ _ _ hAfter | logout _ _ _ hAfter | logoutAll _ _ _ hAfter
  | revokeSession _ _ _ hAfter | expire hAfter =>
    rw [hAfter]
    exact h.kept (keepsRoles_of_eq rfl rfl rfl)

/-! ## Migration 5 establishes it -/

namespace Migration

theorem insertUserRoles_users (rows : List UserRoleRow) (db : Database) :
    (rows.foldl Database.insertUserRole db).users = db.users := by
  induction rows generalizing db with
  | nil => rfl
  | cons row rows ih => rw [List.foldl_cons, ih, Database.insertUserRole_users]

theorem insertUserRoles_roles (rows : List UserRoleRow) (db : Database) :
    (rows.foldl Database.insertUserRole db).roles = db.roles := by
  induction rows generalizing db with
  | nil => rfl
  | cons row rows ih => rw [List.foldl_cons, ih, Database.insertUserRole_roles]

theorem mem_insertUserRoles {rows : List UserRoleRow} {db : Database} {ur : UserRoleRow}
    (h : ur ∈ (rows.foldl Database.insertUserRole db).userRoles) : ur ∈ db.userRoles ∨ ur ∈ rows := by
  induction rows generalizing db with
  | nil => exact Or.inl h
  | cons row rows ih =>
    obtain hOld | hNew := ih h
    · obtain hOld | rfl := Database.mem_insertUserRole hOld
      · exact Or.inl hOld
      · exact Or.inr List.mem_cons_self
    · exact Or.inr (List.mem_cons_of_mem _ hNew)

theorem hasRole_insertUserRoles {rows : List UserRoleRow} {db : Database} {userId : Int}
    {roleName : String} :
    (rows.foldl Database.insertUserRole db).hasRole userId roleName = true ↔
      db.hasRole userId roleName = true ∨
        ∃ row ∈ rows, row.userId = userId ∧ db.NamesRole row.roleId roleName := by
  induction rows generalizing db with
  | nil => simp
  | cons row rows ih =>
    have hNamed : ∀ roleId, (db.insertUserRole row).NamesRole roleId roleName ↔
        db.NamesRole roleId roleName := by
      intro roleId
      unfold Database.NamesRole
      rw [Database.insertUserRole_roles]
    rw [List.foldl_cons, ih, Database.hasRole_insertUserRole]
    simp only [hNamed, List.mem_cons, exists_eq_or_imp, or_assoc]

theorem mem_selectMembers {db : Database} {condition : User → Bool} {roleName now : String}
    {ur : UserRoleRow} : ur ∈ selectMembers db condition roleName now ↔
      ∃ u ∈ db.users.rows, condition u = true ∧ ∃ r ∈ db.roles.rows, r.name = roleName ∧
        ur = ⟨u.id, r.id, none, now⟩ := by
  simp only [selectMembers, List.mem_flatMap, List.mem_map, List.mem_filter, beq_iff_eq]
  constructor
  · rintro ⟨u, ⟨hu, hCondition⟩, r, ⟨hr, hName⟩, rfl⟩
    exact ⟨u, hu, hCondition, r, hr, hName, rfl⟩
  · rintro ⟨u, hu, hCondition, r, hr, hName, rfl⟩
    exact ⟨u, ⟨hu, hCondition⟩, r, ⟨hr, hName⟩, rfl⟩

/-- The members that the SELECT finds have the role of that name and no other. -/
theorem holds_selectMembers {db : Database} {condition : User → Bool} {roleName other now : String}
    (hRole : ∃ roleId, db.NamesRole roleId roleName) {u : User} (hu : u ∈ db.users.rows) :
    (∃ ur ∈ selectMembers db condition roleName now, ur.userId = u.id ∧
      db.NamesRole ur.roleId other) ↔ condition u = true ∧ other = roleName := by
  constructor
  · rintro ⟨ur, hMem, hUser, hNamed⟩
    obtain ⟨u', hu', hCondition, r, hr, hName, rfl⟩ := mem_selectMembers.mp hMem
    obtain rfl : u' = u := Table.eq_of_key hu' hu hUser
    exact ⟨hCondition, hNamed.unique ⟨r, hr, rfl, hName⟩⟩
  · rintro ⟨hCondition, rfl⟩
    obtain ⟨roleId, r, hr, rfl, hName⟩ := hRole
    exact ⟨⟨u.id, r.id, none, now⟩,
      mem_selectMembers.mpr ⟨u, hu, hCondition, r, hr, hName, rfl⟩, rfl, r, hr, rfl, hName⟩

variable (users : Table User) (authSessions : Table AuthSession)

theorem rbacTables_names :
    (∃ roleId, (rbacTables users authSessions).NamesRole roleId "user") ∧
      ∃ roleId, (rbacTables users authSessions).NamesRole roleId "super_admin" := by
  have hNames : ∀ roleName ∈ ["user", "super_admin"],
      ∃ r ∈ (builtInRoles.foldl insertRole Table.empty).rows, r.name = roleName := by
    decide
  obtain ⟨r, hr, hUser⟩ := hNames "user" (by simp)
  obtain ⟨r', hr', hSuperAdmin⟩ := hNames "super_admin" (by simp)
  exact ⟨⟨r.id, r, hr, rfl, hUser⟩, r'.id, r', hr', rfl, hSuperAdmin⟩

/-- Who holds a role after the migration. -/
theorem hasRole_createRbac (now now' : String) {u : User} (hu : u ∈ users.rows) (roleName : String) :
    (createRbac users authSessions now now').hasRole u.id roleName = true ↔
      roleName = "user" ∨ u.role = "admin" ∧ roleName = "super_admin" := by
  obtain ⟨hUser, hSuperAdmin⟩ := rbacTables_names users authSessions
  have hNone : (rbacTables users authSessions).hasRole u.id roleName = false := rfl
  have hMiddle : ∀ roleId name, ((selectMembers (rbacTables users authSessions) (fun _ => true)
      "user" now).foldl Database.insertUserRole (rbacTables users authSessions)).NamesRole roleId name ↔
        (rbacTables users authSessions).NamesRole roleId name := by
    intro roleId name
    unfold Database.NamesRole
    rw [insertUserRoles_roles]
  unfold createRbac
  rw [hasRole_insertUserRoles, hasRole_insertUserRoles, hNone,
    holds_selectMembers hUser (by exact hu), holds_selectMembers]
  · simp
  · simpa only [hMiddle] using hSuperAdmin
  · rw [insertUserRoles_users]
    exact hu

theorem rolesInStep_createRbac (now now' : String) :
    RolesInStep (createRbac users authSessions now now') := by
  have hUsers : (createRbac users authSessions now now').users = users := by
    unfold createRbac
    rw [insertUserRoles_users, insertUserRoles_users]
    rfl
  have hMember : ∀ {db : Database} {condition : User → Bool} {roleName now : String}
      {ur : UserRoleRow}, db.users = users → ur ∈ selectMembers db condition roleName now →
      ur.userId < users.nextKey := by
    intro db condition roleName now ur hSame hMem
    obtain ⟨u, hu, -, r, -, -, rfl⟩ := mem_selectMembers.mp hMem
    rw [hSame] at hu
    exact Table.lt_nextKey hu
  constructor
  · intro u hu
    rw [hUsers] at hu
    rw [hasRole_createRbac users authSessions now now' hu]
    simp
  · intro u hu
    rw [hUsers] at hu
    rw [hasRole_createRbac users authSessions now now' hu]
    exact Or.inl rfl
  · unfold Database.NamesRole createRbac
    rw [insertUserRoles_roles, insertUserRoles_roles]
    exact (rbacTables_names users authSessions).1
  · intro ur hMem
    rw [hUsers]
    obtain hMem | hAdmin := mem_insertUserRoles hMem
    · obtain hNone | hUser := mem_insertUserRoles hMem
      · cases hNone
      · exact hMember rfl hUser
    · exact hMember (insertUserRoles_users _ _) hAdmin

end Migration

/-! ## Runs -/

section runs

variable {τ : Type} [DecidableEq τ]

/-- Whatever the calls do after migration 5, users.role is admin exactly for the members
of super_admin, and every user is a member of user. -/
theorem legacy_role_in_step (d : Deployment) (calls : τ → Operation) (users : Table User)
    (authSessions : Table AuthSession) (now now' : String) (protectors : Nat → AuthAbuseProtector)
    (schedule : List (τ × (Nat → Surroundings))) :
    let db := ((d.pool calls ⟨Migration.createRbac users authSessions now now', protectors⟩).run
      schedule).state.database
    ∀ u ∈ db.users.rows, (u.role = "admin" ↔ db.hasRole u.id "super_admin" = true) ∧
      db.hasRole u.id "user" = true := by
  have hRun := running_pool d calls
    ⟨Migration.createRbac users authSessions now now', protectors⟩ schedule
  have hInStep : RolesInStep ((d.pool calls
      ⟨Migration.createRbac users authSessions now now', protectors⟩).run
      schedule).state.database := by
    rw [hRun.state]
    apply Execution.invariant (I := fun w _ => RolesInStep w.database) _ _ hRun.execution
    · exact Migration.rolesInStep_createRbac users authSessions now now'
    · intro e older hEntry hBefore
      exact hEntry.uncons.2.2.rolesInStep hBefore
  intro db u hu
  exact ⟨hInStep.legacy u hu, hInStep.base u hu⟩

end runs

end SecureCore
