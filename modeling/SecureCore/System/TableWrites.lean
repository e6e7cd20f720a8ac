import SecureCore.System.BuiltInRoles

/-! # What one access writes

Either sessions only, or one of the writes to the users and their roles, whatever becomes
of the sessions. The roles, the permissions and what a role grants are never written. -/

namespace SecureCore

set_option autoImplicit false

open Interleaving Relational

/-- The operations of administrators that grant anything. -/
theorem Operation.assignRole_of_grant {op : Operation} {request : AdminRequest} {administrator : User}
    {roleName : String} {assignedBy : Option Int} (hRequest : op.adminRequest = some request)
    (hAction : request.action administrator = .grant roleName assignedBy) :
    ∃ process accessToken, op = .assignRole process accessToken request.targetUserId roleName ∧
      assignedBy = some administrator.id := by
  cases op with
  | setUserEnabled process accessToken targetUserId enabled =>
    cases hRequest
    cases enabled <;> cases hAction
  | assignRole process accessToken targetUserId name =>
    cases hRequest
    cases hAction
    exact ⟨process, accessToken, rfl, rfl⟩
  | revokeRole process accessToken targetUserId name =>
    cases hRequest
    cases hAction
  | _ => cases hRequest

theorem SecureAdmin.Command.grants_nobody {command : SecureAdmin.Command} {roleName : String}
    {assignedBy : Option Int} (hAction : command.action = some (.grant roleName assignedBy)) :
    assignedBy = none := by
  cases command <;> cases hAction <;> rfl

/-- An administrator records itself in the role that it grants. -/
structure Assigner (past : List (Act World Event)) (action : AdminAction) : Prop where
  read : ∀ roleName assignedBy, action = .grant roleName (some assignedBy) →
    ∃ administrator : User, assignedBy = administrator.id ∧ ∃ act ∈ past, UserRead act administrator

inductive TableWrite (past : List (Act World Event)) (db db' : Database) : Prop
  | sessions {t : Table AuthSession} (hAfter : db' = { db with authSessions := t })
  | registered {input : CreateUser} {now : String} (hUnused : db.duplicatesUser input = false)
      (hRole : input.role = "user") (hAfter : db' = db.insertUser input now)
  | passwordHash {userId : Int} {passwordHash now : String} {t : Table AuthSession}
      (hAfter : db' = { db.setPasswordHash userId passwordHash now with authSessions := t })
  | administered {userId : Int} {action : AdminAction} (hAssigner : Assigner past action)
      (hChange : AdminChange db userId action db')

theorem AuthService.RefreshOutcome.tableWrite {db db' : Database} {tokenHash : String} {now : Int}
    {r : Except Exception LoginResult} {events : List Event}
    (h : RefreshOutcome db tokenHash now r db' events) (past : List (Act World Event)) :
    TableWrite past db db' := by
  cases h with
  | reusedUser revokedAt hFound hRevoked hFamily => split <;> exact .sessions rfl
  | _ => exact .sessions rfl

theorem Obeys.tableWrite {d : Deployment} {op : Operation} {past : List (Act World Event)}
    {act : Act World Event} (h : Obeys d op past act) :
    TableWrite past act.before.database act.after.database := by
  cases h with
  | reads hSame hEvents => exact .sessions hSame
  | register now hUnused hAfter hEvents hRole => exact .registered hUnused hRole hAfter
  | upgradeHash salt now hReady hAfter hEvents => exact .passwordHash hAfter
  | changePassword salt now revokedAt hReady hAfter hEvents => exact .passwordHash hAfter
  | refresh hOutcome => exact hOutcome.tableWrite past
  | @administer _ _ _ request administrator hRequest hAuthorised hChange hEvents =>
    refine .administered ⟨fun roleName assignedBy hGrant => ?_⟩ hChange
    obtain ⟨-, -, -, hAssignedBy⟩ := Operation.assignRole_of_grant hRequest hGrant
    obtain ⟨session, sessionAct, userAct, permissionAct, hPast, hAuthenticated, -⟩ := hAuthorised
    exact ⟨administrator, Option.some.inj hAssignedBy, userAct, hPast.subset (by simp),
      hAuthenticated.readUser⟩
  | secureAdmin hAction hChange hEvents =>
    refine .administered ⟨fun roleName assignedBy hGrant => ?_⟩ hChange
    rw [hGrant] at hAction
    cases SecureAdmin.Command.grants_nobody hAction
  | openSession _ _ _ hAfter | logout _ _ _ hAfter | logoutAll _ _ _ hAfter
  | revokeSession _ _ _ hAfter | expire hAfter => exact .sessions hAfter

/-! ## What no access writes -/

section grants

variable {past : List (Act World Event)} {db db' : Database}

theorem rolePermissions_insertUserRole (row : UserRoleRow) :
    (db.insertUserRole row).rolePermissions = db.rolePermissions := by
  unfold Database.insertUserRole
  split <;> rfl

theorem AdminChange.rolePermissions {userId : Int} {action : AdminAction}
    (h : AdminChange db userId action db') : db'.rolePermissions = db.rolePermissions := by
  cases h with
  | granted now now' hUser hRole =>
    unfold Database.grantRole
    simp only
    split <;> exact rolePermissions_insertUserRole _
  | removed now hUser hRole hGuard hBase =>
    unfold Database.removeRole
    simp only
    split <;> rfl
  | _ => rfl

theorem TableWrite.rolePermissions (h : TableWrite past db db') : db'.rolePermissions = db.rolePermissions := by
  cases h with
  | sessions hAfter | registered _ _ hAfter | passwordHash hAfter =>
    simp only [hAfter, Database.insertUser, Database.setPasswordHash]
  | administered _ hChange => exact hChange.rolePermissions

/-- The tables that migration 5 fills and nothing writes afterwards. -/
structure KeepsGrants (db db' : Database) : Prop extends KeepsTables db db' where
  rolePermissions : db'.rolePermissions = db.rolePermissions

namespace KeepsGrants

theorem refl (db : Database) : KeepsGrants db db := ⟨⟨rfl, rfl⟩, rfl⟩

theorem trans {db'' : Database} (h : KeepsGrants db db') (h' : KeepsGrants db' db'') : KeepsGrants db db'' :=
  ⟨h.toKeepsTables.trans h'.toKeepsTables, h'.rolePermissions.trans h.rolePermissions⟩

theorem namesRole (h : KeepsGrants db db') {roleId : Int} {roleName : String} :
    db'.NamesRole roleId roleName ↔ db.NamesRole roleId roleName := by
  unfold Database.NamesRole
  rw [h.roles]

end KeepsGrants

end grants

theorem Obeys.keepsGrants {d : Deployment} {op : Operation} {past : List (Act World Event)}
    {act : Act World Event} (h : Obeys d op past act) :
    KeepsGrants act.before.database act.after.database :=
  ⟨h.keepsTables, h.tableWrite.rolePermissions⟩

end SecureCore
