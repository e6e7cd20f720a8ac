import Mathlib.Data.Set.Basic
import SecureCore.System.Sample
import SecureCore.System.TableWrites
import SecureCore.System.UserGrowth

/-! # Where memberships come from

A row of user_roles is there from the start, or a registration, an authorised
administrator or secure-admin has put it there. -/

namespace SecureCore

set_option autoImplicit false

open Interleaving Relational

/-- How an access of a call of `op` comes to add a row to user_roles. -/
inductive Granted (d : Deployment) (op : Operation) (past : List (Act World Event))
    (act : Act World Event) (ur : UserRoleRow) : Prop
  | registered {username email password : String} (hOp : op = .registerUser username email password)
      (hUser : ur.userId = act.before.database.users.nextKey)
      (hRole : act.before.database.NamesRole ur.roleId "user") (hNobody : ur.assignedByUserId = none)
  | assigned {process : Nat} {accessToken roleName : String} {request : AdminRequest} {administrator : User}
      (hOp : op = .assignRole process accessToken ur.userId roleName)
      (hRequest : op.adminRequest = some request) (hAuthorised : Authorised d request administrator past)
      (hRole : act.before.database.NamesRole ur.roleId roleName)
      (hAssignedBy : ur.assignedByUserId = some administrator.id)
  | commanded {command : SecureAdmin.Command} {identifier roleName : String}
      (hOp : op = .secureAdmin command identifier) (hAction : command.action = some (.grant roleName none))
      (hRole : act.before.database.NamesRole ur.roleId roleName) (hNobody : ur.assignedByUserId = none)

/-- A change by an administrator adds the row that it grants and no other. -/
theorem AdminChange.mem_userRoles {db db' : Database} {userId : Int} {action : AdminAction}
    (h : AdminChange db userId action db') {ur : UserRoleRow} (hMem : ur ∈ db'.userRoles) :
    ur ∈ db.userRoles ∨ ∃ roleName assignedBy, action = .grant roleName assignedBy ∧
      ur.userId = userId ∧ db.NamesRole ur.roleId roleName ∧ ur.assignedByUserId = assignedBy := by
  cases h with
  | enabled now => exact .inl hMem
  | disabled now revokedAt hUser hGuard => exact .inl hMem
  | alreadyEnabled | alreadyDisabled => exact .inl hMem
  | @granted roleName assignedBy roleId now now' hUser hRole =>
    have hInserted : ur ∈ (db.insertUserRole ⟨userId, roleId, assignedBy, now⟩).userRoles := by
      unfold Database.grantRole at hMem
      simp only at hMem
      split at hMem
      · exact hMem
      · exact hMem
    rcases Database.mem_insertUserRole hInserted with hOld | rfl
    · exact .inl hOld
    · exact .inr ⟨roleName, assignedBy, rfl, rfl, Database.namesRole_of_roleId hRole, rfl⟩
  | removed now hUser hRole hGuard hBase =>
    unfold Database.removeRole at hMem
    simp only at hMem
    split at hMem <;> exact .inl (List.mem_filter.mp hMem).1

theorem AuthService.RefreshOutcome.userRoles {db db' : Database} {tokenHash : String} {now : Int}
    {r : Except Exception LoginResult} {events : List Event}
    (h : RefreshOutcome db tokenHash now r db' events) : db'.userRoles = db.userRoles :=
  h.keepsRoles.userRoles

theorem Obeys.granted {d : Deployment} {op : Operation} {past : List (Act World Event)}
    {act : Act World Event} (h : Obeys d op past act) {ur : UserRoleRow}
    (hMem : ur ∈ act.after.database.userRoles) :
    ur ∈ act.before.database.userRoles ∨ Granted d op past act ur := by
  cases h with
  | reads hSame hEvents =>
    rw [hSame] at hMem
    exact .inl hMem
  | register now hUnused hAfter hEvents hRole =>
    rw [hAfter] at hMem
    rcases List.mem_append.mp hMem with hOld | hNew
    · exact .inl hOld
    · obtain ⟨r, hr, rfl⟩ := List.mem_map.mp hNew
      obtain ⟨hr, hName⟩ := List.mem_filter.mp hr
      exact .inr (.registered rfl rfl ⟨r, hr, rfl, beq_iff_eq.mp hName⟩ rfl)
  | refresh hOutcome =>
    rw [hOutcome.userRoles] at hMem
    exact .inl hMem
  | administer hRequest hAuthorised hChange hEvents =>
    rcases hChange.mem_userRoles hMem with hOld | ⟨roleName, assignedBy, hAction, hUser, hRole, hBy⟩
    · exact .inl hOld
    · obtain ⟨process, accessToken, hOp, hAssignedBy⟩ := Operation.assignRole_of_grant hRequest hAction
      rw [← hUser] at hOp
      exact .inr (.assigned hOp hRequest hAuthorised hRole (hBy.trans hAssignedBy))
  | secureAdmin hAction hChange hEvents =>
    rcases hChange.mem_userRoles hMem with hOld | ⟨roleName, assignedBy, rfl, hUser, hRole, hBy⟩
    · exact .inl hOld
    · obtain rfl := SecureAdmin.Command.grants_nobody hAction
      exact .inr (.commanded rfl hAction hRole hBy)
  | upgradeHash _ _ _ hAfter | changePassword _ _ _ _ hAfter | openSession _ _ _ hAfter
  | logout _ _ _ hAfter | logoutAll _ _ _ hAfter | revokeSession _ _ _ hAfter | expire hAfter =>
    rw [hAfter] at hMem
    exact .inl hMem

/-! ## Without an administrator -/

/-- What `authenticate_with_permission` accepts of a user. -/
def permissionsOf (db : Database) (userId : Int) : Set String :=
  { permission | db.hasPermission userId permission = true }

/-- Since `start` only memberships of the base role have been added. -/
structure Powerless (start db : Database) : Prop where
  grants : KeepsGrants start db
  members : ∀ ur ∈ db.userRoles, ur ∈ start.userRoles ∨ start.NamesRole ur.roleId "user"

namespace Powerless

variable {start db : Database}

theorem refl (start : Database) : Powerless start start := ⟨.refl start, fun _ hMem => .inl hMem⟩

/-- The base role grants nothing, so nobody has gained a permission. -/
theorem permissions (h : Powerless start db)
    (hBase : ∀ rp ∈ start.rolePermissions, ¬ start.NamesRole rp.roleId "user") (userId : Int) :
    permissionsOf db userId ⊆ permissionsOf start userId := by
  intro permission hGranted
  rw [permissionsOf, Set.mem_ofPred_eq, Database.hasPermission] at hGranted ⊢
  rw [h.grants.rolePermissions, h.grants.permissions] at hGranted
  obtain ⟨ur, hMem, hHolds⟩ := List.any_eq_true.mp hGranted
  rcases h.members ur hMem with hOld | hUser
  · exact List.any_eq_true.mpr ⟨ur, hOld, hHolds⟩
  · rw [Bool.and_eq_true, List.any_eq_true] at hHolds
    obtain ⟨-, rp, hGrant, hRole⟩ := hHolds
    rw [Bool.and_eq_true, beq_iff_eq] at hRole
    have hNamed : start.NamesRole rp.roleId "user" := by rwa [hRole.1]
    exact absurd hNamed (hBase rp hGrant)

end Powerless

theorem Operation.permission_of_assignRole {process : Nat} {accessToken roleName : String} {userId : Int}
    {request : AdminRequest}
    (hRequest : (Operation.assignRole process accessToken userId roleName).adminRequest = some request) :
    request.permission = "roles.manage" := by
  cases hRequest
  rfl

section runs

variable {τ : Type} [DecidableEq τ] {d : Deployment} {calls : τ → Operation} {start : World}

/-- An access adds no power where nobody has ever been allowed to manage roles. -/
theorem Powerless.access {e : Entry τ World Event} {older : List (Entry τ World Event)}
    (hObeys : Obeys d (calls e.thread) (own e.thread older) e.toAct)
    (hNobody : ∀ userId, start.database.hasPermission userId "roles.manage" = false)
    (hBase : ∀ rp ∈ start.database.rolePermissions, ¬ start.database.NamesRole rp.roleId "user")
    (hCommands : ∀ command identifier roleName, calls e.thread = .secureAdmin command identifier →
      command.action ≠ some (.grant roleName none))
    (hOlder : ∀ e' ∈ older, Powerless start.database e'.before.database)
    (h : Powerless start.database e.before.database) : Powerless start.database e.after.database := by
  refine ⟨h.grants.trans hObeys.keepsGrants, ?_⟩
  intro ur hMem
  rcases hObeys.granted hMem with hOld | hGranted
  · exact h.members ur hOld
  · cases hGranted with
    | registered hOp hUser hRole hAssignedBy => exact .inr (h.grants.namesRole.mp hRole)
    | @assigned process accessToken roleName request administrator hOp hRequest hAuthorised hRole hBy =>
      obtain ⟨session, sessionAct, userAct, permissionAct, hPast, -, hPermission⟩ := hAuthorised
      rw [hOp] at hRequest
      have hGranted := hPermission.granted
      rw [Operation.permission_of_assignRole hRequest] at hGranted
      obtain ⟨e', he', -, rfl⟩ := mem_own.mp (hPast.subset List.mem_cons_self)
      have hHeld := (hOlder e' he').permissions hBase administrator.id hGranted
      rw [permissionsOf, Set.mem_ofPred_eq, hNobody] at hHeld
      cases hHeld
    | commanded hOp hAction hRole hAssignedBy => exact absurd hAction (hCommands _ _ _ hOp)

end runs

/-! ## Runs -/

section runs

variable {τ : Type} [DecidableEq τ]

/-- Where nobody may manage roles and secure-admin grants none, no interleaving of the other
operations gives any user a permission that the user had not got at the start. -/
theorem no_permission_without_administrator (d : Deployment) (calls : τ → Operation) (world : World)
    (hNobody : ∀ userId, world.database.hasPermission userId "roles.manage" = false)
    (hBase : ∀ rp ∈ world.database.rolePermissions, ¬ world.database.NamesRole rp.roleId "user")
    (hCommands : ∀ t command identifier roleName, calls t = .secureAdmin command identifier →
      command.action ≠ some (.grant roleName none))
    (schedule : List (τ × (Nat → Surroundings))) (userId : Int) :
    permissionsOf ((d.pool calls world).run schedule).state.database userId ⊆
      permissionsOf world.database userId := by
  have hRun := running_pool d calls world schedule
  have hPowerless : Powerless world.database (stateAfter world ((d.pool calls world).run schedule).history).database ∧
      ∀ e ∈ ((d.pool calls world).run schedule).history, Powerless world.database e.before.database := by
    apply Execution.invariant (I := fun w history => Powerless world.database w.database ∧
      ∀ e ∈ history, Powerless world.database e.before.database) _ _ hRun.execution
    · exact ⟨.refl _, by simp⟩
    · rintro e older hEntry ⟨hBefore, hOlder⟩
      refine ⟨Powerless.access hEntry.uncons.2.2 hNobody hBase (hCommands e.thread) hOlder hBefore, ?_⟩
      intro e' he'
      rcases List.mem_cons.mp he' with rfl | he'
      · exact hBefore
      · exact hOlder e' he'
  rw [hRun.state]
  exact hPowerless.1.permissions hBase userId

end runs

namespace Sample

/-- Root and Rita may enable and disable users, and nobody may manage roles. -/
def unmanagedWorld : World :=
  { world with database := { database with rolePermissions := [⟨2, 1⟩, ⟨2, 2⟩] } }

/-- Root tries to make Alice an administrator while she registers another account. -/
def promotion : Bool → Operation
  | true => .assignRole 0 "sc_at_root" 1 "super_admin"
  | false => .registerUser "alice2" "alice2@example.org" "12345678"

def promotionTurns : List (Bool × (Nat → Surroundings)) := turns true 12 "a" ++ turns false 12 "b"

end Sample

theorem no_permission_without_administrator_sample :
    permissionsOf ((Sample.deployment.pool Sample.promotion Sample.unmanagedWorld).run
      Sample.promotionTurns).state.database 1 ⊆ permissionsOf Sample.unmanagedWorld.database 1 := by
  refine no_permission_without_administrator Sample.deployment Sample.promotion Sample.unmanagedWorld ?_ ?_ ?_
    Sample.promotionTurns 1
  · intro userId
    have hGrants : ∀ rp ∈ Sample.unmanagedWorld.database.rolePermissions,
        ∀ p ∈ Sample.unmanagedWorld.database.permissions.rows,
          ¬(p.id = rp.permissionId ∧ p.name = "roles.manage") := by decide
    simpa [Database.hasPermission] using fun ur _ _ rp hrp _ p hp hId => (hGrants rp hrp p hp ⟨hId, ·⟩)
  · have hBase : ∀ rp ∈ Sample.unmanagedWorld.database.rolePermissions,
        ∀ r ∈ Sample.unmanagedWorld.database.roles.rows, ¬(r.id = rp.roleId ∧ r.name = "user") := by decide
    rintro rp hrp ⟨r, hr, hNamed⟩
    exact hBase rp hrp r hr hNamed
  · intro t command identifier roleName hCall
    cases t <;> cases hCall

end SecureCore
