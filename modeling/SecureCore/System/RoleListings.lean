import SecureCore.System.Readers
import SecureCore.System.Sample
import SecureCore.System.SchemaConstraints

/-! # What the listings of roles show

list_user_roles reads the roles of a user and then the permissions of each, one statement
after the other. Its answer is still the one of a single moment, and shows exactly what
the checks of that moment grant. -/

namespace SecureCore

set_option autoImplicit false

open Interleaving Relational

namespace Database

variable {db db' : Database} {userId : Int}

/-- A row of roles as a listing shows it. -/
def roleView (db : Database) (r : RoleRow) : Role :=
  ⟨r.id, r.name, r.description, r.builtIn, db.permissionsForRole r.id⟩

def rolesView (db : Database) (userId : Int) : List Role := (db.rolesForUser userId).map db.roleView

theorem mem_rolesForUser {r : RoleRow} :
    r ∈ db.rolesForUser userId ↔ r ∈ db.roles.rows ∧ ∃ ur ∈ db.userRoles, ur.userId = userId ∧ ur.roleId = r.id := by
  simp [rolesForUser]

theorem mem_permissionsForRole {roleId : Int} {p : Permission} : p ∈ db.permissionsForRole roleId ↔
    p ∈ db.permissions.rows ∧ ∃ rp ∈ db.rolePermissions, rp.roleId = roleId ∧ rp.permissionId = p.id := by
  simp [permissionsForRole]

theorem hasPermission_iff {permission : String} : db.hasPermission userId permission = true ↔
    ∃ ur ∈ db.userRoles, ur.userId = userId ∧ ∃ rp ∈ db.rolePermissions, rp.roleId = ur.roleId ∧
      ∃ p ∈ db.permissions.rows, p.id = rp.permissionId ∧ p.name = permission := by
  simp [hasPermission]

/-- DISTINCT and ORDER BY aside, the query of the names is the one of the check. -/
theorem mem_permissionNamesForUser {permission : String} :
    permission ∈ db.permissionNamesForUser userId ↔ db.hasPermission userId permission = true := by
  rw [permissionNamesForUser, List.mem_mergeSort, List.mem_eraseDups, List.mem_map, hasPermission_iff]
  simp only [List.mem_filter, List.any_eq_true, Bool.and_eq_true, beq_iff_eq]
  constructor
  · rintro ⟨p, ⟨hp, rp, hGrant, hPermission, ur, hMember, hRole, hUser⟩, hName⟩
    exact ⟨ur, hMember, hUser, rp, hGrant, hRole.symm, p, hp, hPermission.symm, hName⟩
  · rintro ⟨ur, hMember, hUser, rp, hGrant, hRole, p, hp, hPermission, hName⟩
    exact ⟨p, ⟨hp, rp, hGrant, hPermission.symm, ur, hMember, hRole.symm, hUser⟩, hName⟩

theorem hasRole_iff_rolesView {roleName : String} :
    db.hasRole userId roleName = true ↔ ∃ role ∈ db.rolesView userId, role.name = roleName := by
  rw [hasRole_iff_namesRole]
  constructor
  · rintro ⟨ur, hMember, hUser, r, hr, hId, hName⟩
    exact ⟨db.roleView r, List.mem_map_of_mem (mem_rolesForUser.mpr ⟨hr, ur, hMember, hUser, hId.symm⟩), hName⟩
  · rintro ⟨role, hRole, hName⟩
    obtain ⟨r, hr, rfl⟩ := List.mem_map.mp hRole
    obtain ⟨hr, ur, hMember, hUser, hId⟩ := mem_rolesForUser.mp hr
    exact ⟨ur, hMember, hUser, r, hr, hId.symm, hName⟩

/-- The check does not look at the table of roles. That it grants nothing that no listed role
grants is what the foreign key of role_permissions is for. -/
theorem hasPermission_iff_rolesView (h : GrantConstraints db) {permission : String} :
    db.hasPermission userId permission = true ↔
      ∃ role ∈ db.rolesView userId, ∃ p ∈ role.permissions, p.name = permission := by
  rw [hasPermission_iff]
  constructor
  · rintro ⟨ur, hMember, hUser, rp, hGrant, hRole, p, hp, hPermission, hName⟩
    obtain ⟨r, hr, hId⟩ := h.role rp hGrant rp.roleId rfl
    refine ⟨db.roleView r, List.mem_map_of_mem (mem_rolesForUser.mpr ⟨hr, ur, hMember, hUser, ?_⟩), p, ?_, hName⟩
    · exact hRole.symm.trans hId.symm
    · exact mem_permissionsForRole.mpr ⟨hp, rp, hGrant, hId.symm, hPermission.symm⟩
  · rintro ⟨role, hRole, p, hp, hName⟩
    obtain ⟨r, hr, rfl⟩ := List.mem_map.mp hRole
    obtain ⟨-, ur, hMember, hUser, hId⟩ := mem_rolesForUser.mp hr
    obtain ⟨hp, rp, hGrant, hOfRole, hPermission⟩ := mem_permissionsForRole.mp hp
    exact ⟨ur, hMember, hUser, rp, hGrant, hOfRole.trans hId.symm, p, hp, hPermission.symm, hName⟩

theorem roleView_of_keepsGrants (h : KeepsGrants db db') : db'.roleView = db.roleView := by
  funext r
  rw [roleView, roleView, permissionsForRole, permissionsForRole, h.permissions, h.rolePermissions]

end Database

/-! ## The calls -/

/-- Each role has been read with its permissions at an access of its own. -/
def RolesRead (past : List (Act World Event)) (rows : List RoleRow) (roles : List Role) : Prop :=
  List.Forall₂ (fun row role => ∃ act ∈ past, role = act.before.database.roleView row) rows roles

section calls

variable {Φ : List (Act World Event) → Act World Event → Prop} {past : List (Act World Event)}

theorem leads_select_locked {α : Type} {error : Int → Exception} {query : Database → α}
    {K : α → List (Act World Event) → Prop} (hΦ : Admissible Φ (fun _ _ => True))
    (hError : ∀ code, (error code).isFault = true)
    (h : ∀ act, K (query act.before.database) (act :: past)) :
    Fallible.Leads Φ (Database.autocommit (Sql.select error query (fun _ => []))) past K (fun _ _ => True) := by
  refine leads_autocommit hΦ hError (fun env act hEvents hAfter => ?_)
  exact ⟨hΦ.reads _ _ hAfter (by rw [hEvents]; rfl), h act⟩

theorem leads_withPermissionsLocked (hΦ : Admissible Φ (fun _ _ => True)) (rows : List RoleRow)
    {K : List Role → List (Act World Event) → Prop}
    (h : ∀ roles past', past <:+ past' → RolesRead past' rows roles → K roles past') :
    Fallible.Leads Φ (Database.autocommit (RbacRepository.withPermissionsLocked rows)) past K
      (fun _ _ => True) := by
  induction rows generalizing past K with
  | nil => exact Fallible.leads_pure (h [] past (List.suffix_refl past) .nil)
  | cons row rows ih =>
    refine leads_autocommit_bind (leads_select_locked hΦ (fun _ => rfl) (fun act => ?_))
    refine leads_autocommit_bind (ih (fun roles past' hPast hRoles => Fallible.leads_pure ?_))
    refine h _ past' ((List.suffix_cons act past).trans hPast) (.cons ⟨act, ?_, rfl⟩ hRoles)
    exact hPast.subset List.mem_cons_self

theorem leads_rolesForUserLocked (hΦ : Admissible Φ (fun _ _ => True)) {userId : Int} (hPositive : 0 < userId)
    {K : List Role → List (Act World Event) → Prop}
    (h : ∀ roles act past', act ∈ past' →
      RolesRead past' (act.before.database.rolesForUser userId) roles → K roles past') :
    Fallible.Leads Φ (RbacRepository.rolesForUser userId) past K (fun _ _ => True) := by
  unfold RbacRepository.rolesForUser
  rw [if_neg (by omega)]
  refine leads_withLockedHandle hΦ (fun past₁ _ => ?_)
  refine leads_autocommit_bind (leads_select_locked hΦ (fun _ => rfl) (fun act => ?_))
  refine leads_withPermissionsLocked hΦ _ (fun roles past' hPast hRoles => ?_)
  exact h roles act past' (hPast.subset List.mem_cons_self) hRoles

theorem leads_listUserRoles {d : Deployment} {service : AuthService} (hService : service.sodium = d.sodium)
    (hΦ : Admissible Φ (fun _ _ => True)) {accessToken : String} {userId : Int}
    {K : List Role → List (Act World Event) → Prop}
    (h : ∀ roles act past', act ∈ past' →
      RolesRead past' (act.before.database.rolesForUser userId) roles → K roles past') :
    Fallible.Leads Φ (AdminService.listUserRoles service accessToken userId) past K (fun _ _ => True) := by
  refine Fallible.leads_bind (leads_permitted hService hΦ (fun _ past₁ _ => ?_))
  refine Fallible.leads_bind (leads_findById hΦ (fun _ => Fallible.leads_throw trivial) ?_)
  intro user act past₂ _ hRead hId
  refine leads_rolesForUserLocked hΦ ?_ h
  rw [← hId]
  exact Database.user_positive hRead.stored

end calls

/-! ## Runs -/

section runs

variable {τ : Type} [DecidableEq τ] {d : Deployment} {calls : τ → Operation} {start : World}
  {history : List (Entry τ World Event)}

theorem keepsGrants_forward :
    Execution.Forward (fun t => Obeys d (calls t)) start (fun w w' => KeepsGrants w.database w'.database) :=
  fun _ _ hEntry => hEntry.uncons.2.2.keepsGrants

theorem keepsGrants_of_own (h : Histories d calls start history) {t : τ} {act : Act World Event}
    (hAct : act ∈ own t history) : KeepsGrants start.database act.before.database := by
  obtain ⟨e, he, -, rfl⟩ := mem_own.mp hAct
  exact keepsGrants_forward.since (fun w => .refl w.database) (fun _ _ _ => KeepsGrants.trans) h he

/-- Roles read one by one are the roles at any moment of the run. -/
theorem rolesRead_eq (h : Histories d calls start history) {t : τ} {act : Act World Event}
    (hAct : act ∈ own t history) {rows : List RoleRow} {roles : List Role}
    (hRead : RolesRead (own t history) rows roles) : roles = rows.map act.before.database.roleView := by
  have hView := Database.roleView_of_keepsGrants (keepsGrants_of_own h hAct)
  induction hRead with
  | nil => rfl
  | cons hRole _ ih =>
    obtain ⟨act', hAct', rfl⟩ := hRole
    rw [List.map_cons, ← ih, hView, Database.roleView_of_keepsGrants (keepsGrants_of_own h hAct')]

end runs

/-- Whatever runs beside it, list_user_roles answers what the roles of the user were at one moment
of the call, and the permissions that it shows are those that a check would have granted then. -/
theorem user_roles_listing_atomic {τ : Type} [DecidableEq τ] (d : Deployment) (calls : τ → Operation)
    (users : Table User) (authSessions : Table AuthSession) (now now' : String)
    (protectors : Nat → AuthAbuseProtector) (process : Nat) (accessToken : String) (userId : Int)
    (schedule : List (Option τ × (Nat → Surroundings))) (roles : List Role)
    (hReturned : (((d.readerPool calls (AdminService.listUserRoles (d.service process) accessToken userId)
      ⟨Migration.createRbac users authSessions now now', protectors⟩).run schedule).threads none).result? =
        some (.ok (some roles))) :
    ∃ e ∈ ((d.readerPool calls (AdminService.listUserRoles (d.service process) accessToken userId)
        ⟨Migration.createRbac users authSessions now now', protectors⟩).run schedule).history,
      e.thread = none ∧ roles = e.before.database.rolesView userId ∧
      (∀ roleName, e.before.database.hasRole userId roleName = true ↔ ∃ role ∈ roles, role.name = roleName) ∧
      ∀ permission, (e.before.database.hasPermission userId permission = true ↔
          ∃ role ∈ roles, ∃ p ∈ role.permissions, p.name = permission) ∧
        (permission ∈ e.before.database.permissionNamesForUser userId ↔
          e.before.database.hasPermission userId permission = true) := by
  have hReader : Fallible.Leads (Obeys d (.authenticate 0 ""))
      (AdminService.listUserRoles (d.service process) accessToken userId) []
      (fun roles past' => ∃ act ∈ past', RolesRead past' (act.before.database.rolesForUser userId) roles)
      (fun _ _ => True) :=
    leads_listUserRoles (d.shared process) (admissible_obeys d _)
      (fun roles act past' hAct hRead => ⟨act, hAct, hRead⟩)
  obtain ⟨act, hAct, hRead⟩ := readerPool_answer hReader hReturned
  have hRun : Histories d (besideReader calls) ⟨Migration.createRbac users authSessions now now', protectors⟩ _ :=
    (running_readerPool hReader _ schedule).execution
  have hRoles := rolesRead_eq hRun hAct hRead
  have hGrants : GrantConstraints act.before.database :=
    ((Migration.grantConstraints_rbacTables users authSessions).kept
      (Migration.keepsGrants_createRbac users authSessions now now')).kept (keepsGrants_of_own hRun hAct)
  obtain ⟨e, he, hThread, rfl⟩ := mem_own.mp hAct
  have hView : roles = e.before.database.rolesView userId := hRoles
  refine ⟨e, he, hThread, hView, fun roleName => ?_, fun permission => ⟨?_, ?_⟩⟩
  · rw [hView]
    exact Database.hasRole_iff_rolesView
  · rw [hView]
    exact Database.hasPermission_iff_rolesView hGrants
  · exact Database.mem_permissionNamesForUser

namespace Sample

def rbacWorld : World :=
  ⟨Migration.createRbac database.users database.authSessions "" "", world.protectors⟩

/-- Root makes Alice a supporter between two statements of Rita's listing of her roles. -/
def support (_ : Unit) : Operation := .assignRole 0 "sc_at_root" 1 "support"

def listingTurns : List (Option Unit × (Nat → Surroundings)) :=
  turns none 11 "r" ++ turns (some ()) 9 "a" ++ turns none 2 "r"

def listing : Pool (Option Unit) (Nat → Surroundings) World Event (Except Exception (Option (List Role))) :=
  (deployment.readerPool support (AdminService.listUserRoles (deployment.service 0) "sc_at_rita" 1)
    rbacWorld).run listingTurns

def shownRoles : List Role := [⟨1, "user", "Base authenticated user role.", true, []⟩]

end Sample

theorem user_roles_listing_atomic_sample :
    Sample.listing.state.database.hasPermission 1 "users.enable" = true ∧
    ∃ e ∈ Sample.listing.history, e.thread = none ∧
      ¬ e.before.database.hasPermission 1 "users.enable" = true := by
  have hReturned : (Sample.listing.threads none).result? = some (.ok (some Sample.shownRoles)) := by
    decide +kernel
  refine ⟨by decide +kernel, ?_⟩
  rw [Sample.listing, Sample.rbacWorld] at hReturned ⊢
  obtain ⟨e, he, hThread, -, -, hPermissions⟩ := user_roles_listing_atomic Sample.deployment Sample.support
    Sample.database.users Sample.database.authSessions "" "" Sample.world.protectors 0 "sc_at_rita" 1
    Sample.listingTurns Sample.shownRoles hReturned
  refine ⟨e, he, hThread, fun hGranted => ?_⟩
  have hShown : ¬∃ role ∈ Sample.shownRoles, ∃ p ∈ role.permissions, p.name = "users.enable" := by decide
  exact hShown ((hPermissions "users.enable").1.mp hGranted)

end SecureCore
