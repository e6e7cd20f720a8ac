import SecureCore.Database.Migration
import SecureCore.Interleaving.Reliance
import SecureCore.Service.TransactionRules

/-! # What revoke_role answers

The service among other calls, on a database that does not fail and whose roles and
permissions are those of the migrations. -/

namespace SecureCore

set_option autoImplicit false

open Interleaving

/-! ## The built-in rows -/

/-- Nobody has added a role or a permission to those of migration 5. -/
structure Database.BuiltIn (db : Database) : Prop where
  roles : ∀ r ∈ db.roles.rows, (r.name, r.description) ∈ Migration.builtInRoles
  permissions : ∀ p ∈ db.permissions.rows, (p.name, p.description) ∈ Migration.builtInPermissions

structure Role.BuiltIn (role : Role) : Prop where
  described : (role.name, role.description) ∈ Migration.builtInRoles
  permissions : ∀ p ∈ role.permissions, (p.name, p.description) ∈ Migration.builtInPermissions

namespace Database

variable {db : Database}

theorem BuiltIn.rolesForUser (h : db.BuiltIn) {userId : Int} {r : RoleRow}
    (hr : r ∈ db.rolesForUser userId) : (r.name, r.description) ∈ Migration.builtInRoles :=
  h.roles r (List.mem_filter.mp (List.mem_mergeSort.mp hr)).1

theorem BuiltIn.permissionsForRole (h : db.BuiltIn) {roleId : Int} {p : Permission}
    (hp : p ∈ db.permissionsForRole roleId) :
    (p.name, p.description) ∈ Migration.builtInPermissions :=
  h.permissions p (List.mem_filter.mp (List.mem_mergeSort.mp hp)).1

theorem BuiltIn.roleId (h : db.BuiltIn) {roleName : String} {roleId : Int}
    (hRole : db.roleId roleName = some roleId) : ∃ description,
      (roleName, description) ∈ Migration.builtInRoles := by
  obtain ⟨r, hFirst, -⟩ := Option.map_eq_some_iff.mp hRole
  obtain ⟨hMem, hName⟩ := Relational.Table.mem_of_first hFirst
  exact ⟨r.description, beq_iff_eq.mp hName ▸ h.roles r hMem⟩

end Database

/-! ## Accesses that do not fail -/

/-- The database does not fail, and moves as `moves` says. -/
def Sql.rely (moves : Database → Database → Prop) : Rely Surroundings Database :=
  ⟨fun env => env.failure = none, moves⟩

theorem given_statement {α : Type} {moves : Database → Database → Prop} {error : Int → Exception}
    {body : Surroundings → Database → Reply Exception Database Event α} {db : Database}
    {K : α → Database → Prop} {Z : Exception → Database → Prop}
    (h : ∀ env db', moves db db' → Fallible.Ends K Z (body env db').result (body env db').state) :
    Fallible.Given (Sql.rely moves) (Sql.statement error body) db K Z := by
  refine Fallible.given_atomic (fun env db' hCalm hMove => ?_)
  change env.failure = none at hCalm
  simpa only [hCalm] using h env db' hMove

/-! ## Transactions -/

namespace Transaction

variable {α : Type} {t : Transaction} {Z : Exception → Transaction → Prop}

/-- A transaction runs alone. -/
def rely : Rely Surroundings Transaction := ⟨fun env => env.failure = none, fun t t' => t' = t⟩

theorem given_handle {K : Unit → Transaction → Prop} (hActive : t.status = .active) (h : K () t) :
    Fallible.Given rely handle t K Z := by
  refine Fallible.given_atomic (fun env t' _ hSame => ?_)
  rw [show t' = t from hSame, if_pos hActive]
  exact h

theorem given_perform {body : Sql α} {K : α → Transaction → Prop} (hActive : t.status = .active)
    (h : Fallible.Given (Sql.rely (fun db db' => db' = db)) body t.working
      (fun a db => ∀ t', t'.status = .active → t'.working = db → K a t')
      (fun e db => ∀ t', t'.status = .active → t'.working = db → Z e t')) :
    Fallible.Given rely (perform body) t K Z := by
  refine Fallible.given_bind (given_handle hActive ?_)
  refine Fallible.given_zoom (P := fun t : Transaction => t.status = .active) ?_ ?_ ?_ hActive h
  · exact fun _ hCalm => hCalm
  · intro t₁ t₂ hStatus hSame
    rw [show t₂ = t₁ from hSame]
    exact ⟨hStatus, rfl⟩
  · exact fun _ _ hStatus => ⟨hStatus, rfl⟩

theorem given_select {error : Int → Exception} {query : Database → α} {events : α → List Event}
    {K : α → Transaction → Prop} (hActive : t.status = .active)
    (h : ∀ t', t'.status = .active → t'.working = t.working → K (query t.working) t') :
    Fallible.Given rely (perform (Sql.select error query events)) t K Z := by
  refine given_perform hActive (given_statement (fun env db hSame => ?_))
  rw [hSame]
  exact h

theorem given_commit {K : Unit → Transaction → Prop} (hActive : t.status = .active)
    (h : ∀ t', K () t') : Fallible.Given rely commit t K Z := by
  refine Fallible.given_bind (given_handle hActive (Fallible.given_atomic (fun env t' hCalm _ => ?_)))
  change env.failure = none at hCalm
  simp only [hCalm]
  exact h _

/-- What a transaction answers whose body runs from the database that it meets. -/
theorem given_execute {body : Tx α} {db : Database} {K : α → Prop} {Y : Exception → Prop}
    (h : ∀ t, t.status = .active → t.working = db →
      Fallible.Given rely body t (fun a _ => K a) (fun e _ => Y e))
    {inputs : Nat → Surroundings} (hCalm : ∀ n, (inputs n).failure = none) (world : World) :
    Fallible.Ends (fun a _ => K a) (fun e _ => Y e) (execute body inputs db).result world := by
  have hBody : Fallible.Given rely (do begin; body) (fresh db) (fun a _ => K a) (fun e _ => Y e) := by
    refine Fallible.given_bind (Fallible.given_atomic (fun env t hEnv hSame => ?_))
    change env.failure = none at hEnv
    change t = fresh db at hSame
    simp only [hEnv, hSame]
    exact h _ rfl rfl
  have hRun := Process.Given.run hBody hCalm (fun _ => rfl)
  unfold execute
  simp only
  cases hResult : (Process.run (do begin; body : Tx α).run inputs (fresh db)).result with
  | ok a =>
    rw [hResult] at hRun
    exact hRun
  | error e =>
    rw [hResult] at hRun
    exact hRun

end Transaction

/-! ## Calls -/

/-- Other calls may do anything between two accesses that keeps `I`. -/
def World.rely (I : Database → Prop) : Rely (Nat → Surroundings) World :=
  ⟨fun inputs => ∀ n, (inputs n).failure = none, fun _ world => I world.database⟩

/-- The call returns as `K` says or throws as `Z` says. -/
def Answers {α : Type} (I : Database → Prop) (x : Call α) (K : α → Prop) (Z : Exception → Prop) : Prop :=
  ∀ world, Fallible.Given (World.rely I) x world (fun a _ => K a) (fun e _ => Z e)

section answers

variable {α β : Type} {I : Database → Prop} {K : α → Prop} {Z : Exception → Prop}

theorem answers_pure {a : α} (h : K a) : Answers I (pure a) K Z := fun _ => Fallible.given_pure h

theorem answers_throw {e : Exception} (h : Z e) : Answers I (throw e : Call α) K Z :=
  fun _ => Fallible.given_throw h

theorem answers_bind {x : Call α} {f : α → Call β} {L : β → Prop} (hx : Answers I x K Z)
    (hf : ∀ a, K a → Answers I (f a) L Z) : Answers I (x >>= f) L Z := by
  intro world
  exact Fallible.given_bind ((hx world).mono (fun a world' hK => hf a hK world') (fun _ _ hZ => hZ))

theorem answers_throwIf_bind {condition : Bool} {e : Exception} {f : Unit → Call β} {L : β → Prop}
    (hThrow : condition = true → Z e) (hf : condition = false → Answers I (f ()) L Z) :
    Answers I (Fallible.throwIf condition e >>= f) L Z := by
  cases condition with
  | true => exact answers_throw (hThrow rfl)
  | false => exact hf rfl

theorem answers_acquireConnection : Answers I Database.acquireConnection (fun _ => True) Z := by
  intro world
  refine Fallible.given_atomic (fun inputs world' hCalm _ => ?_)
  change ∀ n, (inputs n).failure = none at hCalm
  simp only [HasSurroundings.surroundings, hCalm]
  trivial

theorem answers_currentUnixTime : Answers I currentUnixTime (fun _ => True) Z :=
  fun _ => Fallible.given_atomic (fun _ _ _ _ => trivial)

theorem answers_withLockedHandle {body : Sql α}
    (h : ∀ db, Fallible.Given (Sql.rely (fun _ db' => I db')) body db (fun a _ => K a) (fun e _ => Z e)) :
    Answers I (Database.withLockedHandle body) K Z := by
  refine answers_bind answers_acquireConnection (fun _ _ world => ?_)
  have hBody : Fallible.Given (Sql.rely (fun _ db' => I db')) body world.database
      (fun a db => ∀ world' : World, True → world'.database = db → K a)
      (fun e db => ∀ world' : World, True → world'.database = db → Z e) :=
    (h world.database).mono (fun _ _ hK _ _ _ => hK) (fun _ _ hZ _ _ _ => hZ)
  refine Fallible.given_zoom (P := fun _ => True) ?_ ?_ ?_ trivial hBody
  · intro inputs hCalm
    change ∀ n, (inputs n).failure = none at hCalm
    exact hCalm 0
  · exact fun _ _ _ hKept => ⟨trivial, hKept⟩
  · exact fun _ _ _ => ⟨trivial, rfl⟩

theorem answers_select {error : Int → Exception} {query : Database → α} {events : α → List Event}
    (h : ∀ db, I db → K (query db)) :
    Answers I (Database.withLockedHandle (Sql.select error query events)) K Z :=
  answers_withLockedHandle (fun _ => given_statement (fun _ db hKept => h db hKept))

theorem answers_transaction {body : Tx α}
    (h : ∀ t : Transaction, t.status = .active → I t.working →
      Fallible.Given Transaction.rely body t (fun a _ => K a) (fun e _ => Z e)) :
    Answers I (Database.transaction body) K Z := by
  refine answers_bind answers_acquireConnection (fun _ _ world => ?_)
  refine Fallible.given_atomic (fun inputs world' hCalm hKept => ?_)
  exact Transaction.given_execute (fun t hActive hSame => h t hActive (hSame ▸ hKept)) hCalm _

theorem Answers.meeting {x : Call α} (h : Answers I x K Z) {inputs : Nat → Nat → Surroundings}
    {worlds : Nat → World} (hCalm : ∀ n k, (inputs n k).failure = none)
    (hWorlds : ∀ n, I (worlds n).database) :
    Fallible.Ends (fun a _ => K a) (fun e _ => Z e) (x.run.meeting inputs worlds) (worlds 0) :=
  (h (worlds 0)).meeting hCalm (fun _ => hWorlds)

end answers

/-! ## Reading roles -/

namespace RbacRepository

theorem given_withPermissionsLocked {rows : List RoleRow}
    (hRows : ∀ r ∈ rows, (r.name, r.description) ∈ Migration.builtInRoles) (db : Database)
    {Z : Exception → Prop} :
    Fallible.Given (Sql.rely (fun _ db' => db'.BuiltIn)) (withPermissionsLocked rows) db
      (fun roles _ => ∀ role ∈ roles, role.BuiltIn) (fun e _ => Z e) := by
  induction rows generalizing db with
  | nil => exact Fallible.given_pure (by nofun)
  | cons row rows ih =>
    obtain ⟨hRow, hLater⟩ := List.forall_mem_cons.mp hRows
    refine Fallible.given_bind (given_statement (fun _ db' hBuiltIn => ?_))
    refine Fallible.given_bind ((ih hLater db').mono (fun roles _ hRoles => ?_) (fun _ _ hZ => hZ))
    refine Fallible.given_pure (List.forall_mem_cons.mpr ⟨⟨hRow, ?_⟩, hRoles⟩)
    intro p hp
    exact Database.BuiltIn.permissionsForRole hBuiltIn hp

theorem answers_rolesForUser (userId : Int) {Z : Exception → Prop} :
    Answers Database.BuiltIn (rolesForUser userId) (fun roles => ∀ role ∈ roles, role.BuiltIn) Z := by
  unfold rolesForUser
  split
  · exact answers_pure (by nofun)
  · refine answers_withLockedHandle (fun db => ?_)
    refine Fallible.given_bind (given_statement (fun _ db' hBuiltIn => ?_))
    exact given_withPermissionsLocked (fun r hr => Database.BuiltIn.rolesForUser hBuiltIn hr) db'

theorem given_requireRoleId {moves : Database → Database → Prop} {db : Database} {roleName : String}
    {Z : Exception → Database → Prop}
    (hMissing : ∀ message db', moves db db' → Z (.rbacRoleNotFoundError message) db') :
    Fallible.Given (Sql.rely moves) (requireRoleId roleName) db
      (fun _ db' => moves db db' ∧ (db'.roleId roleName).isSome = true) Z := by
  refine given_statement (fun env db' hMove => ?_)
  cases hRole : db'.roleId roleName with
  | none => exact hMissing _ db' hMove
  | some roleId => exact ⟨hMove, by rw [hRole]; rfl⟩

/-- A role that can be taken away is one of the table. -/
theorem given_revokeRoleIn {t : Transaction} (hActive : t.status = .active) (userId : Int)
    (roleName : String) {Z : Exception → Transaction → Prop} (hMissing : ∀ message t',
      t'.status = .active → Z (.rbacRoleNotFoundError message) t') :
    Fallible.Given Transaction.rely (revokeRoleIn userId roleName) t
      (fun _ t' => t'.status = .active ∧ (t.working.roleId roleName).isSome = true) Z := by
  refine Transaction.given_perform hActive (Fallible.given_then (given_requireRoleId ?_) ?_)
  · exact fun message _ _ t' hStatus _ => hMissing message t' hStatus
  rintro roleId _ ⟨rfl, hRole⟩
  refine Fallible.given_then (K := fun _ _ => True) (given_statement (fun _ _ _ => trivial)) ?_
  intro changed _ _
  by_cases hName : roleName = "super_admin"
  · rw [if_pos hName]
    refine Fallible.given_then (K := fun _ _ => True) (given_statement (fun _ _ _ => trivial)) ?_
    intro remaining _ _
    cases remaining with
    | true => exact Fallible.given_pure (fun _ hStatus _ => ⟨hStatus, hRole⟩)
    | false =>
      refine Fallible.given_then (K := fun _ _ => True) (given_statement (fun _ _ _ => trivial)) ?_
      exact fun _ _ _ => Fallible.given_pure (fun _ hStatus _ => ⟨hStatus, hRole⟩)
  · rw [if_neg hName]
    exact Fallible.given_pure (fun _ hStatus _ => ⟨hStatus, hRole⟩)

end RbacRepository

theorem UserRepository.given_findByIdIn {t : Transaction} (hActive : t.status = .active)
    (userId : Int) {Z : Exception → Transaction → Prop} :
    Fallible.Given Transaction.rely (UserRepository.findByIdIn userId) t
      (fun _ t' => t'.status = .active ∧ t'.working = t.working) Z := by
  unfold UserRepository.findByIdIn
  split
  · exact Fallible.given_pure ⟨hActive, rfl⟩
  · exact Transaction.given_select hActive (fun t' hStatus hSame => ⟨hStatus, hSame⟩)

/-! ## Authentication -/

namespace AuthService

def authenticationErrors : List Exception := [invalidAccessToken, accessTokenExpired, accountDisabled]

theorem answers_authenticateAccessToken (service : AuthService) (accessToken : String)
    (I : Database → Prop) :
    Answers I (service.authenticateAccessToken accessToken) (fun _ => True)
      (fun e => e ∈ authenticationErrors) := by
  have hInvalid : invalidAccessToken ∈ authenticationErrors := List.mem_cons_self
  refine answers_throwIf_bind (fun _ => hInvalid) (fun _ => ?_)
  refine answers_bind (K := fun _ => True) ?_ ?_
  · unfold AuthSessionRepository.findByAccessTokenHash
    split
    · exact answers_pure trivial
    · exact answers_select (fun _ _ => trivial)
  intro session _
  cases session with
  | none => exact answers_throw hInvalid
  | some session =>
    refine answers_throwIf_bind (fun _ => hInvalid) (fun _ => ?_)
    refine answers_bind answers_currentUnixTime (fun now _ => ?_)
    refine answers_throwIf_bind (fun _ => by decide) (fun _ => ?_)
    refine answers_bind (K := fun _ => True) ?_ ?_
    · unfold UserRepository.findById
      split
      · exact answers_pure trivial
      · exact answers_select (fun _ _ => trivial)
    intro user _
    cases user with
    | none => exact answers_throw hInvalid
    | some user => exact answers_throwIf_bind (fun _ => by decide) (fun _ => answers_pure trivial)

end AuthService

/-! ## Revocation -/

namespace AdminService

/-- The exceptions of a revocation on a database that does not fail. -/
def revocationErrors : List Exception :=
  AuthService.authenticationErrors ++ [forbidden "roles.manage", cannotRemoveBaseRole, userNotFound,
    roleNotFound, cannotRemoveLastSuperAdmin]

theorem answers_authenticateWithPermission (service : AuthService) (accessToken permission : String)
    (I : Database → Prop) {Z : Exception → Prop}
    (hZ : ∀ e ∈ AuthService.authenticationErrors, Z e) (hForbidden : Z (forbidden permission)) :
    Answers I (authenticateWithPermission service accessToken permission) (fun _ => True) Z := by
  refine answers_bind (K := fun _ => True) ?_ ?_
  · intro world
    exact (AuthService.answers_authenticateAccessToken service accessToken I world).mono
      (fun _ _ hK => hK) (fun e _ he => hZ e he)
  intro user _
  refine answers_bind (K := fun _ => True) ?_ ?_
  · unfold RbacRepository.hasPermission
    split
    · exact answers_pure trivial
    · exact answers_select (fun _ _ => trivial)
  intro granted _
  exact answers_throwIf_bind (fun _ => hForbidden) (fun _ => answers_pure trivial)

theorem given_lastSuperAdmin {t : Transaction} (hActive : t.status = .active) (user : User)
    {Z : Exception → Transaction → Prop} :
    Fallible.Given Transaction.rely (lastSuperAdmin user) t
      (fun _ t' => t'.status = .active ∧ t'.working = t.working) Z := by
  unfold lastSuperAdmin
  split
  · unfold RbacRepository.hasRoleIn
    split
    · exact Fallible.given_bind (Fallible.given_pure (Fallible.given_pure ⟨hActive, rfl⟩))
    · refine Fallible.given_bind (Transaction.given_select hActive (fun t₁ hStatus₁ hSame₁ => ?_))
      split
      · refine Fallible.given_bind (Transaction.given_select hStatus₁ (fun t₂ hStatus₂ hSame₂ => ?_))
        exact Fallible.given_pure ⟨hStatus₂, hSame₂.trans hSame₁⟩
      · exact Fallible.given_pure ⟨hStatus₁, hSame₁⟩
  · exact Fallible.given_pure ⟨hActive, rfl⟩

/-- The names that migration 5 has given to roles. -/
def isBuiltInRole (roleName : String) : Bool := (Migration.builtInRoles.map Prod.fst).contains roleName

/-- The transaction from the removal on, when the stored roles were built in at its start. -/
theorem given_removal {t : Transaction} (hActive : t.status = .active)
    (hBuiltIn : t.working.BuiltIn) (userId : Int) (roleName : String) :
    Fallible.Given Transaction.rely (do
      let changed ← RbacRepository.revokeRoleIn userId roleName
      match ← UserRepository.findByIdIn userId with
      | none => throw userNotFound
      | some updated =>
        Transaction.commit
        pure (updated, changed)) t (fun _ _ => isBuiltInRole roleName = true)
      (fun e _ => translated e ∈ revocationErrors) := by
  have hMissing : roleNotFound ∈ revocationErrors := by decide
  refine Fallible.given_then
    (RbacRepository.given_revokeRoleIn hActive userId roleName (fun _ _ _ => hMissing)) ?_
  rintro changed t₁ ⟨hStatus₁, hRole⟩
  obtain ⟨roleId, hRole⟩ := Option.isSome_iff_exists.mp hRole
  obtain ⟨description, hListed⟩ := hBuiltIn.roleId hRole
  have hName : isBuiltInRole roleName = true :=
    List.contains_iff_mem.mpr (List.mem_map.mpr ⟨_, hListed, rfl⟩)
  refine Fallible.given_then (UserRepository.given_findByIdIn hStatus₁ userId) ?_
  rintro updated t₂ ⟨hStatus₂, -⟩
  cases updated with
  | none => exact Fallible.given_throw (by decide)
  | some updated =>
    exact Fallible.given_bind (Transaction.given_commit hStatus₂ (fun _ => Fallible.given_pure hName))

theorem given_revokeRoleIn {t : Transaction} (hActive : t.status = .active)
    (hBuiltIn : t.working.BuiltIn) (userId : Int) (roleName : String) :
    Fallible.Given Transaction.rely (revokeRoleIn userId roleName) t
      (fun _ _ => isBuiltInRole roleName = true) (fun e _ => e ∈ revocationErrors) := by
  refine Fallible.given_then (UserRepository.given_findByIdIn hActive userId) ?_
  rintro target t₁ ⟨hStatus₁, hSame₁⟩
  cases target with
  | none => exact Fallible.given_throw (by decide)
  | some target =>
    rw [← hSame₁] at hBuiltIn
    simp only [translateRoleNotFound_eq]
    refine Fallible.given_tryCatch (Fallible.Given.mono
      (Z := fun e _ => translated e ∈ revocationErrors) ?_ (fun _ _ hK => hK)
      (fun e _ he => Fallible.given_throw he))
    by_cases hName : roleName = "super_admin"
    · rw [if_pos hName]
      refine Fallible.given_then (given_lastSuperAdmin hStatus₁ target) ?_
      rintro last t₂ ⟨hStatus₂, hSame₂⟩
      refine Fallible.given_bind (Fallible.given_throwIf (fun _ => by decide) (fun _ => ?_))
      rw [← hSame₂] at hBuiltIn
      exact given_removal hStatus₂ hBuiltIn userId roleName
    · rw [if_neg hName]
      refine Fallible.given_bind (Fallible.given_pure ?_)
      exact Fallible.given_bind (Fallible.given_throwIf (fun _ => by decide)
        (fun _ => given_removal hStatus₁ hBuiltIn userId roleName))

/-- Between any other calls, a revocation takes a role of the table away or is refused. -/
theorem answers_revokeRole (service : AuthService) (accessToken : String) (userId : Int)
    (roleName : String) :
    Answers Database.BuiltIn (revokeRole service accessToken userId roleName)
      (fun result => isBuiltInRole roleName = true ∧ ∀ role ∈ result.roles, role.BuiltIn)
      (fun e => e ∈ revocationErrors) := by
  refine answers_bind (answers_authenticateWithPermission service accessToken "roles.manage" _ ?_ ?_) ?_
  · exact fun e he => List.mem_append_left _ he
  · decide
  intro administrator _
  refine answers_throwIf_bind (fun _ => by decide) (fun _ => ?_)
  refine answers_bind (answers_transaction (fun t hActive hBuiltIn =>
    given_revokeRoleIn hActive hBuiltIn userId roleName)) ?_
  rintro ⟨updated, changed⟩ hName
  refine answers_bind (RbacRepository.answers_rolesForUser userId) (fun roles hRoles => ?_)
  exact answers_pure ⟨hName, hRoles⟩

end AdminService

end SecureCore
