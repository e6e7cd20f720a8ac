import SecureCore.Service.TransactionRules
import SecureCore.System.Sample

/-! # What a failed call leaves behind

A call alone, with a failure at any of its accesses. An operation that ends with its
transaction leaves no trace when it throws; one that goes on to read may. -/

namespace SecureCore

set_option autoImplicit false

open Interleaving Relational Transaction

/-! ## Calls that change nothing, and calls that change nothing when they throw -/

section keeps

variable {α β : Type}

def KeepsDatabase (x : Call α) : Prop :=
  ∀ w : World, x.Ensures w (fun _ w' _ => w'.database = w.database)

def KeepsOnFailure (x : Call α) : Prop :=
  ∀ w : World, x.Ensures w (fun r w' _ => ∀ e, r = .error e → w'.database = w.database)

theorem keepsDatabase_pure (a : α) : KeepsDatabase (pure a) :=
  fun _ => Fallible.ensures_pure.mpr rfl

theorem keepsDatabase_throw (e : Exception) : KeepsDatabase (throw e : Call α) :=
  fun _ => Fallible.ensures_throw.mpr rfl

theorem keepsDatabase_throwIf (condition : Bool) (e : Exception) :
    KeepsDatabase (Fallible.throwIf condition e) :=
  fun _ => Fallible.ensures_throwIf.mpr ⟨fun _ => rfl, fun _ => rfl⟩

theorem keepsDatabase_consult (body : Surroundings → Except Exception α × List Event) :
    KeepsDatabase (consult body) :=
  fun _ => Fallible.ensures_atomic.mpr (fun _ => rfl)

theorem KeepsDatabase.bind {x : Call α} {f : α → Call β} (hx : KeepsDatabase x)
    (hf : ∀ a, KeepsDatabase (f a)) : KeepsDatabase (x >>= f) := by
  intro w
  apply Fallible.ensures_bind.mpr
  apply Fallible.Ensures.mono (hx w)
  intro r w' log hKept
  cases r with
  | error e => exact hKept
  | ok a =>
    apply Fallible.Ensures.mono (hf a w')
    intro r' w'' log' hKept'
    exact hKept'.trans hKept

theorem keepsDatabase_autocommit {body : Sql α}
    (h : ∀ db : Database, body.Ensures db (fun _ db' _ => db' = db)) :
    KeepsDatabase (Database.autocommit body) := by
  intro w
  unfold Database.autocommit
  apply Fallible.ensures_zoom
  · exact fun _ _ => rfl
  · exact fun _ _ _ => rfl
  · exact fun _ => rfl
  · exact h w.database

theorem keepsDatabase_select (error : Int → Exception) (query : Database → α)
    (events : α → List Event) :
    KeepsDatabase (Database.withLockedHandle (Sql.select error query events)) := by
  apply KeepsDatabase.bind (keepsDatabase_consult _)
  intro _
  apply keepsDatabase_autocommit
  intro db
  exact ensures_select (fun _ => rfl) rfl

theorem KeepsDatabase.keepsOnFailure {x : Call α} (h : KeepsDatabase x) : KeepsOnFailure x := by
  intro w
  apply Fallible.Ensures.mono (h w)
  intro r w' log hKept _ _
  exact hKept

theorem KeepsOnFailure.after {x : Call α} {f : α → Call β} (hx : KeepsDatabase x)
    (hf : ∀ a, KeepsOnFailure (f a)) : KeepsOnFailure (x >>= f) := by
  intro w
  apply Fallible.ensures_bind.mpr
  apply Fallible.Ensures.mono (hx w)
  intro r w' log hKept
  cases r with
  | error e => exact fun _ _ => hKept
  | ok a =>
    apply Fallible.Ensures.mono (hf a w')
    intro r' w'' log' hFailed e hError
    exact (hFailed e hError).trans hKept

theorem KeepsOnFailure.throwIf {condition : Bool} {e : Exception} {f : Unit → Call α}
    (h : condition = false → KeepsOnFailure (f ())) :
    KeepsOnFailure (Fallible.throwIf condition e >>= f) := by
  cases condition with
  | true => exact (keepsDatabase_throw e).keepsOnFailure
  | false => exact h rfl

theorem KeepsOnFailure.answer {x : Call α} (h : KeepsOnFailure x) (f : α → β) :
    KeepsOnFailure (x >>= fun a => pure (f a)) := by
  intro w
  apply Fallible.ensures_bind.mpr
  apply Fallible.Ensures.mono (h w)
  intro r w' log hFailed
  cases r with
  | error e => exact fun _ _ => hFailed e rfl
  | ok a =>
    apply Fallible.ensures_pure.mpr
    intro e hError
    cases hError

/-- A transaction whose body throws nothing after its COMMIT. -/
theorem keepsOnFailure_transaction {body : Tx α}
    (h : ∀ db, Settles body db db [] (fun _ => True) (fun r _ _ => ∃ a, r = .ok a)) :
    KeepsOnFailure (Database.transaction body) := by
  apply KeepsOnFailure.after (keepsDatabase_consult _)
  intro _ w
  apply Fallible.ensures_atomic.mpr
  intro inputs e hError
  rcases execute_of_settles (h w.database) (fun _ => trivial) inputs with ⟨hState, -, -⟩ | ⟨a, hOk⟩
  · exact hState
  · rw [hOk] at hError
    cases hError

theorem KeepsOnFailure.run {x : Call α} (h : KeepsOnFailure x) (inputs : Nat → Nat → Surroundings)
    (w : World) {e : Exception} (hError : (Process.run x.run inputs w).result = .error e) :
    (Process.run x.run inputs w).state.database = w.database :=
  Process.Ensures.run (h w) inputs e hError

end keeps

/-! ## The parts of the operations -/

section parts

variable (service : AuthService)

theorem keepsDatabase_findByAccessTokenHash (tokenHash : String) :
    KeepsDatabase (AuthSessionRepository.findByAccessTokenHash tokenHash) := by
  unfold AuthSessionRepository.findByAccessTokenHash
  split
  · exact keepsDatabase_pure _
  · exact keepsDatabase_select _ _ _

theorem keepsDatabase_findById (userId : Int) : KeepsDatabase (UserRepository.findById userId) := by
  unfold UserRepository.findById
  split
  · exact keepsDatabase_pure _
  · exact keepsDatabase_select _ _ _

theorem keepsDatabase_hasPermission (userId : Int) (permission : String) :
    KeepsDatabase (RbacRepository.hasPermission userId permission) := by
  unfold RbacRepository.hasPermission
  split
  · exact keepsDatabase_pure _
  · exact keepsDatabase_select _ _ _

theorem keepsDatabase_hash (sodium : Sodium) (password : String) :
    KeepsDatabase (PasswordHasher.hash sodium password) := by
  unfold PasswordHasher.hash
  split
  · exact keepsDatabase_throw _
  · exact keepsDatabase_consult _

theorem keepsDatabase_authenticateAccessToken (accessToken : String) :
    KeepsDatabase (service.authenticateAccessToken accessToken) := by
  apply KeepsDatabase.bind (keepsDatabase_throwIf _ _)
  intro _
  apply KeepsDatabase.bind (keepsDatabase_findByAccessTokenHash _)
  intro found
  cases found with
  | none => exact keepsDatabase_throw _
  | some session =>
    apply KeepsDatabase.bind (keepsDatabase_throwIf _ _)
    intro _
    apply KeepsDatabase.bind (keepsDatabase_consult _)
    intro now
    apply KeepsDatabase.bind (keepsDatabase_throwIf _ _)
    intro _
    apply KeepsDatabase.bind (keepsDatabase_findById _)
    intro owner
    cases owner with
    | none => exact keepsDatabase_throw _
    | some user =>
      apply KeepsDatabase.bind (keepsDatabase_throwIf _ _)
      intro _
      exact keepsDatabase_pure _

theorem keepsDatabase_authenticateWithPermission (accessToken permission : String) :
    KeepsDatabase (AdminService.authenticateWithPermission service accessToken permission) := by
  apply KeepsDatabase.bind (keepsDatabase_authenticateAccessToken service _)
  intro user
  apply KeepsDatabase.bind (keepsDatabase_hasPermission _ _)
  intro granted
  apply KeepsDatabase.bind (keepsDatabase_throwIf _ _)
  intro _
  exact keepsDatabase_pure _

theorem keepsDatabase_authenticateCurrentSession (accessToken : String) :
    KeepsDatabase (AccountSecurityService.authenticateCurrentSession service accessToken) := by
  apply KeepsDatabase.bind (keepsDatabase_authenticateAccessToken service _)
  intro user
  apply KeepsDatabase.bind (keepsDatabase_findByAccessTokenHash _)
  intro found
  cases found with
  | none => exact keepsDatabase_throw _
  | some session =>
    apply KeepsDatabase.bind (keepsDatabase_throwIf _ _)
    intro _
    exact keepsDatabase_pure _

theorem answers_of_administers {α : Type} {body : Tx α} {db : Database} {userId : Int}
    {action : AdminAction} (h : Settles body db db [] (fun _ => True) (Administers db userId action)) :
    Settles body db db [] (fun _ => True) (fun r _ _ => ∃ a, r = .ok a) :=
  h.mono (fun _ hZ => hZ) (fun _ _ _ hE => hE.1)

theorem answers_changePasswordIn (userId sessionId : Int) (passwordHash : String) (db : Database) :
    Settles (AccountSecurityService.changePasswordIn userId sessionId passwordHash) db db []
      (fun _ => True) (fun r _ _ => ∃ a, r = .ok a) := by
  have hAfterUpdate : ∀ (updated : Bool) (working : Database) (log : List Event),
      Settles (do
        Fallible.throwIf (!updated) (.runtimeError "Failed to update password")
        let revokedSessions ← AuthSessionRepository.revokeAllExceptForUserIn userId sessionId
        commit
        pure (⟨userId, revokedSessions⟩ : PasswordChangeResult)) db working log
        (fun _ => True) (fun r _ _ => ∃ a, r = .ok a) := by
    intro updated working log
    apply settles_bind
    apply works_throwIf (fun _ => trivial)
    intro _
    have hCommit : ∀ (count : Nat) (working' : Database) (log' : List Event),
        Settles (do commit; pure (⟨userId, count⟩ : PasswordChangeResult)) db working' log'
          (fun _ => True) (fun r _ _ => ∃ a, r = .ok a) :=
      fun count _ _ => settles_commit rfl (fun _ => trivial) ⟨_, rfl⟩
    apply settles_bind
    unfold AuthSessionRepository.revokeAllExceptForUserIn
    split
    · exact works_pure (hCommit _ _ _)
    · exact works_revokeLocked AdminService.anyFault (fun _ => hCommit _ _ _)
  apply settles_bind
  exact works_setPasswordHashIn AdminService.anyFault (hAfterUpdate _ _ _)
    (fun _ _ => hAfterUpdate _ _ _) (fun _ => hAfterUpdate _ _ _)

end parts

/-! ## Operations that end with their transaction -/

theorem keepsOnFailure_setUserEnabled (service : AuthService) (accessToken : String)
    (targetUserId : Int) (enabled : Bool) :
    KeepsOnFailure (AdminService.setUserEnabled service accessToken targetUserId enabled) := by
  apply KeepsOnFailure.after (keepsDatabase_authenticateWithPermission service _ _)
  intro administrator
  apply KeepsOnFailure.after (keepsDatabase_throwIf _ _)
  intro _
  apply KeepsOnFailure.answer
  apply keepsOnFailure_transaction
  intro db
  exact answers_of_administers AdminService.settles_setUserEnabledIn

theorem keepsOnFailure_changePassword (service : AuthService)
    (accessToken currentPassword newPassword : String) :
    KeepsOnFailure (AccountSecurityService.changePassword service accessToken currentPassword
      newPassword) := by
  apply KeepsOnFailure.after (keepsDatabase_authenticateCurrentSession service _)
  intro current
  apply KeepsOnFailure.after (keepsDatabase_throwIf _ _)
  intro _
  apply KeepsOnFailure.after (keepsDatabase_consult _)
  intro currentValid
  apply KeepsOnFailure.after (keepsDatabase_throwIf _ _)
  intro _
  apply KeepsOnFailure.after (keepsDatabase_throwIf _ _)
  intro _
  apply KeepsOnFailure.after (keepsDatabase_consult _)
  intro same
  apply KeepsOnFailure.after (keepsDatabase_throwIf _ _)
  intro _
  apply KeepsOnFailure.after (keepsDatabase_hash _ _)
  intro newPasswordHash
  apply keepsOnFailure_transaction
  intro db
  exact answers_changePasswordIn _ _ _ db

/-! ## Operations that read the roles after their transaction -/

section roles

variable (inputs : Nat → Nat → Surroundings) (w : World)

theorem run_autocommit_select_bind {α β : Type} (error : Int → Exception) (query : Database → α)
    (events : α → List Event) (f : α → Sql β) :
    Process.run (Database.autocommit (Sql.select error query events >>= f)).run inputs w =
      match (inputs 0 0).failure with
      | some code => ⟨.error (error code), w, [], 1⟩
      | none =>
        let rest := Process.run (Database.autocommit (f (query w.database))).run
          (fun n => inputs (n + 1)) w
        { rest with
          events := events (query w.database) ++ rest.events
          used := rest.used + 1 } := by
  unfold Database.autocommit Sql.select Sql.statement
  rw [Fallible.zoom_bind, Fallible.zoom_atomic, Fallible.run_atomic_bind]
  cases (inputs 0 0).failure <;> rfl

theorem run_withPermissions_ok (rows : List RoleRow) :
    (∃ roles, (Process.run (Database.autocommit (RbacRepository.withPermissionsLocked rows)).run
      inputs w).result = .ok roles) ↔ ∀ k < rows.length, (inputs k 0).failure = none := by
  induction rows generalizing inputs with
  | nil =>
    constructor
    · intro _ k hk
      cases hk
    · intro _
      exact ⟨[], rfl⟩
  | cons row rows ih =>
    have hRest := ih (fun n => inputs (n + 1))
    unfold RbacRepository.withPermissionsLocked
    rw [run_autocommit_select_bind]
    cases hFailure : (inputs 0 0).failure with
    | some code =>
      constructor
      · rintro ⟨roles, hOk⟩
        cases hOk
      · intro hNone
        have hFirst := hNone 0 (Nat.succ_pos _)
        rw [hFailure] at hFirst
        cases hFirst
    | none =>
      simp only [Database.autocommit, Fallible.zoom_bind, Fallible.zoom_pure] at hRest ⊢
      rw [Fallible.run_bind_pure_ok, hRest]
      constructor
      · intro hNone k hk
        cases k with
        | zero => exact hFailure
        | succ k => exact hNone k (Nat.lt_of_succ_lt_succ hk)
      · intro hNone k hk
        exact hNone (k + 1) (Nat.succ_lt_succ hk)

/-- The connection, the SELECT of the roles and one SELECT for each of them are had. -/
def RolesReadable (db : Database) (userId : Int) : Prop :=
  0 < userId → ∀ k < (db.rolesForUser userId).length + 2, (inputs k 0).failure = none

theorem run_rolesForUser_ok (userId : Int) :
    (∃ roles, (Process.run (RbacRepository.rolesForUser userId).run inputs w).result = .ok roles) ↔
      RolesReadable inputs w.database userId := by
  unfold RbacRepository.rolesForUser RolesReadable
  by_cases hNonpos : userId ≤ 0
  · rw [if_pos hNonpos]
    constructor
    · intro _ hPositive
      omega
    · intro _
      exact ⟨[], rfl⟩
  · rw [if_neg hNonpos]
    unfold Database.withLockedHandle Database.acquireConnection RbacRepository.rolesForUserLocked consult
    rw [Fallible.run_atomic_bind]
    have hPositive : 0 < userId := by omega
    cases hAcquire : (inputs 0 0).failure with
    | some code =>
      simp only [HasSurroundings.surroundings, hAcquire]
      constructor
      · rintro ⟨roles, hOk⟩
        cases hOk
      · intro hNone
        have hFirst := hNone hPositive 0 (Nat.succ_pos _)
        rw [hAcquire] at hFirst
        cases hFirst
    | none =>
      simp only [HasSurroundings.surroundings, hAcquire]
      rw [run_autocommit_select_bind]
      cases hSelect : (inputs 1 0).failure with
      | some code =>
        constructor
        · rintro ⟨roles, hOk⟩
          cases hOk
        · intro hNone
          have hSecond := hNone hPositive 1 (by omega)
          rw [hSelect] at hSecond
          cases hSecond
      | none =>
        rw [run_withPermissions_ok]
        constructor
        · intro hNone _ k hk
          match k with
          | 0 => exact hAcquire
          | 1 => exact hSelect
          | k + 2 => exact hNone k (by omega)
        · intro hNone k hk
          exact hNone hPositive (k + 2) (by omega)

theorem keepsDatabase_rolesForUser (userId : Int) :
    KeepsDatabase (RbacRepository.rolesForUser userId) := by
  have hSelect : ∀ {α : Type} (error : String) (query : Database → α) (db : Database),
      (Sql.select (.rbacRepositoryError error) query (fun _ => [])).Ensures db
        (fun _ db' _ => db' = db) :=
    fun _ _ _ => ensures_select (fun _ => rfl) rfl
  have hPermissions : ∀ (rows : List RoleRow) (db : Database),
      (RbacRepository.withPermissionsLocked rows).Ensures db (fun _ db' _ => db' = db) := by
    intro rows
    induction rows with
    | nil => exact fun _ => Fallible.ensures_pure.mpr rfl
    | cons row rows ih =>
      intro db
      apply Fallible.ensures_bind.mpr
      apply Fallible.Ensures.mono (hSelect _ _ db)
      rintro r db' log rfl
      cases r with
      | error e => rfl
      | ok permissions =>
        apply Fallible.ensures_bind.mpr
        apply Fallible.Ensures.mono (ih db')
        rintro r' db'' log' rfl
        cases r' with
        | error e => rfl
        | ok roles => exact Fallible.ensures_pure.mpr rfl
  unfold RbacRepository.rolesForUser
  split
  · exact keepsDatabase_pure _
  · apply KeepsDatabase.bind (keepsDatabase_consult _)
    intro _
    apply keepsDatabase_autocommit
    intro db
    apply Fallible.ensures_bind.mpr
    apply Fallible.Ensures.mono (hSelect _ _ db)
    rintro r db' log rfl
    cases r with
    | error e => rfl
    | ok rows => exact hPermissions rows db'

end roles

/-- assign_role up to the end of its transaction. -/
def commitAssignRole (service : AuthService) (accessToken : String) (targetUserId : Int)
    (roleName : String) : Call (Int × User × Bool) := do
  let administrator ← AdminService.authenticateWithPermission service accessToken "roles.manage"
  let answer ← Database.transaction
    (AdminService.assignRoleIn targetUserId roleName administrator.id)
  pure (administrator.id, answer)

/-- revoke_role up to the end of its transaction. -/
def commitRevokeRole (service : AuthService) (accessToken : String) (targetUserId : Int)
    (roleName : String) : Call (Int × User × Bool) := do
  let administrator ← AdminService.authenticateWithPermission service accessToken "roles.manage"
  Fallible.throwIf (roleName == "user") AdminService.cannotRemoveBaseRole
  let answer ← Database.transaction (AdminService.revokeRoleIn targetUserId roleName)
  pure (administrator.id, answer)

def thenReadRoles (change : Call (Int × User × Bool)) (targetUserId : Int) : Call RoleChangeResult := do
  let (administratorId, updated, changed) ← change
  let roles ← RbacRepository.rolesForUser targetUserId
  pure ⟨administratorId, updated, roles, changed⟩

theorem assignRole_eq (service : AuthService) (accessToken : String) (targetUserId : Int)
    (roleName : String) : AdminService.assignRole service accessToken targetUserId roleName =
      thenReadRoles (commitAssignRole service accessToken targetUserId roleName) targetUserId := by
  simp only [AdminService.assignRole, thenReadRoles, commitAssignRole, bind_assoc, pure_bind]

theorem revokeRole_eq (service : AuthService) (accessToken : String) (targetUserId : Int)
    (roleName : String) : AdminService.revokeRole service accessToken targetUserId roleName =
      thenReadRoles (commitRevokeRole service accessToken targetUserId roleName) targetUserId := by
  simp only [AdminService.revokeRole, thenReadRoles, commitRevokeRole, bind_assoc, pure_bind]

theorem keepsOnFailure_commitAssignRole (service : AuthService) (accessToken : String)
    (targetUserId : Int) (roleName : String) :
    KeepsOnFailure (commitAssignRole service accessToken targetUserId roleName) := by
  apply KeepsOnFailure.after (keepsDatabase_authenticateWithPermission service _ _)
  intro administrator
  apply KeepsOnFailure.answer
  apply keepsOnFailure_transaction
  intro db
  exact answers_of_administers AdminService.settles_assignRoleIn

theorem keepsOnFailure_commitRevokeRole (service : AuthService) (accessToken : String)
    (targetUserId : Int) (roleName : String) :
    KeepsOnFailure (commitRevokeRole service accessToken targetUserId roleName) := by
  apply KeepsOnFailure.after (keepsDatabase_authenticateWithPermission service _ _)
  intro administrator
  apply KeepsOnFailure.throwIf
  intro hBase
  apply KeepsOnFailure.answer
  apply keepsOnFailure_transaction
  intro db
  exact answers_of_administers (AdminService.settles_revokeRoleIn (by simpa using hBase))

/-! ## What is left after an exception -/

structure TablesKept (db db' : Database) : Prop where
  users : db'.users = db.users
  userRoles : db'.userRoles = db.userRoles
  authSessions : db'.authSessions = db.authSessions

theorem TablesKept.of_eq {db db' : Database} (h : db' = db) : TablesKept db db' := by
  subst h
  exact ⟨rfl, rfl, rfl⟩

/-- If the call, run alone, ends with an exception, the tables are as before. -/
def FailureKeepsTables {α : Type} (x : Call α) (inputs : Nat → Nat → Surroundings) (w : World) : Prop :=
  ∀ e, (Process.run x.run inputs w).result = .error e →
    TablesKept w.database (Process.run x.run inputs w).state.database

/-- The change leaves the tables as they are, or the roles can be read afterwards. -/
def UnchangedOrRead (change : Call (Int × User × Bool)) (targetUserId : Int)
    (inputs : Nat → Nat → Surroundings) (w : World) : Prop :=
  let committed := Process.run change.run inputs w
  TablesKept w.database committed.state.database ∨
    RolesReadable (fun n => inputs (n + committed.used)) committed.state.database targetUserId

theorem failureKeepsTables_thenReadRoles_iff {change : Call (Int × User × Bool)}
    (hChange : KeepsOnFailure change) (targetUserId : Int) (inputs : Nat → Nat → Surroundings)
    (w : World) : FailureKeepsTables (thenReadRoles change targetUserId) inputs w ↔
      UnchangedOrRead change targetUserId inputs w := by
  have hFailed := fun e => KeepsOnFailure.run hChange inputs w (e := e)
  unfold FailureKeepsTables UnchangedOrRead thenReadRoles
  simp only [Fallible.run_bind inputs w change]
  generalize Process.run change.run inputs w = committed at hFailed ⊢
  obtain ⟨result, state, events, used⟩ := committed
  cases result with
  | error e =>
    have hKept := TablesKept.of_eq (hFailed e rfl)
    exact ⟨fun _ => Or.inl hKept, fun _ _ _ => hKept⟩
  | ok answer =>
    have hRead := run_rolesForUser_ok (fun n => inputs (n + used)) state targetUserId
    have hKept := Process.Ensures.run (keepsDatabase_rolesForUser targetUserId state)
      (fun n => inputs (n + used))
    simp only [Fallible.run_bind (fun n => inputs (n + used)) state]
    generalize Process.run (RbacRepository.rolesForUser targetUserId).run
      (fun n => inputs (n + used)) state = read at hRead hKept ⊢
    obtain ⟨result, state', events', used'⟩ := read
    simp only at hKept
    cases result with
    | ok roles =>
      constructor
      · intro _
        exact Or.inr (hRead.mp ⟨roles, rfl⟩)
      · intro _ e hError
        cases hError
    | error e =>
      have hNotRead : ¬ RolesReadable (fun n => inputs (n + used)) state.database targetUserId := by
        intro hReadable
        obtain ⟨roles, hOk⟩ := hRead.mpr hReadable
        cases hOk
      simp only [hKept]
      constructor
      · intro hTables
        exact Or.inl (hTables e rfl)
      · rintro (hTables | hReadable) e' -
        · exact hTables
        · exact absurd hReadable hNotRead

theorem KeepsOnFailure.failureKeepsTables {α : Type} {x : Call α} (h : KeepsOnFailure x)
    (inputs : Nat → Nat → Surroundings) (w : World) : FailureKeepsTables x inputs w :=
  fun _ hError => TablesKept.of_eq (h.run inputs w hError)

/-- set_user_enabled and change_password leave no trace when they throw. assign_role and
revoke_role leave none exactly when they changed nothing or can read the roles after
their COMMIT. -/
theorem failed_calls_keep_tables (service : AuthService) (inputs : Nat → Nat → Surroundings)
    (w : World) :
    (∀ accessToken targetUserId enabled, FailureKeepsTables
      (AdminService.setUserEnabled service accessToken targetUserId enabled) inputs w) ∧
    (∀ accessToken currentPassword newPassword, FailureKeepsTables
      (AccountSecurityService.changePassword service accessToken currentPassword newPassword)
      inputs w) ∧
    (∀ accessToken targetUserId roleName,
      FailureKeepsTables (AdminService.assignRole service accessToken targetUserId roleName)
        inputs w ↔
      UnchangedOrRead (commitAssignRole service accessToken targetUserId roleName) targetUserId
        inputs w) ∧
    ∀ accessToken targetUserId roleName,
      FailureKeepsTables (AdminService.revokeRole service accessToken targetUserId roleName)
        inputs w ↔
      UnchangedOrRead (commitRevokeRole service accessToken targetUserId roleName) targetUserId
        inputs w := by
  refine ⟨?_, ?_, ?_, ?_⟩
  · intro accessToken targetUserId enabled
    exact (keepsOnFailure_setUserEnabled _ _ _ _).failureKeepsTables inputs w
  · intro accessToken currentPassword newPassword
    exact (keepsOnFailure_changePassword _ _ _ _).failureKeepsTables inputs w
  · intro accessToken targetUserId roleName
    rw [assignRole_eq]
    exact failureKeepsTables_thenReadRoles_iff (keepsOnFailure_commitAssignRole _ _ _ _) _ inputs w
  · intro accessToken targetUserId roleName
    rw [revokeRole_eq]
    exact failureKeepsTables_thenReadRoles_iff (keepsOnFailure_commitRevokeRole _ _ _ _) _ inputs w

namespace Sample

/-- No connection is had for the read that follows the COMMIT of assign_role. -/
def poolTimeout (n : Nat) : Nat → Surroundings :=
  if n = 9 then fun _ => ⟨some 0, "2026-01-01T00:00:00.000Z", 1000, 1000, "a", [], []⟩ else calm "a"

end Sample

/-- Alice has become a super administrator although assign_role has thrown. -/
theorem failed_assignment_committed :
    let ran := Process.run (AdminService.assignRole (Sample.service 0) "sc_at_root" 1
      "super_admin").run Sample.poolTimeout Sample.world
    ran.result = .error
      (.databasePoolTimeoutError "Timed out waiting for a database connection") ∧
    Sample.world.database.hasRole 1 "super_admin" = false ∧
    ran.state.database.hasRole 1 "super_admin" = true ∧
    ¬ FailureKeepsTables (AdminService.assignRole (Sample.service 0) "sc_at_root" 1 "super_admin")
      Sample.poolTimeout Sample.world := by
  have hResult : (Process.run (AdminService.assignRole (Sample.service 0) "sc_at_root" 1
      "super_admin").run Sample.poolTimeout Sample.world).result = .error
      (.databasePoolTimeoutError "Timed out waiting for a database connection") := by
    decide +kernel
  have hChanged : (Process.run (AdminService.assignRole (Sample.service 0) "sc_at_root" 1
      "super_admin").run Sample.poolTimeout Sample.world).state.database.userRoles ≠
      Sample.world.database.userRoles := by
    decide +kernel
  refine ⟨hResult, by decide +kernel, by decide +kernel, ?_⟩
  intro hKeeps
  exact hChanged (hKeeps _ hResult).userRoles

end SecureCore
