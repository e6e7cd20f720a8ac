import SecureCore.System.Accounts

/-! # Administrators under all operations

The last enabled super administrator stays one, and what a call of an administrator
had seen when it committed. -/

namespace SecureCore

set_option autoImplicit false

open Interleaving Relational

/-! ## Holders of a role -/

namespace Database

variable {db db' : Database}

theorem hasRole_iff {userId : Int} {roleName : String} :
    db.hasRole userId roleName = true ↔ ∃ ur ∈ db.userRoles, ur.userId = userId ∧
      ∃ r ∈ db.roles.rows, r.id = ur.roleId ∧ r.name = roleName := by
  simp only [hasRole, List.any_eq_true, Bool.and_eq_true, beq_iff_eq]

theorem hasRole_mono {userId : Int} {roleName : String} (h : db.hasRole userId roleName = true)
    (hRoles : db'.roles = db.roles)
    (hUserRoles : ∀ ur ∈ db.userRoles, ur.userId = userId →
      (∃ r ∈ db.roles.rows, r.id = ur.roleId ∧ r.name = roleName) → ur ∈ db'.userRoles) :
    db'.hasRole userId roleName = true := by
  obtain ⟨ur, hMem, hUser, hRole⟩ := hasRole_iff.mp h
  rw [hasRole_iff, hRoles]
  exact ⟨ur, hUserRoles ur hMem hUser hRole, hUser, hRole⟩

/-- An enabled user that holds super_admin. -/
structure SuperAdmin (db : Database) (u : User) : Prop where
  mem : u ∈ db.users.rows
  enabled : u.enabled = true
  role : db.hasRole u.id "super_admin" = true

def HasSuperAdmin (db : Database) : Prop := ∃ u, db.SuperAdmin u

/-- The guard of all operations: if this user is not the last super administrator,
another user is one. -/
theorem exists_other_superAdmin {user : User} (hUser : user ∈ db.users.rows)
    (hGuard : db.isLastSuperAdmin user = false) (h : db.HasSuperAdmin) :
    ∃ u, db.SuperAdmin u ∧ u.id ≠ user.id := by
  obtain ⟨u, hAdmin⟩ := h
  by_cases hId : u.id = user.id
  · have hSame : u = user := Table.eq_of_key hAdmin.mem hUser hId
    subst hSame
    have hCount : 1 < db.countEnabledUsersWithRole "super_admin" := by
      simpa [isLastSuperAdmin, hAdmin.enabled, hAdmin.role] using hGuard
    obtain ⟨other, hMem, hCondition, hOther⟩ := Table.exists_other hCount u.id
    rw [Bool.and_eq_true] at hCondition
    exact ⟨other, ⟨hMem, hCondition.1, hCondition.2⟩, hOther⟩
  · exact ⟨u, hAdmin, hId⟩

/-- A super administrator whose account and whose memberships are kept stays one. -/
theorem SuperAdmin.kept {u : User} (h : db.SuperAdmin u)
    (hAccounts : db'.users.rows.map User.account = db.users.rows.map User.account)
    (hRole : db'.hasRole u.id "super_admin" = true) : db'.HasSuperAdmin := by
  have hMem : u.account ∈ db'.users.rows.map User.account := by
    rw [hAccounts]
    exact List.mem_map_of_mem h.mem
  obtain ⟨u', hu', hAccount⟩ := List.mem_map.mp hMem
  have hId : u'.id = u.id := congrArg Prod.fst hAccount
  have hEnabled : u'.enabled = u.enabled := congrArg Prod.snd hAccount
  refine ⟨u', hu', hEnabled.trans h.enabled, ?_⟩
  rw [hId]
  exact hRole

theorem SuperAdmin.setEnabled {u : User} (h : db.SuperAdmin u) {userId : Int} {enabled : Bool}
    (hKeeps : u.id = userId → enabled = true) (now : String) :
    (db.setEnabled userId enabled now).HasSuperAdmin := by
  refine ⟨Table.updated (fun u => u.id == userId)
    (fun u => { u with enabled := enabled, updatedAt := now }) u, Table.mem_update.mpr ⟨u, h.mem, rfl⟩,
    ?_, ?_⟩
  · unfold Table.updated
    split
    · rename_i hTarget
      exact hKeeps (by simpa using hTarget)
    · exact h.enabled
  · have hId : (Table.updated (fun u => u.id == userId)
        (fun u => { u with enabled := enabled, updatedAt := now }) u).id = u.id :=
      Table.key_updated _ _ u
    rw [hId]
    exact h.role

end Database

theorem KeepsAccounts.hasSuperAdmin {db db' : Database} (hKeeps : KeepsAccounts db db')
    (h : db.HasSuperAdmin) : db'.HasSuperAdmin := by
  obtain ⟨u, hAdmin⟩ := h
  apply hAdmin.kept hKeeps.accounts
  apply Database.hasRole_mono hAdmin.role hKeeps.roles
  intro ur hMem _ _
  rw [hKeeps.userRoles]
  exact hMem

theorem hasSuperAdmin_insertUser {db : Database} (h : db.HasSuperAdmin) (input : CreateUser)
    (now : String) : (db.insertUser input now).HasSuperAdmin := by
  obtain ⟨u, hAdmin⟩ := h
  refine ⟨u, Table.mem_insert.mpr (Or.inl hAdmin.mem), hAdmin.enabled, ?_⟩
  apply Database.hasRole_mono hAdmin.role
  · rfl
  · intro ur hMem _ _
    exact List.mem_append_left _ hMem

theorem AdminChange.hasSuperAdmin {db db' : Database} {userId : Int} {action : AdminAction}
    (hChange : AdminChange db userId action db') (h : db.HasSuperAdmin) : db'.HasSuperAdmin := by
  cases hChange with
  | enabled now =>
    obtain ⟨u, hAdmin⟩ := h
    exact hAdmin.setEnabled (fun _ => rfl) now
  | disabled now revokedAt hUser hGuard =>
    obtain ⟨hMem, hId⟩ := Database.findUserById_eq_some hUser
    obtain ⟨u, hAdmin, hOther⟩ := Database.exists_other_superAdmin hMem hGuard h
    obtain ⟨u', hAdmin'⟩ : (db.setEnabled userId false now).HasSuperAdmin :=
      hAdmin.setEnabled (fun hTarget => absurd (hTarget.trans hId.symm) hOther) now
    exact ⟨u', hAdmin'.mem, hAdmin'.enabled, hAdmin'.role⟩
  | alreadyEnabled | alreadyDisabled => exact h
  | @granted roleName assignedBy roleId now now' hUser hRole =>
    obtain ⟨u, hAdmin⟩ := h
    apply hAdmin.kept
    · simp only [Database.grantRole, Database.insertUserRole]
      split <;> split <;> first | rfl | exact accounts_setLegacyRole _ _ _ _
    · apply Database.hasRole_mono hAdmin.role
      · simp only [Database.grantRole, Database.insertUserRole]
        split <;> split <;> rfl
      · intro ur hMem _ _
        simp only [Database.grantRole, Database.insertUserRole]
        split <;> split <;> first | exact hMem | exact List.mem_append_left _ hMem
  | @removed user roleName roleId now hUser hRole hGuard =>
    have hAccounts : (db.removeRole userId roleId roleName now).users.rows.map User.account =
        db.users.rows.map User.account := by
      simp only [Database.removeRole]
      split
      · exact accounts_setLegacyRole _ _ _ _
      · rfl
    have hRoles : (db.removeRole userId roleId roleName now).roles = db.roles := by
      simp only [Database.removeRole]
      split <;> rfl
    have hMember : ∀ ur ∈ db.userRoles, ¬ (ur.userId = userId ∧ ur.roleId = roleId) →
        ur ∈ (db.removeRole userId roleId roleName now).userRoles := by
      intro ur hMem hOther
      have hKept : ur ∈ (db.deleteUserRole userId roleId).userRoles :=
        List.mem_filter.mpr ⟨hMem, by simpa [imp_iff_not_or] using hOther⟩
      simp only [Database.removeRole]
      split <;> exact hKept
    by_cases hName : roleName = "super_admin"
    · -- the guard has found another super administrator
      obtain ⟨hMem, hId⟩ := Database.findUserById_eq_some hUser
      obtain ⟨u, hAdmin, hOther⟩ := Database.exists_other_superAdmin hMem (hGuard hName) h
      apply hAdmin.kept hAccounts
      apply Database.hasRole_mono hAdmin.role hRoles
      intro ur hUserRole hHolder _
      apply hMember ur hUserRole
      rintro ⟨hTarget, -⟩
      exact hOther (hHolder.symm.trans (hTarget.trans hId.symm))
    · -- another role is removed
      obtain ⟨u, hAdmin⟩ := h
      apply hAdmin.kept hAccounts
      apply Database.hasRole_mono hAdmin.role hRoles
      rintro ur hUserRole - ⟨r, hr, hRoleId, hSuper⟩
      apply hMember ur hUserRole
      rintro ⟨-, hRemoved⟩
      obtain ⟨r', hFirst, hId⟩ := Option.map_eq_some_iff.mp hRole
      obtain ⟨hr', hNamed⟩ := Table.mem_of_first hFirst
      have hSame : r = r' := Table.eq_of_key hr hr' (hRoleId.trans (hRemoved.trans hId.symm))
      subst hSame
      apply hName
      rw [← hSuper]
      exact (beq_iff_eq.mp hNamed).symm

theorem AccountChange.hasSuperAdmin {db db' : Database} (hChange : AccountChange db db')
    (h : db.HasSuperAdmin) : db'.HasSuperAdmin := by
  cases hChange with
  | kept hKept => exact hKept.hasSuperAdmin h
  | registered hAfter =>
    rw [hAfter]
    exact hasSuperAdmin_insertUser h _ _
  | administered hChange => exact hChange.hasSuperAdmin h

/-! ## Runs -/

section runs

variable {τ : Type} [DecidableEq τ] {d : Deployment} {calls : τ → Operation} {world : World}

/-- Once a state of a run has an enabled super administrator, every later state has one. -/
theorem super_admin_remains (d : Deployment) (calls : τ → Operation) (world : World)
    (schedule : List (τ × (Nat → Surroundings))) (newer older : List (Entry τ World Event))
    (hSplit : ((d.pool calls world).run schedule).history = newer ++ older)
    (h : (stateAfter world older).database.HasSuperAdmin) :
    ((d.pool calls world).run schedule).state.database.HasSuperAdmin := by
  have hRun := running_pool d calls world schedule
  have hExecution := hRun.execution
  rw [hSplit] at hExecution
  rw [hRun.state, hSplit]
  apply Execution.invariant_from (I := fun w _ => w.database.HasSuperAdmin) h _ hExecution
  intro e mid hMid hBefore
  exact hMid.uncons.2.2.accountChange.hasSuperAdmin hBefore

namespace Sample

/-- Two super administrators take the role from each other. -/
def demotingCalls : Bool → Operation
  | false => .revokeRole 0 "sc_at_root" 3 "super_admin"
  | true => .revokeRole 1 "sc_at_rita" 2 "super_admin"

def bothDemote : List (Bool × (Nat → Surroundings)) :=
  turns false 7 "a" ++ turns true 7 "b" ++ turns false 9 "c" ++ turns true 9 "d"

theorem hasSuperAdmin : Database.HasSuperAdmin Sample.world.database :=
  ⟨{ user "root" "$root-password" "admin" with id := 2 }, by decide +kernel, rfl, by decide +kernel⟩

end Sample

theorem super_admin_remains_sample :
    ((Sample.deployment.pool Sample.demotingCalls Sample.world).run
      Sample.bothDemote).state.database.HasSuperAdmin :=
  super_admin_remains Sample.deployment Sample.demotingCalls Sample.world Sample.bothDemote _ []
    (List.append_nil _).symm Sample.hasSuperAdmin

/-! ## What an administrator's call has seen -/

/-- In every state from the end of `start` on, before an access that follows `mid`, the
session is revoked, the user is disabled, or the roles do not grant the permission. -/
def RevokedSince (world : World) (session : AuthSession) (administrator : User) (permission : String)
    (mid start : List (Entry τ World Event)) : Prop :=
  (∃ s ∈ (stateAfter world start).database.authSessions.rows, s.id = session.id ∧ s.revoked = true) ∨
  (∀ last first, mid = last ++ first →
    ∀ u ∈ (stateAfter world (first ++ start)).database.users.rows,
      u.id = administrator.id → u.enabled = false) ∨
  ∀ last first, mid = last ++ first →
    (stateAfter world (first ++ start)).database.hasPermission administrator.id permission = false

/-- An access of a thread that had made none by the end of `start` comes later. -/
theorem before_of_own {mid start : List (Entry τ World Event)}
    (h : Histories d calls world (mid ++ start)) {t : τ} (hStart : own t start = [])
    {act : Act World Event} (hMem : act ∈ own t (mid ++ start)) :
    ∃ last first, mid = last ++ first ∧ act.before = stateAfter world (first ++ start) := by
  obtain ⟨e, hEntry, hThread, rfl⟩ := mem_own.mp hMem
  rcases List.mem_append.mp hEntry with hMid | hOld
  · obtain ⟨last, first, rfl⟩ := List.append_of_mem hMid
    refine ⟨last ++ [e], first, by simp, ?_⟩
    rw [List.append_assoc, List.cons_append] at h
    exact h.at_entry.1
  · have hOwn : e.toAct ∈ own t start := mem_own.mpr ⟨e, hOld, hThread, rfl⟩
    rw [hStart] at hOwn
    cases hOwn

theorem not_revokedSince {mid start : List (Entry τ World Event)}
    (h : Histories d calls world (mid ++ start)) {t : τ} (hStart : own t start = [])
    {request : AdminRequest} {session : AuthSession} {administrator : User}
    {sessionAct userAct permissionAct : Act World Event}
    (hPast : [permissionAct, userAct, sessionAct].Sublist (own t (mid ++ start)))
    (hAuthenticated : Authenticated d request.accessToken session administrator sessionAct userAct)
    (hPermission : PermissionRead permissionAct administrator.id request.permission) :
    ¬ RevokedSince world session administrator request.permission mid start := by
  have hSessionAct : sessionAct ∈ own t (mid ++ start) := hPast.subset (by simp)
  have hUserAct : userAct ∈ own t (mid ++ start) := hPast.subset (by simp)
  have hPermissionAct : permissionAct ∈ own t (mid ++ start) := hPast.subset (by simp)
  rintro (⟨s, hs, hId, hRevoked⟩ | hDisabled | hMissing)
  · obtain ⟨last, first, rfl, hBefore⟩ := before_of_own h hStart hSessionAct
    have hRun : Histories d calls world (first ++ start) := by
      rw [List.append_assoc] at h
      exact h.of_append
    have hNames := names_of_run hRun (P := fun s => s.revoked = true)
      (fun _ _ hContinues hOld => hContinues.revoked hOld) (names_of_mem hs hRevoked)
    have hStored := hAuthenticated.readSession.stored
    rw [hBefore] at hStored
    have hNow := hNames.rows session hStored hId.symm
    rw [hAuthenticated.unrevoked] at hNow
    cases hNow
  · obtain ⟨last, first, hSplit, hBefore⟩ := before_of_own h hStart hUserAct
    have hStored := hAuthenticated.readUser.stored
    rw [hBefore] at hStored
    have hNow := hDisabled last first hSplit administrator hStored rfl
    rw [hAuthenticated.enabled] at hNow
    cases hNow
  · obtain ⟨last, first, hSplit, hBefore⟩ := before_of_own h hStart hPermissionAct
    have hNow := hMissing last first hSplit
    rw [← hBefore, hPermission.granted] at hNow
    cases hNow

theorem Obeys.authorised {op : Operation} {past : List (Act World Event)} {act : Act World Event}
    (h : Obeys d op past act) {request : AdminRequest} (hRequest : op.adminRequest = some request)
    (hCommitted : .committed ∈ act.events) :
    ∃ administrator, Authorised d request administrator past := by
  have hWrite : Event.committed ∈ Event.writes act.events := Event.mem_writes.mpr ⟨hCommitted, rfl⟩
  cases h with
  | reads hSame hEvents =>
    rw [hEvents] at hWrite
    cases hWrite
  | administer hRequest' hAuthorised hChange hEvents =>
    rw [hRequest, Option.some.injEq] at hRequest'
    subst hRequest'
    exact ⟨_, hAuthorised⟩
  | _ => cases hRequest

/-- A call that commits a change of an administrator has, in this order, found the
presented session unrevoked, its user enabled and the permission granted, each in the
state of that moment. So nothing is committed by a call that begins after the session
was revoked, or after the account was disabled or the permission taken and not given
back. -/
theorem administrator_was_authorised (d : Deployment) (calls : τ → Operation) (world : World)
    (schedule : List (τ × (Nat → Surroundings))) (newer : List (Entry τ World Event))
    (e : Entry τ World Event) (older : List (Entry τ World Event))
    (hSplit : ((d.pool calls world).run schedule).history = newer ++ e :: older)
    (request : AdminRequest) (hRequest : (calls e.thread).adminRequest = some request)
    (hCommitted : .committed ∈ e.events) :
    ∃ session administrator sessionAct userAct permissionAct,
      [permissionAct, userAct, sessionAct].Sublist (own e.thread older) ∧
      Authenticated d request.accessToken session administrator sessionAct userAct ∧
      PermissionRead permissionAct administrator.id request.permission ∧
      ∀ mid start, older = mid ++ start → own e.thread start = [] →
        ¬ RevokedSince world session administrator request.permission mid start := by
  have hRun := (running_pool d calls world schedule).execution
  rw [hSplit] at hRun
  obtain ⟨administrator, session, sessionAct, userAct, permissionAct, hPast, hAuthenticated,
    hPermission⟩ := hRun.at_entry.2.authorised hRequest hCommitted
  refine ⟨session, administrator, sessionAct, userAct, permissionAct, hPast, hAuthenticated,
    hPermission, ?_⟩
  rintro mid start rfl hStart
  exact not_revokedSince hRun.of_append.uncons.1 hStart hPast hAuthenticated hPermission

end runs

namespace Sample

/-- Root disables Alice while it loses its role and its account. -/
def revokingCalls : Fin 3 → Operation
  | 0 => .setUserEnabled 0 "sc_at_root" 1 false
  | 1 => .secureAdmin .demote "root"
  | 2 => .secureAdmin .disable "root"

/-- The call of Root has been authorised and not yet begun its transaction. -/
def revokedBeforeCommit : List (Fin 3 × (Nat → Surroundings)) :=
  turns 0 7 "a" ++ turns 1 10 "b" ++ turns 2 10 "c" ++ turns 0 2 "d"

end Sample

theorem administrator_was_authorised_sample :
    let history := ((Sample.deployment.pool Sample.revokingCalls Sample.world).run
      Sample.revokedBeforeCommit).history
    ∃ session administrator sessionAct userAct permissionAct,
      [permissionAct, userAct, sessionAct].Sublist (own 0 (history.drop 1)) ∧
      Authenticated Sample.deployment "sc_at_root" session administrator sessionAct userAct ∧
      PermissionRead permissionAct administrator.id "users.disable" ∧
      ∀ mid start, history.drop 1 = mid ++ start → own 0 start = [] →
        ¬ RevokedSince Sample.world session administrator "users.disable" mid start := by
  intro history
  have hThread : (history.get ⟨0, by decide +kernel⟩).thread = 0 := by decide +kernel
  have hSample := administrator_was_authorised Sample.deployment Sample.revokingCalls Sample.world
    Sample.revokedBeforeCommit [] (history.get ⟨0, by decide +kernel⟩) (history.drop 1)
    (by rw [List.nil_append, List.get_eq_getElem, List.getElem_cons_drop]; rfl)
    ⟨"sc_at_root", "users.disable", 1, fun _ => .disable⟩ (by rw [hThread]; rfl) (by decide +kernel)
  rw [hThread] at hSample
  exact hSample

/-- When the call commits, its session is revoked, its user disabled and the permission
gone. -/
theorem revoked_administrator_commits :
    ∃ e ∈ ((Sample.deployment.pool Sample.revokingCalls Sample.world).run
        Sample.revokedBeforeCommit).history,
      e.thread = 0 ∧ .committed ∈ e.events ∧
      (∃ s ∈ e.before.database.authSessions.rows, s.revoked = true ∧
        s.accessTokenHash = TokenService.hashToken Sample.deployment.sodium "sc_at_root") ∧
      (∃ u ∈ e.before.database.users.rows, u.id = 2 ∧ u.enabled = false) ∧
      e.before.database.hasPermission 2 "users.disable" = false := by
  decide +kernel

end SecureCore
