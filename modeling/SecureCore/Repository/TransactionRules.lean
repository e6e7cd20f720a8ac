import SecureCore.Database.TransactionRules
import SecureCore.Repository.AuthSessionRepository
import SecureCore.Repository.RbacRepository
import SecureCore.Repository.UserRepository

/-! # What the repositories do inside a transaction

One rule for each function that takes a transaction. -/

namespace SecureCore

set_option autoImplicit false

open Interleaving Relational

/-- The exceptions of a failed statement, BEGIN or COMMIT and of a refused argument. -/
def Exception.isFault : Exception → Bool
  | .userRepositoryError _ _ | .authSessionRepositoryError _ _ | .rbacRepositoryError _ _
  | .databaseError _ _ | .databasePoolTimeoutError _ | .runtimeError _ | .invalidArgument _
  | .logicError _ => true
  | _ => false

namespace Database

variable {db : Database}

theorem findUserById_eq_some {userId : Int} {user : User} (h : db.findUserById userId = some user) :
    user ∈ db.users.rows ∧ user.id = userId := by
  obtain ⟨hMem, hId⟩ := Table.mem_of_first h
  exact ⟨hMem, by simpa using hId⟩

theorem findUserById_of_mem {user : User} (h : user ∈ db.users.rows) :
    db.findUserById user.id = some user := by
  apply Table.first_of_unique h
  · simp
  · intro row _ hId
    exact beq_iff_eq.mp hId

theorem findUserById_of_nonpos {userId : Int} (h : userId ≤ 0) : db.findUserById userId = none := by
  cases hFind : db.findUserById userId with
  | none => rfl
  | some user =>
    obtain ⟨hMem, hId⟩ := findUserById_eq_some hFind
    have hPositive : 0 < user.id := db.users.positive user hMem
    omega

theorem user_positive {user : User} (h : user ∈ db.users.rows) : 0 < user.id :=
  db.users.positive user h

theorem session_positive {session : AuthSession} (h : session ∈ db.authSessions.rows) :
    0 < session.id :=
  db.authSessions.positive session h

theorem findSessionById_insertSession (row : AuthSession) :
    (db.insertSession row).findSessionById db.authSessions.nextKey =
      some (Keyed.withKey db.authSessions.nextKey row) := by
  apply Table.first_of_unique
  · exact Table.mem_insert.mpr (Or.inr rfl)
  · exact beq_iff_eq.mpr (Keyed.key_withKey _ row)
  · intro row' _ hId
    rw [Keyed.key_withKey]
    exact beq_iff_eq.mp hId

end Database

namespace Transaction

variable {α : Type} {durable working : Database} {log : List Event} {Z : Exception → Prop}

section users

theorem works_findByIdIn (hFault : ∀ e : Exception, e.isFault = true → Z e) {userId : Int}
    {K : Option User → Database → List Event → Prop}
    (h : K (working.findUserById userId) working log) :
    Works (UserRepository.findByIdIn userId) durable working log K (fun e _ _ => Z e) := by
  unfold UserRepository.findByIdIn
  split
  · rename_i hNonpos
    rw [Database.findUserById_of_nonpos hNonpos] at h
    exact works_pure h
  · exact works_select (fun _ => hFault _ rfl) (by simpa using h)

theorem works_setPasswordHashIn (hFault : ∀ e : Exception, e.isFault = true → Z e) {userId : Int}
    {passwordHash : String} {K : Bool → Database → List Event → Prop}
    (hRefused : K false working log)
    (hUpdated : ∀ now, working.userExists userId = true →
      K true (working.setPasswordHash userId passwordHash now)
        (log ++ [.passwordHashUpdated userId passwordHash]))
    (hMissing : ∀ now, K false (working.setPasswordHash userId passwordHash now) log) :
    Works (UserRepository.setPasswordHashIn userId passwordHash) durable working log K
      (fun e _ _ => Z e) := by
  unfold UserRepository.setPasswordHashIn
  split
  · exact works_pure hRefused
  · refine works_perform (ensures_statement (fun _ => hFault _ rfl) ?_)
    intro env
    cases hExists : working.userExists userId with
    | true => simpa using hUpdated env.strftimeNow hExists
    | false => simpa using hMissing env.strftimeNow

theorem works_setEnabledIn (hFault : ∀ e : Exception, e.isFault = true → Z e) {userId : Int}
    (hPositive : 0 < userId) {enabled : Bool} {K : Bool → Database → List Event → Prop}
    (h : ∀ now, K (working.userExists userId) (working.setEnabled userId enabled now) log) :
    Works (UserRepository.setEnabledIn userId enabled) durable working log K (fun e _ _ => Z e) := by
  unfold UserRepository.setEnabledIn
  rw [if_neg (by omega)]
  refine works_perform (ensures_statement (fun _ => hFault _ rfl) ?_)
  intro env
  simpa using h env.strftimeNow

end users

section sessions

theorem works_findByRefreshTokenHashIn (hFault : ∀ e : Exception, e.isFault = true → Z e)
    {tokenHash : String} {K : Option AuthSession → Database → List Event → Prop}
    (hNone : K none working log)
    (hSome : ∀ session, working.findSessionByRefreshTokenHash tokenHash = some session →
      K (some session) working log) :
    Works (AuthSessionRepository.findByRefreshTokenHashIn tokenHash) durable working log K
      (fun e _ _ => Z e) := by
  unfold AuthSessionRepository.findByRefreshTokenHashIn
  split
  · exact works_pure hNone
  · refine works_select (fun _ => hFault _ rfl) ?_
    cases hFind : working.findSessionByRefreshTokenHash tokenHash with
    | none => simpa using hNone
    | some session => simpa using hSome session hFind

theorem works_revokeLocked (hFault : ∀ e : Exception, e.isFault = true → Z e) {operation : String}
    {condition : AuthSession → Bool} {revokedAt : String → Option String → String}
    {events : List Event} {K : Nat → Database → List Event → Prop}
    (h : ∀ now, K (working.countRevocable condition)
      (working.revokeSessions condition (revokedAt now)) (log ++ Event.writes events)) :
    Works (perform (AuthSessionRepository.revokeLocked operation condition revokedAt events))
      durable working log K (fun e _ _ => Z e) :=
  works_perform (ensures_statement (fun _ => hFault _ rfl) (fun env => h env.strftimeNow))

theorem works_revokeByIdIn (hFault : ∀ e : Exception, e.isFault = true → Z e) {sessionId : Int}
    (hPositive : 0 < sessionId) {K : Bool → Database → List Event → Prop}
    (h : ∀ now, K (decide (0 < working.countRevocable (fun s => s.id == sessionId)))
      (working.revokeSessions (fun s => s.id == sessionId) (fun _ => now)) log) :
    Works (AuthSessionRepository.revokeByIdIn sessionId) durable working log K
      (fun e _ _ => Z e) := by
  unfold AuthSessionRepository.revokeByIdIn
  rw [if_neg (by omega)]
  refine works_bind (works_revokeLocked hFault ?_)
  intro now
  exact works_pure (by simpa using h now)

theorem works_revokeAllForUserIn (hFault : ∀ e : Exception, e.isFault = true → Z e) {userId : Int}
    {K : Nat → Database → List Event → Prop} (hNone : userId ≤ 0 → K 0 working log)
    (h : ∀ now, 0 < userId → K (working.countRevocable (fun s => s.userId == userId))
      (working.revokeSessions (fun s => s.userId == userId) (fun _ => now)) log) :
    Works (AuthSessionRepository.revokeAllForUserIn userId) durable working log K
      (fun e _ _ => Z e) := by
  unfold AuthSessionRepository.revokeAllForUserIn
  split
  · rename_i hNonpos
    exact works_pure (hNone hNonpos)
  · rename_i hPositive
    refine works_revokeLocked hFault ?_
    intro now
    simpa using h now (by omega)

theorem works_revokeAllExceptForUserIn (hFault : ∀ e : Exception, e.isFault = true → Z e)
    {userId sessionId : Int} (hUser : 0 < userId) (hSession : 0 < sessionId)
    {K : Nat → Database → List Event → Prop}
    (h : ∀ now count, K count
      (working.revokeSessions (fun s => s.userId == userId && s.id != sessionId) (fun _ => now))
      (log ++ [.otherSessionsRevoked userId sessionId])) :
    Works (AuthSessionRepository.revokeAllExceptForUserIn userId sessionId) durable working log K
      (fun e _ _ => Z e) := by
  unfold AuthSessionRepository.revokeAllExceptForUserIn
  have hGuard : (decide (userId ≤ 0) || decide (sessionId ≤ 0)) = false := by simp [hUser, hSession]
  rw [hGuard, if_neg Bool.false_ne_true]
  refine works_revokeLocked hFault ?_
  intro now
  simpa using h now _

theorem works_revokeFamilyIn (hFault : ∀ e : Exception, e.isFault = true → Z e)
    {tokenFamilyId : String} (hFamily : tokenFamilyId.isEmpty = false)
    {K : Nat → Database → List Event → Prop}
    (h : ∀ now count, K count (working.revokeSessions (fun s => s.tokenFamilyId == tokenFamilyId)
      (fun earlier => earlier.getD now)) log) :
    Works (AuthSessionRepository.revokeFamilyIn tokenFamilyId) durable working log K
      (fun e _ _ => Z e) := by
  unfold AuthSessionRepository.revokeFamilyIn
  rw [hFamily, if_neg Bool.false_ne_true]
  refine works_revokeLocked hFault ?_
  intro now
  simpa using h now _

theorem works_createIn {input : CreateAuthSession} {K : AuthSession → Database → List Event → Prop}
    {Y : Exception → Database → List Event → Prop}
    (hFault : ∀ (e : Exception) db events, e.isFault = true → Y e db events)
    (hDuplicate : ∀ message, Y (.duplicateTokenError message) working log)
    (hCreated : ∀ now session, working.userExists input.userId = true →
      working.duplicatesToken input = false → AuthSessionRepository.valid input = true →
      let row := working.sessionRow input (AuthSessionRepository.familyIdOf input) now
      K session (working.insertSession row) (log ++ [.sessionInserted row])) :
    Works (AuthSessionRepository.createIn input) durable working log K Y := by
  refine works_bind (works_throwIf (fun _ => hFault _ _ _ rfl) ?_)
  intro hValid
  rw [Bool.not_eq_false'] at hValid
  refine works_perform (Fallible.ensures_bind.mpr (ensures_statement ?_ ?_))
  · intro code
    exact hFault _ _ _ rfl
  intro env
  cases hDuplicates : working.duplicatesToken input with
  | true => simpa using hDuplicate _
  | false =>
    cases hUser : working.userExists input.userId with
    | false => simpa using hFault _ _ _ rfl
    | true =>
      simp only [Bool.false_eq_true, if_false, if_true]
      refine Fallible.ensures_bind.mpr (ensures_select ?_ ?_)
      · intro code
        exact hFault _ _ _ rfl
      · have hRead := @Database.findSessionById_insertSession working
          (working.sessionRow input (AuthSessionRepository.familyIdOf input) env.strftimeNow)
        simp only [Database.sessionRow] at hRead ⊢
        rw [hRead]
        refine Fallible.ensures_pure.mpr ?_
        simpa [Database.sessionRow] using hCreated env.strftimeNow _ hUser hDuplicates hValid

end sessions

section roles

theorem works_hasRoleIn (hFault : ∀ e : Exception, e.isFault = true → Z e) {userId : Int}
    (hPositive : 0 < userId) {roleName : String} (hName : roleName.isEmpty = false)
    {K : Bool → Database → List Event → Prop} (h : K (working.hasRole userId roleName) working log) :
    Works (RbacRepository.hasRoleIn userId roleName) durable working log K (fun e _ _ => Z e) := by
  unfold RbacRepository.hasRoleIn
  have hGuard : (decide (userId ≤ 0) || roleName.isEmpty) = false := by simp [hPositive, hName]
  rw [hGuard, if_neg Bool.false_ne_true]
  exact works_select (fun _ => hFault _ rfl) (by simpa using h)

theorem works_countEnabledUsersWithRoleIn (hFault : ∀ e : Exception, e.isFault = true → Z e)
    {roleName : String} {K : Nat → Database → List Event → Prop}
    (h : K (working.countEnabledUsersWithRole roleName) working log) :
    Works (RbacRepository.countEnabledUsersWithRoleIn roleName) durable working log K
      (fun e _ _ => Z e) :=
  works_select (fun _ => hFault _ rfl) (by simpa using h)

theorem ensures_requireRoleId {roleName : String}
    {Q : Except Exception Int → Database → List Event → Prop}
    (hFailure : ∀ operation code, Q (.error (.rbacRepositoryError operation code)) working [])
    (hMissing : ∀ message, Q (.error (.rbacRoleNotFoundError message)) working [])
    (h : ∀ roleId, working.roleId roleName = some roleId → Q (.ok roleId) working []) :
    (RbacRepository.requireRoleId roleName).Ensures working Q := by
  refine ensures_statement (hFailure _) (fun _ => ?_)
  cases hRole : working.roleId roleName with
  | none => exact hMissing _
  | some roleId => exact h roleId hRole

theorem ensures_insertUserRoleLocked {userId roleId : Int} {assignedBy : Option Int}
    {Q : Except Exception Bool → Database → List Event → Prop}
    (hFailure : ∀ operation code, Q (.error (.rbacRepositoryError operation code)) working [])
    (h : ∀ now, Q (.ok (!working.userRoles.any (fun ur => ur.userId == userId && ur.roleId == roleId)))
      (working.insertUserRole ⟨userId, roleId, assignedBy, now⟩) []) :
    (RbacRepository.insertUserRoleLocked userId roleId assignedBy).Ensures working Q := by
  refine ensures_statement (hFailure _) (fun env => ?_)
  have hInsert := h env.strftimeNow
  cases hHeld : working.userRoles.any (fun ur => ur.userId == userId && ur.roleId == roleId) with
  | true =>
    simp only [Database.insertUserRole, hHeld] at hInsert
    simpa [hHeld] using hInsert
  | false =>
    cases hReferences : RbacRepository.referencesExist working
        ⟨userId, roleId, assignedBy, env.strftimeNow⟩ with
    | false => simpa [hHeld, hReferences] using hFailure _ _
    | true => simpa [hHeld, hReferences] using hInsert

theorem works_assignRoleIn {userId : Int} (hUser : working.userExists userId = true)
    {roleName : String} {assignedBy : Option Int} {K : Bool → Database → List Event → Prop}
    {Y : Exception → Database → List Event → Prop}
    (hFault : ∀ (e : Exception) db events, e.isFault = true → Y e db events)
    (hMissing : ∀ message, Y (.rbacRoleNotFoundError message) working log)
    (h : ∀ roleId now now', working.roleId roleName = some roleId →
      K (!working.userRoles.any (fun ur => ur.userId == userId && ur.roleId == roleId))
        (working.grantRole ⟨userId, roleId, assignedBy, now⟩ roleName now') log) :
    Works (RbacRepository.assignRoleIn userId roleName assignedBy) durable working log K Y := by
  have hStatement : ∀ operation code db events, Y (.rbacRepositoryError operation code) db events :=
    fun _ _ _ _ => hFault _ _ _ rfl
  refine works_perform (Fallible.ensures_bind.mpr (ensures_select (fun _ => hStatement _ _ _ _) ?_))
  simp only [hUser, if_true]
  refine Fallible.ensures_bind.mpr (ensures_requireRoleId (fun _ _ => hStatement _ _ _ _) ?_ ?_)
  · intro message
    simpa using hMissing message
  intro roleId hRole
  refine Fallible.ensures_bind.mpr (ensures_insertUserRoleLocked (fun _ _ => hStatement _ _ _ _) ?_)
  intro now
  have hGrant := fun now' => h roleId now now' hRole
  unfold Database.grantRole at hGrant
  by_cases hName : roleName = "super_admin"
  · simp only [if_pos hName] at hGrant ⊢
    refine Fallible.ensures_bind.mpr (ensures_statement (fun _ => hStatement _ _ _ _) ?_)
    intro env
    exact Fallible.ensures_pure.mpr (by simpa using hGrant env.strftimeNow)
  · simp only [if_neg hName] at hGrant ⊢
    exact Fallible.ensures_pure.mpr (by simpa using hGrant "")

theorem works_revokeRoleIn {userId : Int} {roleName : String}
    {K : Bool → Database → List Event → Prop} {Y : Exception → Database → List Event → Prop}
    (hFault : ∀ (e : Exception) db events, e.isFault = true → Y e db events)
    (hMissing : ∀ message, Y (.rbacRoleNotFoundError message) working log)
    (h : ∀ roleId now, working.roleId roleName = some roleId →
      K (working.userRoles.any (fun ur => ur.userId == userId && ur.roleId == roleId))
        (working.removeRole userId roleId roleName now) log) :
    Works (RbacRepository.revokeRoleIn userId roleName) durable working log K Y := by
  have hStatement : ∀ operation code db events, Y (.rbacRepositoryError operation code) db events :=
    fun _ _ _ _ => hFault _ _ _ rfl
  refine works_perform (Fallible.ensures_bind.mpr
    (ensures_requireRoleId (fun _ _ => hStatement _ _ _ _) ?_ ?_))
  · intro message
    simpa using hMissing message
  intro roleId hRole
  refine Fallible.ensures_bind.mpr (ensures_statement (fun _ => hStatement _ _ _ _) (fun _ => ?_))
  have hRemove := fun now => h roleId now hRole
  unfold Database.removeRole at hRemove
  by_cases hName : roleName = "super_admin"
  · subst hName
    simp only [if_true, true_and] at hRemove ⊢
    refine Fallible.ensures_bind.mpr (ensures_select (fun _ => hStatement _ _ _ _) ?_)
    cases hRemaining : (working.deleteUserRole userId roleId).hasRole userId "super_admin" with
    | true =>
      simp only [hRemaining, Bool.true_eq_false, if_true, if_false] at hRemove ⊢
      exact Fallible.ensures_pure.mpr (by simpa using hRemove "")
    | false =>
      simp only [hRemaining, Bool.false_eq_true, if_true, if_false] at hRemove ⊢
      refine Fallible.ensures_bind.mpr (ensures_statement (fun _ => hStatement _ _ _ _) ?_)
      intro env
      exact Fallible.ensures_pure.mpr (by simpa using hRemove env.strftimeNow)
  · simp only [hName, false_and] at hRemove ⊢
    exact Fallible.ensures_pure.mpr (by simpa using hRemove "")

end roles

end Transaction

end SecureCore
