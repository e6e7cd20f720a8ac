import SecureCore.Repository.TransactionRules
import SecureCore.Service.AccountSecurityService
import SecureCore.Service.SecureAdmin

/-! # How the transactions of the services end

One rule for each transaction, in terms of the database in which it begins. -/

namespace SecureCore

set_option autoImplicit false

open Interleaving Relational Transaction

/-- A row that an INSERT of issue_tokens adds to the sessions of `db`. -/
structure NewSession (db : Database) (userId : Int) (parentSessionId : Option Int)
    (row : AuthSession) : Prop where
  id : row.id = db.authSessions.nextKey
  userId : row.userId = userId
  parent : row.parentSessionId = parentSessionId
  unrevoked : row.revoked = false
  family : row.tokenFamilyId.isEmpty = false
  unused : ∀ s ∈ db.authSessions.rows,
    s.accessTokenHash ≠ row.accessTokenHash ∧ s.refreshTokenHash ≠ row.refreshTokenHash

theorem newSession_sessionRow {db : Database} {input : CreateAuthSession}
    (hDuplicates : db.duplicatesToken input = false) (now : String) :
    NewSession db input.userId input.parentSessionId
      (db.sessionRow input (AuthSessionRepository.familyIdOf input) now) := by
  refine ⟨rfl, rfl, rfl, rfl, ?_, ?_⟩
  · change (AuthSessionRepository.familyIdOf input).isEmpty = false
    unfold AuthSessionRepository.familyIdOf
    cases hEmpty : input.tokenFamilyId.isEmpty with
    | true => simp
    | false => simpa using hEmpty
  · intro s hs
    unfold Database.duplicatesToken at hDuplicates
    rw [List.any_eq_false] at hDuplicates
    have hRow := hDuplicates s hs
    simpa [Database.sessionRow] using hRow

theorem sessionRow_tokenFamilyId {db : Database} {input : CreateAuthSession}
    (hFamily : input.tokenFamilyId.isEmpty = false) (now : String) :
    (db.sessionRow input (AuthSessionRepository.familyIdOf input) now).tokenFamilyId =
      input.tokenFamilyId := by
  change AuthSessionRepository.familyIdOf input = _
  unfold AuthSessionRepository.familyIdOf
  rw [hFamily, if_neg Bool.false_ne_true]

namespace AuthService

variable {service : AuthService} {durable working : Database} {log : List Event}
variable {Z : Exception → Prop}

theorem works_generateToken {sodium : Sodium} {tokenPrefix : String}
    {K : GeneratedToken → Database → List Event → Prop}
    (h : ∀ token, token.hash = TokenService.hashToken sodium token.value → K token working log) :
    Works (TokenService.generateToken sodium tokenPrefix) durable working log K (fun e _ _ => Z e) := by
  refine works_consult (fun env => ?_)
  simpa using h _ rfl

/-- The session holds the hashes and the lifetimes of the tokens. -/
structure SessionOf (service : AuthService) (tokens : AuthTokenPair) (row : AuthSession) : Prop where
  access : row.accessTokenHash = TokenService.hashToken service.sodium tokens.accessToken
  refresh : row.refreshTokenHash = TokenService.hashToken service.sodium tokens.refreshToken
  accessExpiry : row.accessExpiresAt = tokens.accessExpiresAt
  refreshExpiry : row.refreshExpiresAt = tokens.refreshExpiresAt

/-- A returned pair of tokens is that of the session which the call has inserted. -/
def Delivered (service : AuthService) (r : Except Exception LoginResult) (events : List Event) : Prop :=
  ∀ answer, r = .ok answer → ∀ row, .sessionInserted row ∈ events → service.SessionOf answer.tokens row

theorem delivered_error (e : Exception) (events : List Event) :
    service.Delivered (.error e) events := by
  intro answer hAnswer
  cases hAnswer

theorem works_issueAttempt (hFault : ∀ e : Exception, e.isFault = true → Z e)
    {userId currentTime : Int} {tokenFamilyId : String}
    (hFamily : tokenFamilyId.isEmpty = false) {parentSessionId : Option Int}
    {K : Option AuthTokenPair → Database → List Event → Prop} (hDuplicate : K none working log)
    (hIssued : ∀ tokens row, NewSession working userId parentSessionId row →
      row.tokenFamilyId = tokenFamilyId → service.SessionOf tokens row →
      K (some tokens) (working.insertSession row) (log ++ [.sessionInserted row])) :
    Works (service.issueAttempt AuthSessionRepository.createIn userId currentTime tokenFamilyId
      parentSessionId) durable working log K (fun e _ _ => Z e) := by
  refine works_bind (works_generateToken ?_)
  intro access hAccess
  refine works_bind (works_generateToken ?_)
  intro refresh hRefresh
  -- what the handler needs to know about the exception it catches
  apply works_tryCatch
  refine Works.mono (Z := fun e db events =>
    (∃ message, e = .duplicateTokenError message) ∧ db = working ∧ events = log ∨ e.isFault = true)
    (works_bind (works_createIn ?_ ?_ ?_)) (fun _ _ _ h => h) ?_
  · intro e db events hFaulty
    exact .inr hFaulty
  · exact fun message => .inl ⟨⟨message, rfl⟩, rfl, rfl⟩
  · intro now session _ hDuplicates _
    exact works_pure (hIssued _ _ (newSession_sessionRow hDuplicates now)
      (sessionRow_tokenFamilyId hFamily now) ⟨hAccess, hRefresh, rfl, rfl⟩)
  · intro e db events h
    obtain ⟨⟨message, rfl⟩, rfl, rfl⟩ | hFaulty := h
    · exact works_pure hDuplicate
    · cases e with
      | duplicateTokenError message => cases hFaulty
      | _ => exact works_throw (hFault _ hFaulty)

theorem works_issueAttempts (hFault : ∀ e : Exception, e.isFault = true → Z e)
    (hExhausted : Z tokenCreationFailed) {userId currentTime : Int} {tokenFamilyId : String}
    (hFamily : tokenFamilyId.isEmpty = false) {parentSessionId : Option Int}
    {K : AuthTokenPair → Database → List Event → Prop}
    (hIssued : ∀ tokens row, NewSession working userId parentSessionId row →
      row.tokenFamilyId = tokenFamilyId → service.SessionOf tokens row →
      K tokens (working.insertSession row) (log ++ [.sessionInserted row])) (attempts : Nat) :
    Works (service.issueAttempts AuthSessionRepository.createIn userId currentTime tokenFamilyId
      parentSessionId attempts) durable working log K (fun e _ _ => Z e) := by
  induction attempts with
  | zero => exact works_throw hExhausted
  | succ attempts ih =>
    refine works_bind (works_issueAttempt hFault hFamily ih ?_)
    intro tokens row hNew hRow hTokens
    exact works_pure (hIssued tokens row hNew hRow hTokens)

theorem works_issueTokensIn (hFault : ∀ e : Exception, e.isFault = true → Z e)
    (hExhausted : Z tokenCreationFailed) {userId currentTime : Int} {tokenFamilyId : String}
    {parentSessionId : Option Int} {K : AuthTokenPair → Database → List Event → Prop}
    (hIssued : ∀ tokens row, NewSession working userId parentSessionId row →
      (tokenFamilyId.isEmpty = false → row.tokenFamilyId = tokenFamilyId) →
      service.SessionOf tokens row → K tokens (working.insertSession row) (log ++ [.sessionInserted row])) :
    Works (service.issueTokensIn userId currentTime tokenFamilyId parentSessionId) durable working
      log K (fun e _ _ => Z e) := by
  unfold issueTokensIn
  cases hEmpty : tokenFamilyId.isEmpty with
  | true =>
    refine works_bind (works_consult (fun env => ?_))
    simp only [Event.writes_cons, Event.isRead, if_true, Event.writes_nil, List.append_nil]
    have hFamily : ("sc_tf_" ++ env.random).isEmpty = false := by simp
    refine works_issueAttempts hFault hExhausted hFamily (fun tokens row hNew _ hTokens => ?_) 3
    exact hIssued tokens row hNew (fun h => by rw [h] at hEmpty; cases hEmpty) hTokens
  | false =>
    refine works_bind (works_pure ?_)
    refine works_issueAttempts hFault hExhausted hEmpty (fun tokens row hNew hRow hTokens => ?_) 3
    exact hIssued tokens row hNew (fun _ => hRow) hTokens

/-- How the transaction of refresh may end in a COMMIT. -/
inductive RefreshOutcome (db : Database) (tokenHash : String) (now : Int) :
    Except Exception LoginResult → Database → List Event → Prop
  | reusedFamily {session : AuthSession} (revokedAt : String)
      (hFound : db.findSessionByRefreshTokenHash tokenHash = some session)
      (hRevoked : session.revoked = true) (hFamily : session.tokenFamilyId.isEmpty = false) :
      RefreshOutcome db tokenHash now (.error refreshTokenReused)
        (db.revokeSessions (fun s => s.tokenFamilyId == session.tokenFamilyId)
          (fun earlier => earlier.getD revokedAt)) [.committed]
  | reusedUser {session : AuthSession} (revokedAt : String)
      (hFound : db.findSessionByRefreshTokenHash tokenHash = some session)
      (hRevoked : session.revoked = true) (hFamily : session.tokenFamilyId.isEmpty = true) :
      RefreshOutcome db tokenHash now (.error refreshTokenReused)
        (if session.userId ≤ 0 then db
          else db.revokeSessions (fun s => s.userId == session.userId) (fun _ => revokedAt))
        [.committed]
  | refused {session : AuthSession} {e : Exception} (revokedAt : String)
      (hFound : db.findSessionByRefreshTokenHash tokenHash = some session)
      (hUnrevoked : session.revoked = false)
      (hReason : session.refreshExpiresAt ≤ now ∧ e = refreshTokenExpired ∨
        db.findUserById session.userId = none ∧ e = invalidRefreshToken ∨
        (∃ user, db.findUserById session.userId = some user ∧ user.enabled = false) ∧
          e = accountDisabled) :
      RefreshOutcome db tokenHash now (.error e)
        (db.revokeSessions (fun s => s.id == session.id) (fun _ => revokedAt)) [.committed]
  | rotated {session child : AuthSession} {user : User} {tokens : AuthTokenPair}
      (revokedAt : String) (hFound : db.findSessionByRefreshTokenHash tokenHash = some session)
      (hUnrevoked : session.revoked = false) (hUnexpired : now < session.refreshExpiresAt)
      (hUser : db.findUserById session.userId = some user) (hEnabled : user.enabled = true)
      (hNew : NewSession db user.id (some session.id) child)
      (hFamily : session.tokenFamilyId.isEmpty = false →
        child.tokenFamilyId = session.tokenFamilyId) :
      RefreshOutcome db tokenHash now (.ok ⟨user, tokens⟩)
        (db.rotateSession session child revokedAt) [.sessionInserted child, .committed]

/-- The exceptions with which refresh ends when its transaction is rolled back. -/
def RefreshAborted (e : Exception) : Prop := e ≠ refreshTokenReused

theorem refreshAborted_of_isFault (e : Exception) (h : e.isFault = true) : RefreshAborted e := by
  rintro rfl
  cases h

variable {db : Database} {tokenHash : String} {now : Int} {session : AuthSession}

theorem settles_revokeAndThrow (hFault : ∀ e : Exception, e.isFault = true → Z e)
    (hFound : db.findSessionByRefreshTokenHash tokenHash = some session)
    (hUnrevoked : session.revoked = false) {e : Exception}
    (hReason : session.refreshExpiresAt ≤ now ∧ e = refreshTokenExpired ∨
      db.findUserById session.userId = none ∧ e = invalidRefreshToken ∨
      (∃ user, db.findUserById session.userId = some user ∧ user.enabled = false) ∧
        e = accountDisabled) :
    Settles (revokeAndThrow session e) durable db [] Z
      (fun r db' events => RefreshOutcome db tokenHash now r db' events ∧ service.Delivered r events) := by
  have hPositive := Database.session_positive (Table.mem_of_first hFound).1
  refine settles_bind (works_revokeByIdIn hFault hPositive ?_)
  intro revokedAt
  refine settles_commit rfl (fun _ => hFault _ rfl) ?_
  exact ⟨RefreshOutcome.refused revokedAt hFound hUnrevoked hReason, delivered_error _ _⟩

theorem settles_revokeReused (hFault : ∀ e : Exception, e.isFault = true → Z e)
    (hFound : db.findSessionByRefreshTokenHash tokenHash = some session)
    (hRevoked : session.revoked = true) :
    Settles (revokeReused session) durable db [] Z
      (fun r db' events => RefreshOutcome db tokenHash now r db' events ∧ service.Delivered r events) := by
  have hCommit : ∀ code, Z (.databaseError "Committing database transaction" code) :=
    fun _ => hFault _ rfl
  unfold revokeReused
  cases hFamily : session.tokenFamilyId.isEmpty with
  | false =>
    refine settles_bind (works_revokeFamilyIn hFault hFamily ?_)
    intro revokedAt _
    exact settles_commit rfl hCommit
      ⟨RefreshOutcome.reusedFamily revokedAt hFound hRevoked hFamily, delivered_error _ _⟩
  | true =>
    refine settles_bind (works_revokeAllForUserIn hFault ?_ ?_)
    · intro hNonpos
      refine settles_commit rfl hCommit ⟨?_, delivered_error _ _⟩
      have hOutcome : RefreshOutcome db tokenHash now _ _ _ :=
        .reusedUser "" hFound hRevoked hFamily
      rwa [if_pos hNonpos] at hOutcome
    · intro revokedAt hPositive
      refine settles_commit rfl hCommit ⟨?_, delivered_error _ _⟩
      have hOutcome : RefreshOutcome db tokenHash now _ _ _ :=
        .reusedUser revokedAt hFound hRevoked hFamily
      rwa [if_neg (by omega)] at hOutcome

theorem settles_rotate (hFault : ∀ e : Exception, e.isFault = true → Z e) (hExhausted : Z tokenCreationFailed)
    (hFound : db.findSessionByRefreshTokenHash tokenHash = some session)
    (hUnrevoked : session.revoked = false) (hUnexpired : now < session.refreshExpiresAt)
    {user : User} (hUser : db.findUserById session.userId = some user)
    (hEnabled : user.enabled = true) :
    Settles (service.rotate session user now) durable db [] Z
      (fun r db' events => RefreshOutcome db tokenHash now r db' events ∧ service.Delivered r events) := by
  have hMem := (Table.mem_of_first hFound).1
  have hPositive := Database.session_positive hMem
  have hCommit : ∀ code, Z (.databaseError "Committing database transaction" code) :=
    fun _ => hFault _ rfl
  have hCount : 0 < db.countRevocable (fun s => s.id == session.id) :=
    Table.count_pos.mpr ⟨session, hMem, by simp [hUnrevoked]⟩
  refine settles_bind (works_revokeByIdIn hFault hPositive ?_)
  intro revokedAt
  rw [decide_eq_true hCount, if_pos rfl]
  have hIssue : ∀ familyId : String,
      (session.tokenFamilyId.isEmpty = false → familyId = session.tokenFamilyId) →
      Settles (do
        let tokens ← service.issueTokensIn user.id now familyId (some session.id)
        commit
        pure ⟨user, tokens⟩) durable
        (db.revokeSessions (fun s => s.id == session.id) (fun _ => revokedAt)) [] Z
        (fun r db' events => RefreshOutcome db tokenHash now r db' events ∧ service.Delivered r events) := by
    intro familyId hFamilyId
    refine settles_bind (works_issueTokensIn hFault hExhausted ?_)
    intro tokens row hNew hRow hTokens
    have hRowNew : NewSession db user.id (some session.id) row := by
      refine { hNew with unused := ?_ }
      intro s hs
      have hUnused := hNew.unused _ (Database.mem_revokeSessions.mpr ⟨s, hs, rfl⟩)
      simpa using hUnused
    have hDelivered : service.Delivered (.ok ⟨user, tokens⟩) [.sessionInserted row, .committed] := by
      intro answer hAnswer other hOther
      cases hAnswer
      cases hOther with
      | head => exact hTokens
      | tail _ hOther => cases List.mem_singleton.mp hOther
    refine settles_commit rfl hCommit ⟨RefreshOutcome.rotated revokedAt hFound hUnrevoked hUnexpired
      hUser hEnabled hRowNew ?_, hDelivered⟩
    intro hFamily
    have hSame := hFamilyId hFamily
    rw [← hSame] at hFamily ⊢
    exact hRow hFamily
  cases hFamily : session.tokenFamilyId.isEmpty with
  | true =>
    refine settles_bind (works_consult (fun env => ?_))
    exact hIssue _ (fun h => by rw [h] at hFamily; cases hFamily)
  | false => exact settles_bind (works_pure (hIssue _ (fun _ => rfl)))

/-- Before its COMMIT, refresh may throw a fault or one of two exceptions of its own. -/
theorem settles_refreshIn_throwing (hFault : ∀ e : Exception, e.isFault = true → Z e)
    (hExhausted : Z tokenCreationFailed) (hUnknown : Z invalidRefreshToken) :
    Settles (service.refreshIn tokenHash now) durable db [] Z
      (fun r db' events => RefreshOutcome db tokenHash now r db' events ∧ service.Delivered r events) := by
  refine settles_bind (works_findByRefreshTokenHashIn hFault ?_ ?_)
  · exact settles_throw hUnknown
  intro session hFound
  cases hRevoked : session.revoked with
  | true => simpa [hRevoked] using settles_revokeReused hFault hFound hRevoked
  | false =>
    by_cases hExpired : session.refreshExpiresAt ≤ now
    · simp only [hRevoked, hExpired, if_true, Bool.false_eq_true, if_false]
      exact settles_revokeAndThrow hFault hFound hRevoked (Or.inl ⟨hExpired, rfl⟩)
    · simp only [hRevoked, hExpired, Bool.false_eq_true, if_false]
      refine settles_bind (works_findByIdIn hFault ?_)
      cases hUser : db.findUserById session.userId with
      | none => exact settles_revokeAndThrow hFault hFound hRevoked (Or.inr (Or.inl ⟨hUser, rfl⟩))
      | some user =>
        cases hEnabled : user.enabled with
        | true =>
          simp only [hEnabled, if_true]
          exact settles_rotate hFault hExhausted hFound hRevoked (by omega) hUser hEnabled
        | false =>
          simp only [hEnabled, Bool.false_eq_true, if_false]
          exact settles_revokeAndThrow hFault hFound hRevoked
            (Or.inr (Or.inr ⟨⟨user, hUser, hEnabled⟩, rfl⟩))

theorem settles_refreshIn_delivered :
    Settles (service.refreshIn tokenHash now) durable db [] RefreshAborted
      (fun r db' events => RefreshOutcome db tokenHash now r db' events ∧ service.Delivered r events) :=
  settles_refreshIn_throwing refreshAborted_of_isFault (by nofun) (by nofun)

theorem settles_refreshIn :
    Settles (service.refreshIn tokenHash now) durable db [] RefreshAborted
      (RefreshOutcome db tokenHash now) :=
  settles_refreshIn_delivered.mono (fun _ hZ => hZ) (fun _ _ _ hE => hE.1)

end AuthService

namespace AccountSecurityService

theorem settles_changePasswordIn {durable db : Database} {userId sessionId : Int}
    {passwordHash : String} (hUser : 0 < userId) (hSession : 0 < sessionId) :
    Settles (changePasswordIn userId sessionId passwordHash) durable db [] (fun _ => True)
      (fun r db' events => ∃ now revokedAt count, r = .ok ⟨userId, count⟩ ∧
        db' = db.changePassword userId sessionId passwordHash now revokedAt ∧
        events = [.passwordHashUpdated userId passwordHash,
          .otherSessionsRevoked userId sessionId, .committed]) := by
  have hFault : ∀ e : Exception, e.isFault = true → True := fun _ _ => trivial
  refine settles_bind (works_setPasswordHashIn hFault ?_ ?_ ?_)
  · exact settles_bind (works_throwIf (fun _ => trivial) (by simp))
  · intro now _
    refine settles_bind (works_throwIf (by simp) (fun _ => ?_))
    refine settles_bind (works_revokeAllExceptForUserIn hFault hUser hSession ?_)
    intro revokedAt count
    exact settles_commit rfl (fun _ => trivial) ⟨now, revokedAt, count, rfl, rfl, rfl⟩
  · intro now
    exact settles_bind (works_throwIf (fun _ => trivial) (by simp))

end AccountSecurityService

/-! ## Administrators -/

inductive AdminAction where
  | enable
  | disable
  | grant (roleName : String) (assignedBy : Option Int)
  | remove (roleName : String)
  deriving DecidableEq, Repr

/-- What a committed transaction of an administrator makes of the database, with the
guards it has passed. -/
inductive AdminChange (db : Database) (userId : Int) : AdminAction → Database → Prop
  | enabled (now : String) : AdminChange db userId .enable (db.setEnabled userId true now)
  | disabled {user : User} (now revokedAt : String) (hUser : db.findUserById userId = some user)
      (hGuard : db.isLastSuperAdmin user = false) :
      AdminChange db userId .disable (db.disableUser userId now revokedAt)
  | alreadyEnabled {user : User} (hUser : db.findUserById userId = some user)
      (hEnabled : user.enabled = true) : AdminChange db userId .enable db
  | alreadyDisabled {user : User} (hUser : db.findUserById userId = some user)
      (hDisabled : user.enabled = false) : AdminChange db userId .disable db
  | granted {roleName : String} {assignedBy : Option Int} {roleId : Int} (now now' : String)
      (hUser : db.userExists userId = true) (hRole : db.roleId roleName = some roleId) :
      AdminChange db userId (.grant roleName assignedBy)
        (db.grantRole ⟨userId, roleId, assignedBy, now⟩ roleName now')
  | removed {user : User} {roleName : String} {roleId : Int} (now : String)
      (hUser : db.findUserById userId = some user) (hRole : db.roleId roleName = some roleId)
      (hGuard : roleName = "super_admin" → db.isLastSuperAdmin user = false)
      (hBase : roleName ≠ "user") : AdminChange db userId (.remove roleName) (db.removeRole userId roleId roleName now)

/-- The transaction commits exactly one change by this action. -/
def Administers {α : Type} (db : Database) (userId : Int) (action : AdminAction)
    (r : Except Exception α) (db' : Database) (events : List Event) : Prop :=
  (∃ answer, r = .ok answer) ∧ AdminChange db userId action db' ∧ events = [.committed]

/-- The same of a transaction that answers with the user that it leaves. -/
def AdministersUser {α : Type} (db : Database) (userId : Int) (action : AdminAction) (updated : α → User)
    (r : Except Exception α) (db' : Database) (events : List Event) : Prop :=
  (∃ answer, r = .ok answer ∧ db'.findUserById userId = some (updated answer)) ∧
    AdminChange db userId action db' ∧ events = [.committed]

theorem AdministersUser.administers {α : Type} {db db' : Database} {userId : Int} {action : AdminAction}
    {updated : α → User} {r : Except Exception α} {events : List Event}
    (h : AdministersUser db userId action updated r db' events) : Administers db userId action r db' events := by
  obtain ⟨⟨answer, hAnswer, -⟩, hChange, hEvents⟩ := h
  exact ⟨⟨answer, hAnswer⟩, hChange, hEvents⟩

namespace AdminService

variable {durable working : Database} {log : List Event}

theorem anyFault (e : Exception) (_ : e.isFault = true) : True := trivial

theorem works_lastSuperAdmin {user : User} (hUser : user ∈ working.users.rows)
    {K : Bool → Database → List Event → Prop} (h : K (working.isLastSuperAdmin user) working log) :
    Works (lastSuperAdmin user) durable working log K (fun _ _ _ => True) := by
  have hPositive := Database.user_positive hUser
  unfold Database.isLastSuperAdmin at h
  unfold lastSuperAdmin
  cases hEnabled : user.enabled with
  | false => exact works_pure (by simpa [hEnabled] using h)
  | true =>
    refine works_bind (works_hasRoleIn anyFault hPositive (by decide) ?_)
    cases hRole : working.hasRole user.id "super_admin" with
    | false => exact works_pure (by simpa [hEnabled, hRole] using h)
    | true =>
      refine works_bind (works_countEnabledUsersWithRoleIn anyFault ?_)
      exact works_pure (by simpa [hEnabled, hRole] using h)

/-- Every transaction of an administrator ends by reading the user back. -/
theorem settles_readUser {α : Type} {userId : Int} {missing : Exception} {answer : User → α}
    {updated : α → User} (hAnswer : ∀ user, updated (answer user) = user)
    {db : Database} {action : AdminAction} (h : AdminChange db userId action working) :
    Settles (do
      match ← UserRepository.findByIdIn userId with
      | none => throw missing
      | some updated =>
        commit
        pure (answer updated)) durable working [] (fun _ => True) (AdministersUser db userId action updated) := by
  refine settles_bind (works_findByIdIn anyFault ?_)
  cases hFound : working.findUserById userId with
  | none => exact settles_throw trivial
  | some user =>
    refine settles_commit rfl (fun _ => trivial) ⟨⟨_, rfl, ?_⟩, h, rfl⟩
    rw [hAnswer, hFound]

theorem settles_readBack {α : Type} {userId : Int} {missing : Exception} {changed : α}
    {db : Database} {action : AdminAction} (h : AdminChange db userId action working) :
    Settles (do
      match ← UserRepository.findByIdIn userId with
      | none => throw missing
      | some updated =>
        commit
        pure (updated, changed)) durable working [] (fun _ => True) (Administers db userId action) :=
  (settles_readUser (fun _ => rfl) h : Settles _ durable working [] (fun _ => True)
    (AdministersUser db userId action Prod.fst)).mono (fun _ hZ => hZ) (fun _ _ _ hE => hE.administers)

theorem settles_setUserEnabledIn_user {db : Database} {targetUserId : Int} {enabled : Bool} :
    Settles (setUserEnabledIn targetUserId enabled) durable db [] (fun _ => True)
      (AdministersUser db targetUserId (if enabled then .enable else .disable) Prod.fst) := by
  refine settles_bind (works_findByIdIn anyFault ?_)
  cases hTarget : db.findUserById targetUserId with
  | none => exact settles_throw trivial
  | some target =>
    obtain ⟨hMem, hId⟩ := Database.findUserById_eq_some hTarget
    have hPositive : 0 < targetUserId := hId ▸ Database.user_positive hMem
    cases enabled with
    | true =>
      refine settles_bind (works_pure ?_)
      refine settles_bind (works_throwIf (fun _ => trivial) (fun _ => ?_))
      refine settles_bind (works_setEnabledIn anyFault hPositive ?_)
      intro now
      refine settles_bind (works_throwIf (fun _ => trivial) (fun _ => ?_))
      refine settles_bind (works_pure ?_)
      exact settles_readUser (fun _ => rfl) (AdminChange.enabled now)
    | false =>
      refine settles_bind (works_lastSuperAdmin hMem ?_)
      refine settles_bind (works_throwIf (fun _ => trivial) (fun hGuard => ?_))
      refine settles_bind (works_setEnabledIn anyFault hPositive ?_)
      intro now
      refine settles_bind (works_throwIf (fun _ => trivial) (fun _ => ?_))
      refine settles_bind (works_revokeAllForUserIn anyFault (fun _ => by omega) ?_)
      intro revokedAt _
      exact settles_readUser (fun _ => rfl) (AdminChange.disabled now revokedAt hTarget hGuard)

theorem settles_setUserEnabledIn {db : Database} {targetUserId : Int} {enabled : Bool} :
    Settles (setUserEnabledIn targetUserId enabled) durable db [] (fun _ => True)
      (Administers db targetUserId (if enabled then .enable else .disable)) :=
  settles_setUserEnabledIn_user.mono (fun _ hZ => hZ) (fun _ _ _ hE => hE.administers)

def translated : Exception → Exception
  | .rbacRoleNotFoundError _ => roleNotFound
  | error => error

theorem translateRoleNotFound_eq {α : Type} (body : Tx α) :
    translateRoleNotFound body = tryCatch body (fun error => throw (translated error)) := by
  unfold translateRoleNotFound
  congr 1
  funext error
  cases error <;> rfl

theorem works_translateRoleNotFound {α : Type} {body : Tx α} {K : α → Database → List Event → Prop}
    (h : Works body durable working log K (fun _ _ _ => True)) :
    Works (translateRoleNotFound body) durable working log K (fun _ _ _ => True) := by
  rw [translateRoleNotFound_eq]
  exact works_tryCatch (Works.mono h (fun _ _ _ h => h) (fun _ _ _ _ => works_throw trivial))

theorem settles_assignRoleIn {db : Database} {targetUserId : Int} {roleName : String}
    {assignedBy : Int} :
    Settles (assignRoleIn targetUserId roleName assignedBy) durable db [] (fun _ => True)
      (Administers db targetUserId (.grant roleName (some assignedBy))) := by
  refine settles_bind (works_findByIdIn anyFault ?_)
  cases hTarget : db.findUserById targetUserId with
  | none => exact settles_throw trivial
  | some target =>
    have hUser : db.userExists targetUserId = true := by simp [Database.userExists, hTarget]
    refine settles_bind (works_translateRoleNotFound
      (works_assignRoleIn hUser (fun _ _ _ _ => trivial) (fun _ => trivial) ?_))
    intro roleId now now' hRole
    exact settles_readBack (AdminChange.granted now now' hUser hRole)

theorem settles_revokeRoleIn {db : Database} {targetUserId : Int} {roleName : String}
    (hBase : roleName ≠ "user") :
    Settles (revokeRoleIn targetUserId roleName) durable db [] (fun _ => True)
      (Administers db targetUserId (.remove roleName)) := by
  refine settles_bind (works_findByIdIn anyFault ?_)
  cases hTarget : db.findUserById targetUserId with
  | none => exact settles_throw trivial
  | some target =>
    obtain ⟨hMem, hId⟩ := Database.findUserById_eq_some hTarget
    have hRemove : (roleName = "super_admin" → db.isLastSuperAdmin target = false) →
        Settles (do
          let changed ← RbacRepository.revokeRoleIn targetUserId roleName
          match ← UserRepository.findByIdIn targetUserId with
          | none => throw userNotFound
          | some updated =>
            commit
            pure (updated, changed)) durable db [] (fun _ => True)
          (Administers db targetUserId (.remove roleName)) := by
      intro hGuard
      refine settles_bind (works_revokeRoleIn (fun _ _ _ _ => trivial) (fun _ => trivial) ?_)
      intro roleId now hRole
      exact settles_readBack (AdminChange.removed now hTarget hRole hGuard hBase)
    simp only [translateRoleNotFound_eq]
    refine settles_tryCatch (Settles.mono (E := Administers db targetUserId (.remove roleName)) ?_
      (fun _ h => h) (fun _ _ _ h => ⟨_, h.1.choose_spec, h⟩))
    by_cases hName : roleName = "super_admin"
    · simp only [if_pos hName]
      refine settles_bind (works_lastSuperAdmin hMem ?_)
      refine settles_bind (works_throwIf (fun _ => trivial) (fun hGuard => ?_))
      exact hRemove (fun _ => hGuard)
    · simp only [if_neg hName]
      refine settles_bind (works_pure ?_)
      refine settles_bind (works_throwIf (fun _ => trivial) (fun _ => ?_))
      exact hRemove (fun h => absurd h hName)

end AdminService

namespace SecureAdmin

open AdminService

variable {durable db : Database} {user : User}

/-- The action of a command; listing roles is none. -/
def Command.action : Command → Option AdminAction
  | .promote => some (.grant "super_admin" none)
  | .demote => some (.remove "super_admin")
  | .assignRole roleName => some (.grant roleName none)
  | .revokeRole roleName => some (.remove roleName)
  | .enable => some .enable
  | .disable => some .disable
  | .listRoles => none

theorem works_assign (hUser : db.findUserById user.id = some user) {roleName : String} :
    Works (assign user roleName) durable db []
      (fun _ db' events => AdminChange db user.id (.grant roleName none) db' ∧ events = [])
      (fun _ _ _ => True) := by
  have hExists : db.userExists user.id = true := by simp [Database.userExists, hUser]
  refine works_bind (works_assignRoleIn hExists (fun _ _ _ _ => trivial) (fun _ => trivial) ?_)
  intro roleId now now' hRole
  exact works_pure ⟨AdminChange.granted now now' hExists hRole, rfl⟩

theorem works_revoke (hUser : db.findUserById user.id = some user) {roleName : String} :
    Works (revoke user roleName) durable db []
      (fun _ db' events => AdminChange db user.id (.remove roleName) db' ∧ events = [])
      (fun _ _ _ => True) := by
  have hMem := (Database.findUserById_eq_some hUser).1
  refine works_bind (works_throwIf (fun _ => trivial) (fun hNotBase => ?_))
  have hBase : roleName ≠ "user" := by simpa using hNotBase
  have hRemove : (roleName = "super_admin" → db.isLastSuperAdmin user = false) →
      Works (do
        let changed ← RbacRepository.revokeRoleIn user.id roleName
        pure (changed, 0)) durable db []
        (fun _ db' events => AdminChange db user.id (.remove roleName) db' ∧ events = [])
        (fun _ _ _ => True) := by
    intro hGuard
    refine works_bind (works_revokeRoleIn (fun _ _ _ _ => trivial) (fun _ => trivial) ?_)
    intro roleId now hRole
    exact works_pure ⟨AdminChange.removed now hUser hRole hGuard hBase, rfl⟩
  by_cases hName : roleName = "super_admin"
  · simp only [if_pos hName]
    refine works_bind (works_lastSuperAdmin hMem ?_)
    refine works_bind (works_throwIf (fun _ => trivial) (fun hGuard => ?_))
    exact hRemove (fun _ => hGuard)
  · simp only [if_neg hName]
    refine works_bind (works_pure ?_)
    refine works_bind (works_throwIf (fun _ => trivial) (fun _ => ?_))
    exact hRemove (fun h => absurd h hName)

theorem works_enable (hUser : db.findUserById user.id = some user) :
    Works (enable user) durable db []
      (fun _ db' events => AdminChange db user.id .enable db' ∧ events = [])
      (fun _ _ _ => True) := by
  have hPositive := Database.user_positive (Database.findUserById_eq_some hUser).1
  unfold enable
  cases hEnabled : user.enabled with
  | true => exact works_pure ⟨AdminChange.alreadyEnabled hUser hEnabled, rfl⟩
  | false =>
    refine works_bind (works_setEnabledIn anyFault hPositive ?_)
    intro now
    exact works_pure ⟨AdminChange.enabled now, rfl⟩

theorem works_disable (hUser : db.findUserById user.id = some user) :
    Works (disable user) durable db []
      (fun _ db' events => AdminChange db user.id .disable db' ∧ events = [])
      (fun _ _ _ => True) := by
  have hMem := (Database.findUserById_eq_some hUser).1
  have hPositive := Database.user_positive hMem
  have hExists : db.userExists user.id = true := by simp [Database.userExists, hUser]
  unfold disable
  cases hEnabled : user.enabled with
  | false => exact works_pure ⟨AdminChange.alreadyDisabled hUser hEnabled, rfl⟩
  | true =>
    refine works_bind (works_lastSuperAdmin hMem ?_)
    refine works_bind (works_throwIf (fun _ => trivial) (fun hGuard => ?_))
    refine works_bind (works_setEnabledIn anyFault hPositive ?_)
    intro now
    rw [hExists, if_pos rfl]
    refine works_bind (works_revokeAllForUserIn anyFault (fun _ => by omega) ?_)
    intro revokedAt _
    exact works_pure ⟨AdminChange.disabled now revokedAt hUser hGuard, rfl⟩

theorem settles_mainIn {command : Command} {action : AdminAction}
    (hAction : command.action = some action) {userId : Int} :
    Settles (mainIn command userId) durable db [] (fun _ => True)
      (Administers db userId action) := by
  refine settles_bind (works_findByIdIn anyFault ?_)
  cases hUser : db.findUserById userId with
  | none => exact settles_throw trivial
  | some user =>
    obtain ⟨-, rfl⟩ := Database.findUserById_eq_some hUser
    have hPerform : Works (perform command user) durable db []
        (fun _ db' events => AdminChange db user.id action db' ∧ events = [])
        (fun _ _ _ => True) := by
      cases command with
      | listRoles => cases hAction
      | promote => cases hAction; exact works_assign hUser
      | assignRole roleName => cases hAction; exact works_assign hUser
      | demote => cases hAction; exact works_revoke hUser
      | revokeRole roleName => cases hAction; exact works_revoke hUser
      | enable => cases hAction; exact works_enable hUser
      | disable => cases hAction; exact works_disable hUser
    refine settles_bind (Works.mono hPerform ?_ (fun _ _ _ h => h))
    rintro answer db' events ⟨hChange, rfl⟩
    exact settles_readBack hChange

end SecureAdmin

end SecureCore
