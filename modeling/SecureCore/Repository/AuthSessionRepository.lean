import SecureCore.Database.Access

/-! # AuthSessionRepository -/

namespace SecureCore.AuthSessionRepository

set_option autoImplicit false

open Interleaving

def findByIdLocked (sessionId : Int) : Sql (Option AuthSession) :=
  Sql.select (.authSessionRepositoryError "Reading auth session")
    (fun db => db.findSessionById sessionId) (fun row => [.sessionSelected row])

def valid (input : CreateAuthSession) : Bool :=
  !(decide (input.userId ≤ 0) || input.accessTokenHash.isEmpty || input.refreshTokenHash.isEmpty ||
    decide (input.accessExpiresAt ≤ 0) || decide (input.refreshExpiresAt ≤ input.accessExpiresAt))

def familyIdOf (input : CreateAuthSession) : String :=
  if input.tokenFamilyId.isEmpty then
    "legacy-single-" ++ String.ofList (input.accessTokenHash.toList.take 24)
  else input.tokenFamilyId

/-- INSERT INTO auth_sessions: the UNIQUE constraints, then the foreign key. -/
def insertLocked (input : CreateAuthSession) : Sql Int :=
  Sql.statement (.authSessionRepositoryError "Creating auth session") (fun env db =>
    if db.duplicatesToken input then
      ⟨.error (.duplicateTokenError "Authentication token hash already exists"), db, []⟩
    else if db.userExists input.userId then
      let row := db.sessionRow input (familyIdOf input) env.strftimeNow
      ⟨.ok row.id, db.insertSession row, [.sessionInserted row]⟩
    else ⟨.error (.authSessionRepositoryError "Creating auth session" 787), db, []⟩)

def createLocked (input : CreateAuthSession) : Sql AuthSession := do
  let sessionId ← insertLocked input
  match ← findByIdLocked sessionId with
  | none => throw (.runtimeError "Created auth session could not be read back")
  | some session => pure session

def create (input : CreateAuthSession) : Call AuthSession := do
  Fallible.throwIf (!valid input) (.invalidArgument "Invalid authentication session")
  Database.withLockedHandle (createLocked input)

def createIn (input : CreateAuthSession) : Tx AuthSession := do
  Fallible.throwIf (!valid input) (.invalidArgument "Invalid authentication session")
  Transaction.perform (createLocked input)

def findByAccessTokenHash (tokenHash : String) : Call (Option AuthSession) :=
  if tokenHash.isEmpty then pure none
  else Database.withLockedHandle (Sql.select (.authSessionRepositoryError "Reading auth session")
    (fun db => db.findSessionByAccessTokenHash tokenHash) (fun row => [.sessionSelected row]))

def findByRefreshTokenHashIn (tokenHash : String) : Tx (Option AuthSession) :=
  if tokenHash.isEmpty then pure none
  else Transaction.perform (Sql.select (.authSessionRepositoryError "Reading auth session")
    (fun db => db.findSessionByRefreshTokenHash tokenHash) (fun row => [.sessionSelected row]))

def findByIdForUser (sessionId userId : Int) : Call (Option AuthSession) :=
  if sessionId ≤ 0 || userId ≤ 0 then pure none
  else Database.withLockedHandle (Sql.select (.authSessionRepositoryError "Reading auth session")
    (fun db => db.authSessions.first (fun s => s.id == sessionId && s.userId == userId))
    (fun row => [.sessionSelected row]))

def listActiveForUser (userId currentTime : Int) : Call (List AuthSession) :=
  if userId ≤ 0 then pure []
  else Database.withLockedHandle (Sql.select (.authSessionRepositoryError "Listing user sessions")
    (fun db => db.listActiveSessions userId currentTime) (fun _ => []))

/-- The shape of every UPDATE that revokes sessions; it answers how many it touched. -/
def revokeLocked (operation : String) (condition : AuthSession → Bool)
    (revokedAt : String → Option String → String) (events : List Event) : Sql Nat :=
  Sql.statement (.authSessionRepositoryError operation) (fun env db =>
    ⟨.ok (db.countRevocable condition), db.revokeSessions condition (revokedAt env.strftimeNow),
      events⟩)

def revokeAllExceptForUserLocked (userId excludedSessionId : Int) : Sql Nat :=
  revokeLocked "Revoking other user sessions"
    (fun s => s.userId == userId && s.id != excludedSessionId) (fun now _ => now)
    [.otherSessionsRevoked userId excludedSessionId]

def revokeByIdLocked (sessionId : Int) : Sql Nat :=
  revokeLocked "Revoking auth session" (fun s => s.id == sessionId) (fun now _ => now) []

def revokeAllForUserLocked (userId : Int) : Sql Nat :=
  revokeLocked "Revoking user sessions" (fun s => s.userId == userId) (fun now _ => now) []

/-- The only revocation that keeps an earlier revoked_at. -/
def revokeFamilyLocked (tokenFamilyId : String) : Sql Nat :=
  revokeLocked "Revoking token family" (fun s => s.tokenFamilyId == tokenFamilyId)
    (fun now earlier => earlier.getD now) []

def revokeByIdForUserLocked (sessionId userId : Int) : Sql Nat :=
  revokeLocked "Revoking user session" (fun s => s.id == sessionId && s.userId == userId)
    (fun now _ => now) []

def revokeById (sessionId : Int) : Call Bool :=
  if sessionId ≤ 0 then pure false
  else do
    let changes ← Database.withLockedHandle (revokeByIdLocked sessionId)
    pure (0 < changes)

def revokeByIdIn (sessionId : Int) : Tx Bool :=
  if sessionId ≤ 0 then pure false
  else do
    let changes ← Transaction.perform (revokeByIdLocked sessionId)
    pure (0 < changes)

def revokeByIdForUser (sessionId userId : Int) : Call Bool :=
  if sessionId ≤ 0 || userId ≤ 0 then pure false
  else do
    let changes ← Database.withLockedHandle (revokeByIdForUserLocked sessionId userId)
    pure (0 < changes)

def revokeAllExceptForUserIn (userId excludedSessionId : Int) : Tx Nat :=
  if userId ≤ 0 || excludedSessionId ≤ 0 then pure 0
  else Transaction.perform (revokeAllExceptForUserLocked userId excludedSessionId)

def revokeAllForUser (userId : Int) : Call Nat :=
  if userId ≤ 0 then pure 0 else Database.withLockedHandle (revokeAllForUserLocked userId)

def revokeAllForUserIn (userId : Int) : Tx Nat :=
  if userId ≤ 0 then pure 0 else Transaction.perform (revokeAllForUserLocked userId)

def revokeFamilyIn (tokenFamilyId : String) : Tx Nat :=
  if tokenFamilyId.isEmpty then pure 0 else Transaction.perform (revokeFamilyLocked tokenFamilyId)

def deleteExpired (currentTime : Int) : Call Nat :=
  Database.withLockedHandle (Sql.statement (.authSessionRepositoryError "Deleting expired sessions")
    (fun _ db => ⟨.ok (db.authSessions.count (fun s => decide (s.refreshExpiresAt ≤ currentTime))),
      db.deleteExpiredSessions currentTime, []⟩))

end SecureCore.AuthSessionRepository
