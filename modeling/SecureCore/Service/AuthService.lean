import SecureCore.Repository.AuthSessionRepository
import SecureCore.Repository.UserRepository
import SecureCore.Security.Crypto

/-! # AuthService -/

namespace SecureCore

set_option autoImplicit false

open Interleaving

/-- The constructor refuses the lifetimes that the two proofs exclude. -/
structure AuthService where
  sodium : Sodium
  /-- The server process whose AuthAbuseProtector this service shares. -/
  process : Nat
  dummyPasswordHash : String
  accessTokenLifetimeSeconds : Int
  refreshTokenLifetimeSeconds : Int
  accessPositive : 0 < accessTokenLifetimeSeconds
  refreshLonger : accessTokenLifetimeSeconds < refreshTokenLifetimeSeconds

structure AuthTokenPair where
  accessToken : String
  refreshToken : String
  accessExpiresAt : Int
  refreshExpiresAt : Int
  deriving DecidableEq, Repr

structure LoginResult where
  user : User
  tokens : AuthTokenPair
  deriving DecidableEq, Repr

structure LogoutResult where
  userId : Option Int
  revoked : Bool
  deriving DecidableEq, Repr

structure LogoutAllResult where
  userId : Int
  revokedSessions : Nat
  deriving DecidableEq, Repr

namespace AuthService

variable (service : AuthService)

def invalidCredentials : Exception :=
  .authError .invalidCredentials "Invalid login or password" 0

def loginThrottled (retryAfterSeconds : Nat) : Exception :=
  .authError .loginThrottled "Too many failed login attempts" retryAfterSeconds

def accountDisabled : Exception := .authError .accountDisabled "User account is disabled" 0

def invalidAccessToken : Exception := .authError .invalidAccessToken "Access token is invalid" 0

def accessTokenExpired : Exception := .authError .accessTokenExpired "Access token has expired" 0

def invalidRefreshToken : Exception :=
  .authError .invalidRefreshToken "Refresh token is invalid" 0

def refreshTokenExpired : Exception :=
  .authError .refreshTokenExpired "Refresh token has expired" 0

def refreshTokenReused : Exception :=
  .authError .refreshTokenReused "Refresh token reuse was detected" 0

def tokenCreationFailed : Exception :=
  .authError .tokenCreationFailed "Could not create authentication tokens" 0

/-- One round of the retry loop of both issue_tokens; `create` runs the INSERT.
`none` stands for the caught DuplicateTokenError. -/
def issueAttempt {ι σ : Type} [HasSurroundings ι]
    (create : CreateAuthSession → Fallible ι σ Event Exception AuthSession)
    (userId currentTime : Int) (tokenFamilyId : String) (parentSessionId : Option Int) :
    Fallible ι σ Event Exception (Option AuthTokenPair) := do
  let access ← TokenService.generateAccessToken service.sodium
  let refresh ← TokenService.generateRefreshToken service.sodium
  let accessExpiresAt := currentTime + service.accessTokenLifetimeSeconds
  let refreshExpiresAt := currentTime + service.refreshTokenLifetimeSeconds
  tryCatch (do
    let _ ← create ⟨userId, access.hash, refresh.hash, accessExpiresAt, refreshExpiresAt,
      tokenFamilyId, parentSessionId⟩
    pure (some ⟨access.value, refresh.value, accessExpiresAt, refreshExpiresAt⟩))
    (fun error => match error with
      | .duplicateTokenError _ => pure none
      | _ => throw error)

def issueAttempts {ι σ : Type} [HasSurroundings ι]
    (create : CreateAuthSession → Fallible ι σ Event Exception AuthSession)
    (userId currentTime : Int) (tokenFamilyId : String) (parentSessionId : Option Int) :
    Nat → Fallible ι σ Event Exception AuthTokenPair
  | 0 => throw tokenCreationFailed
  | attempts + 1 => do
    match ← service.issueAttempt create userId currentTime tokenFamilyId parentSessionId with
    | some tokens => pure tokens
    | none => issueAttempts create userId currentTime tokenFamilyId parentSessionId attempts

def issueTokens (userId currentTime : Int) : Call AuthTokenPair := do
  let tokenFamilyId ← TokenService.generateTokenFamilyId
  service.issueAttempts AuthSessionRepository.create userId currentTime tokenFamilyId none 3

def issueTokensIn (userId currentTime : Int) (tokenFamilyId : String)
    (parentSessionId : Option Int) : Tx AuthTokenPair := do
  let tokenFamilyId ←
    if tokenFamilyId.isEmpty then TokenService.generateTokenFamilyId else pure tokenFamilyId
  service.issueAttempts AuthSessionRepository.createIn userId currentTime tokenFamilyId
    parentSessionId 3

/-- The part of login after the password has been found right. -/
def openSession (user : User) (login password : String) : Call LoginResult := do
  Fallible.throwIf (!user.enabled) accountDisabled
  if ← PasswordHasher.needsRehash service.sodium user.passwordHash then
    let upgradedHash ← PasswordHasher.hash service.sodium password
    let updated ← UserRepository.setPasswordHash user.id upgradedHash
    Fallible.throwIf (!updated) (.runtimeError "Failed to upgrade password hash")
  withProtector service.process (fun _ protector => ((), protector.recordSuccess login))
  let now ← currentUnixTime
  let tokens ← service.issueTokens user.id now
  pure ⟨user, tokens⟩

/-- The part of login after the password has been found wrong. -/
def rejectLogin (login clientIp : String) : Call LoginResult := do
  let afterFailure ← withProtector service.process (fun env protector =>
    protector.recordFailure login clientIp env.accountOrder env.ipOrder env.steadyClock)
  Fallible.throwIf (!afterFailure.allowed) (loginThrottled afterFailure.retryAfterSeconds)
  throw invalidCredentials

def login (login password clientIp : String) : Call LoginResult := do
  let login := trimCopy login
  let clientIp := trimCopy clientIp
  let clientIp := if clientIp.isEmpty then "<unknown>" else clientIp
  Fallible.throwIf (login.isEmpty || password.isEmpty) invalidCredentials
  let beforeAttempt ← withProtector service.process (fun env protector =>
    protector.check login clientIp env.steadyClock)
  Fallible.throwIf (!beforeAttempt.allowed) (loginThrottled beforeAttempt.retryAfterSeconds)
  let user ← UserRepository.findByLogin login
  let passwordHash := match user with
    | some user => user.passwordHash
    | none => service.dummyPasswordHash
  let passwordValid ← PasswordHasher.verify service.sodium password passwordHash
  match user, passwordValid with
  | some user, true => service.openSession user login password
  | _, _ => service.rejectLogin login clientIp

/-- refresh from the point where the presented session has been found unrevoked,
unexpired and its user enabled. -/
def rotate (session : AuthSession) (user : User) (now : Int) : Tx LoginResult := do
  if ← AuthSessionRepository.revokeByIdIn session.id then
    let familyId ← if session.tokenFamilyId.isEmpty then TokenService.generateTokenFamilyId
      else pure session.tokenFamilyId
    let tokens ← service.issueTokensIn user.id now familyId (some session.id)
    Transaction.commit
    pure ⟨user, tokens⟩
  else
    let _ ← AuthSessionRepository.revokeFamilyIn session.tokenFamilyId
    Transaction.commit
    throw refreshTokenReused

/-- Several exits of refresh: revoke the presented session, commit, throw. -/
def revokeAndThrow (session : AuthSession) (error : Exception) : Tx LoginResult := do
  let _ ← AuthSessionRepository.revokeByIdIn session.id
  Transaction.commit
  throw error

/-- A revoked token was presented: the whole family, or for a session without one
every session of the user, is revoked. -/
def revokeReused (session : AuthSession) : Tx LoginResult := do
  if session.tokenFamilyId.isEmpty then
    let _ ← AuthSessionRepository.revokeAllForUserIn session.userId
  else
    let _ ← AuthSessionRepository.revokeFamilyIn session.tokenFamilyId
  Transaction.commit
  throw refreshTokenReused

def refreshIn (tokenHash : String) (now : Int) : Tx LoginResult := do
  match ← AuthSessionRepository.findByRefreshTokenHashIn tokenHash with
  | none => throw invalidRefreshToken
  | some session =>
    if session.revoked then revokeReused session
    else if session.refreshExpiresAt ≤ now then revokeAndThrow session refreshTokenExpired
    else match ← UserRepository.findByIdIn session.userId with
      | none => revokeAndThrow session invalidRefreshToken
      | some user =>
        if user.enabled then service.rotate session user now
        else revokeAndThrow session accountDisabled

def refresh (refreshToken : String) : Call LoginResult := do
  Fallible.throwIf refreshToken.isEmpty invalidRefreshToken
  let now ← currentUnixTime
  Database.transaction
    (service.refreshIn (TokenService.hashToken service.sodium refreshToken) now)

def authenticateAccessToken (accessToken : String) : Call User := do
  Fallible.throwIf accessToken.isEmpty invalidAccessToken
  let tokenHash := TokenService.hashToken service.sodium accessToken
  match ← AuthSessionRepository.findByAccessTokenHash tokenHash with
  | none => throw invalidAccessToken
  | some session =>
    Fallible.throwIf session.revoked invalidAccessToken
    let now ← currentUnixTime
    Fallible.throwIf (session.accessExpiresAt ≤ now) accessTokenExpired
    match ← UserRepository.findById session.userId with
    | none => throw invalidAccessToken
    | some user =>
      Fallible.throwIf (!user.enabled) accountDisabled
      pure user

def logoutAccessToken (accessToken : String) : Call LogoutResult :=
  if accessToken.isEmpty then pure ⟨none, false⟩
  else do
    let tokenHash := TokenService.hashToken service.sodium accessToken
    match ← AuthSessionRepository.findByAccessTokenHash tokenHash with
    | none => pure ⟨none, false⟩
    | some session =>
      if session.revoked then pure ⟨none, false⟩
      else do
        let revoked ← AuthSessionRepository.revokeById session.id
        pure ⟨some session.userId, revoked⟩

def logoutAllAccessToken (accessToken : String) : Call LogoutAllResult := do
  let user ← service.authenticateAccessToken accessToken
  let revokedSessions ← AuthSessionRepository.revokeAllForUser user.id
  pure ⟨user.id, revokedSessions⟩

end AuthService

end SecureCore
