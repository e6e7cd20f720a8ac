import SecureCore.Service.AuthService

/-! # AccountSecurityService -/

namespace SecureCore

set_option autoImplicit false

open Interleaving

structure CurrentAuthentication where
  user : User
  session : AuthSession
  deriving DecidableEq, Repr

structure SessionListResult where
  sessions : List AuthSession
  currentSessionId : Int
  deriving DecidableEq, Repr

structure SessionRevokeResult where
  userId : Int
  revoked : Bool
  deriving DecidableEq, Repr

structure PasswordChangeResult where
  userId : Int
  revokedSessions : Nat
  deriving DecidableEq, Repr

namespace AccountSecurityService

variable (service : AuthService)

def sessionNotFound : Exception :=
  .accountSecurityError .sessionNotFound "Authentication session does not exist"

def invalidCurrentPassword : Exception :=
  .accountSecurityError .invalidCurrentPassword "Current password is invalid"

def weakNewPassword : Exception :=
  .accountSecurityError .weakNewPassword "New password must contain between 8 and 128 bytes"

def samePassword : Exception :=
  .accountSecurityError .samePassword "New password must differ from the current password"

def validNewPassword (password : String) : Bool :=
  decide (8 ≤ password.length) && decide (password.length ≤ 128)

def authenticateCurrentSession (accessToken : String) : Call CurrentAuthentication := do
  let user ← service.authenticateAccessToken accessToken
  match ← AuthSessionRepository.findByAccessTokenHash
      (TokenService.hashToken service.sodium accessToken) with
  | none => throw AuthService.invalidAccessToken
  | some session =>
    Fallible.throwIf (session.revoked || session.userId != user.id) AuthService.invalidAccessToken
    pure ⟨user, session⟩

def listSessions (accessToken : String) : Call SessionListResult := do
  let current ← authenticateCurrentSession service accessToken
  let now ← currentUnixTime
  let sessions ← AuthSessionRepository.listActiveForUser current.user.id now
  pure ⟨sessions, current.session.id⟩

def revokeSession (accessToken : String) (sessionId : Int) : Call SessionRevokeResult := do
  let current ← authenticateCurrentSession service accessToken
  match ← AuthSessionRepository.findByIdForUser sessionId current.user.id with
  | none => throw sessionNotFound
  | some target =>
    let revoked ← if target.revoked then pure false
      else AuthSessionRepository.revokeByIdForUser sessionId current.user.id
    pure ⟨current.user.id, revoked⟩

def changePasswordIn (userId sessionId : Int) (newPasswordHash : String) :
    Tx PasswordChangeResult := do
  let updated ← UserRepository.setPasswordHashIn userId newPasswordHash
  Fallible.throwIf (!updated) (.runtimeError "Failed to update password")
  let revokedSessions ← AuthSessionRepository.revokeAllExceptForUserIn userId sessionId
  Transaction.commit
  pure ⟨userId, revokedSessions⟩

def changePassword (accessToken currentPassword newPassword : String) :
    Call PasswordChangeResult := do
  let current ← authenticateCurrentSession service accessToken
  Fallible.throwIf currentPassword.isEmpty invalidCurrentPassword
  let currentValid ← PasswordHasher.verify service.sodium currentPassword current.user.passwordHash
  Fallible.throwIf (!currentValid) invalidCurrentPassword
  Fallible.throwIf (!validNewPassword newPassword) weakNewPassword
  let same ← PasswordHasher.verify service.sodium newPassword current.user.passwordHash
  Fallible.throwIf same samePassword
  let newPasswordHash ← PasswordHasher.hash service.sodium newPassword
  Database.transaction (changePasswordIn current.user.id current.session.id newPasswordHash)

end AccountSecurityService

end SecureCore
