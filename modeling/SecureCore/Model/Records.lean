import Mathlib.Data.Int.Notation
import SecureCore.Relational.Table

/-! # Records and exceptions of the services -/

namespace SecureCore

set_option autoImplicit false

open Relational

structure User where
  id : Int
  username : String
  email : String
  passwordHash : String
  role : String
  enabled : Bool
  createdAt : String
  updatedAt : String
  deriving DecidableEq, Repr

instance : Keyed User := ⟨User.id, fun n u => { u with id := n }, fun _ _ => rfl⟩

structure CreateUser where
  username : String
  email : String
  passwordHash : String
  role : String
  deriving DecidableEq, Repr

structure AuthSession where
  id : Int
  userId : Int
  accessTokenHash : String
  refreshTokenHash : String
  accessExpiresAt : Int
  refreshExpiresAt : Int
  revoked : Bool
  createdAt : String
  revokedAt : Option String
  tokenFamilyId : String
  parentSessionId : Option Int
  deriving DecidableEq, Repr

instance : Keyed AuthSession := ⟨AuthSession.id, fun n s => { s with id := n }, fun _ _ => rfl⟩

structure CreateAuthSession where
  userId : Int
  accessTokenHash : String
  refreshTokenHash : String
  accessExpiresAt : Int
  refreshExpiresAt : Int
  tokenFamilyId : String
  parentSessionId : Option Int
  deriving DecidableEq, Repr

structure Permission where
  id : Int
  name : String
  description : String
  deriving DecidableEq, Repr

instance : Keyed Permission := ⟨Permission.id, fun n p => { p with id := n }, fun _ _ => rfl⟩

structure Role where
  id : Int
  name : String
  description : String
  builtIn : Bool
  permissions : List Permission
  deriving DecidableEq, Repr

inductive AuthErrorCode where
  | invalidCredentials
  | loginThrottled
  | accountDisabled
  | invalidAccessToken
  | accessTokenExpired
  | invalidRefreshToken
  | refreshTokenExpired
  | refreshTokenReused
  | tokenCreationFailed
  deriving DecidableEq, Repr

inductive AccountSecurityErrorCode where
  | sessionNotFound
  | invalidCurrentPassword
  | weakNewPassword
  | samePassword
  deriving DecidableEq, Repr

inductive AdminErrorCode where
  | forbidden
  | invalidPagination
  | userNotFound
  | cannotDisableSelf
  | cannotRemoveLastSuperAdmin
  | cannotRemoveBaseRole
  | roleNotFound
  deriving DecidableEq, Repr

inductive RegistrationErrorCode where
  | invalidUsername
  | invalidEmail
  | weakPassword
  | duplicateUser
  deriving DecidableEq, Repr

/-- Everything the modelled calls throw. The repository errors carry the operation
of their message and the SQLite result code. -/
inductive Exception where
  | authError (code : AuthErrorCode) (message : String) (retryAfterSeconds : Nat)
  | accountSecurityError (code : AccountSecurityErrorCode) (message : String)
  | adminError (code : AdminErrorCode) (message : String)
  | registrationError (code : RegistrationErrorCode) (message : String)
  | duplicateUserError (message : String)
  | duplicateTokenError (message : String)
  | rbacRoleNotFoundError (message : String)
  | userRepositoryError (operation : String) (code : Int)
  | authSessionRepositoryError (operation : String) (code : Int)
  | rbacRepositoryError (operation : String) (code : Int)
  | databasePoolTimeoutError (message : String)
  | databaseError (operation : String) (code : Int)
  | runtimeError (message : String)
  | invalidArgument (message : String)
  | logicError (message : String)
  deriving DecidableEq, Repr

end SecureCore
