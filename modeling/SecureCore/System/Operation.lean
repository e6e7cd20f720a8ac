import SecureCore.Interleaving.Pool
import SecureCore.Service.AccountSecurityService
import SecureCore.Service.SecureAdmin
import SecureCore.Service.UserService

/-! # The operations of a deployment

Server processes and command line tools share one database file. A pool of calls
gives every thread one operation. -/

namespace SecureCore

set_option autoImplicit false

open Interleaving

/-- The services of every server process, all linked to one libsodium. -/
structure Deployment where
  sodium : Sodium
  service : Nat → AuthService
  shared : ∀ process, (service process).sodium = sodium

inductive Operation where
  | registerUser (username email password : String)
  | login (process : Nat) (login password clientIp : String)
  | refresh (process : Nat) (refreshToken : String)
  | authenticate (process : Nat) (accessToken : String)
  | logout (process : Nat) (accessToken : String)
  | logoutAll (process : Nat) (accessToken : String)
  | revokeSession (process : Nat) (accessToken : String) (sessionId : Int)
  | changePassword (process : Nat) (accessToken currentPassword newPassword : String)
  | setUserEnabled (process : Nat) (accessToken : String) (targetUserId : Int) (enabled : Bool)
  | assignRole (process : Nat) (accessToken : String) (targetUserId : Int) (roleName : String)
  | revokeRole (process : Nat) (accessToken : String) (targetUserId : Int) (roleName : String)
  | secureAdmin (command : SecureAdmin.Command) (identifier : String)
  | deleteExpired (currentTime : Int)
  deriving DecidableEq

namespace Deployment

variable (d : Deployment)

/-- A call of an operation; its answer stays with the caller. -/
def call : Operation → Call Unit
  | .registerUser username email password => discard (UserService.registerUser d.sodium username email password)
  | .login process login password clientIp => discard ((d.service process).login login password clientIp)
  | .refresh process refreshToken => discard ((d.service process).refresh refreshToken)
  | .authenticate process accessToken => discard ((d.service process).authenticateAccessToken accessToken)
  | .logout process accessToken => discard ((d.service process).logoutAccessToken accessToken)
  | .logoutAll process accessToken => discard ((d.service process).logoutAllAccessToken accessToken)
  | .revokeSession process accessToken sessionId =>
    discard (AccountSecurityService.revokeSession (d.service process) accessToken sessionId)
  | .changePassword process accessToken currentPassword newPassword =>
    discard (AccountSecurityService.changePassword (d.service process) accessToken currentPassword newPassword)
  | .setUserEnabled process accessToken targetUserId enabled =>
    discard (AdminService.setUserEnabled (d.service process) accessToken targetUserId enabled)
  | .assignRole process accessToken targetUserId roleName =>
    discard (AdminService.assignRole (d.service process) accessToken targetUserId roleName)
  | .revokeRole process accessToken targetUserId roleName =>
    discard (AdminService.revokeRole (d.service process) accessToken targetUserId roleName)
  | .secureAdmin command identifier => discard (SecureAdmin.main command identifier)
  | .deleteExpired currentTime => discard (AuthSessionRepository.deleteExpired currentTime)

/-- All threads before their first access. -/
def pool {τ : Type} (calls : τ → Operation) (world : World) :
    Pool τ (Nat → Surroundings) World Event (Except Exception Unit) :=
  Pool.start (fun t => (d.call (calls t)).run) world

end Deployment

end SecureCore
