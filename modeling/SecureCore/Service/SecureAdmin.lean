import SecureCore.Repository.AuthSessionRepository
import SecureCore.Service.AdminService

/-! # The secure-admin command line tool

`main` from the point where the configuration is loaded and the database migrated.
The audit event after the COMMIT goes to a table outside this model. -/

namespace SecureCore.SecureAdmin

set_option autoImplicit false

open Interleaving

inductive Command where
  | promote
  | demote
  | assignRole (roleName : String)
  | revokeRole (roleName : String)
  | enable
  | disable
  | listRoles
  deriving DecidableEq, Repr

structure Report where
  user : User
  roles : List Role
  revokedSessions : Nat
  changed : Bool
  deriving DecidableEq, Repr

def userWasNotFound (identifier : String) : Exception :=
  .runtimeError ("User was not found: " ++ identifier)

def userDisappeared : Exception := .runtimeError "User disappeared during operation"

def cannotRemoveBaseRole : Exception := .runtimeError "The base user role cannot be removed"

def refusingToRemove : Exception :=
  .runtimeError "Refusing to remove the last enabled super administrator"

def refusingToDisable : Exception :=
  .runtimeError "Refusing to disable the last enabled super administrator"

def updatedUserNotRead : Exception := .runtimeError "Updated user could not be read back"

def revoke (user : User) (roleName : String) : Tx (Bool × Nat) := do
  Fallible.throwIf (roleName == "user") cannotRemoveBaseRole
  let last ← if roleName = "super_admin" then AdminService.lastSuperAdmin user else pure false
  Fallible.throwIf last refusingToRemove
  let changed ← RbacRepository.revokeRoleIn user.id roleName
  pure (changed, 0)

def assign (user : User) (roleName : String) : Tx (Bool × Nat) := do
  let changed ← RbacRepository.assignRoleIn user.id roleName none
  pure (changed, 0)

def disable (user : User) : Tx (Bool × Nat) := do
  if user.enabled then
    let last ← AdminService.lastSuperAdmin user
    Fallible.throwIf last refusingToDisable
    let changed ← UserRepository.setEnabledIn user.id false
    let revokedSessions ← if changed then AuthSessionRepository.revokeAllForUserIn user.id
      else pure 0
    pure (changed, revokedSessions)
  else pure (false, 0)

def enable (user : User) : Tx (Bool × Nat) := do
  if user.enabled then pure (false, 0)
  else
    let changed ← UserRepository.setEnabledIn user.id true
    pure (changed, 0)

/-- What a command does inside the transaction, as (changed, revoked sessions). -/
def perform (command : Command) (user : User) : Tx (Bool × Nat) :=
  match command with
  | .promote => assign user "super_admin"
  | .demote => revoke user "super_admin"
  | .assignRole roleName => assign user roleName
  | .revokeRole roleName => revoke user roleName
  | .enable => enable user
  | .disable => disable user
  | .listRoles => pure (false, 0)

def mainIn (command : Command) (userId : Int) : Tx (User × Bool × Nat) := do
  match ← UserRepository.findByIdIn userId with
  | none => throw userDisappeared
  | some user =>
    let (changed, revokedSessions) ← perform command user
    match ← UserRepository.findByIdIn user.id with
    | none => throw updatedUserNotRead
    | some updated =>
      Transaction.commit
      pure (updated, changed, revokedSessions)

def main (command : Command) (identifier : String) : Call Report := do
  match ← UserRepository.findByLogin identifier with
  | none => throw (userWasNotFound identifier)
  | some found =>
    if command = .listRoles then
      let roles ← RbacRepository.rolesForUser found.id
      pure ⟨found, roles, 0, false⟩
    else
      let (updated, changed, revokedSessions) ← Database.transaction (mainIn command found.id)
      let roles ← RbacRepository.rolesForUser found.id
      pure ⟨updated, roles, revokedSessions, changed⟩

end SecureCore.SecureAdmin
