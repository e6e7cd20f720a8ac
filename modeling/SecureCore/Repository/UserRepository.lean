import SecureCore.Database.Access

/-! # UserRepository

`In` marks the overload that runs inside a transaction. -/

namespace SecureCore.UserRepository

set_option autoImplicit false

open Interleaving

def findByIdLocked (userId : Int) : Sql (Option User) :=
  Sql.select (.userRepositoryError "Reading user query") (fun db => db.findUserById userId)
    (fun row => [.userSelected row])

def findById (userId : Int) : Call (Option User) :=
  if userId ≤ 0 then pure none else Database.withLockedHandle (findByIdLocked userId)

def findByIdIn (userId : Int) : Tx (Option User) :=
  if userId ≤ 0 then pure none else Transaction.perform (findByIdLocked userId)

def findByLogin (login : String) : Call (Option User) :=
  Database.withLockedHandle (Sql.select (.userRepositoryError "Reading user query")
    (fun db => db.findUserByLogin login) (fun row => [.userSelected row]))

def list (limit offset : Int) : Call (List User) := do
  Fallible.throwIf (decide (limit ≤ 0) || decide (100 < limit))
    (.invalidArgument "User list limit must be between 1 and 100")
  Fallible.throwIf (decide (offset < 0)) (.invalidArgument "User list offset must not be negative")
  Database.withLockedHandle (Sql.select (.userRepositoryError "Listing users")
    (fun db => db.listUsers limit offset) (fun _ => []))

def count : Call Nat :=
  Database.withLockedHandle (Sql.select (.databaseError "Reading SQL query result")
    (fun db => db.users.rows.length) (fun _ => []))

def setPasswordHashLocked (userId : Int) (passwordHash : String) : Sql Bool :=
  Sql.statement (.userRepositoryError "Updating user password") (fun env db =>
    ⟨.ok (db.userExists userId), db.setPasswordHash userId passwordHash env.strftimeNow,
      if db.userExists userId then [.passwordHashUpdated userId passwordHash] else []⟩)

def setPasswordHash (userId : Int) (passwordHash : String) : Call Bool :=
  if userId ≤ 0 || passwordHash.isEmpty then pure false
  else Database.withLockedHandle (setPasswordHashLocked userId passwordHash)

def setPasswordHashIn (userId : Int) (passwordHash : String) : Tx Bool :=
  if userId ≤ 0 || passwordHash.isEmpty then pure false
  else Transaction.perform (setPasswordHashLocked userId passwordHash)

def setEnabledLocked (userId : Int) (enabled : Bool) : Sql Bool :=
  Sql.statement (.userRepositoryError "Updating user status") (fun env db =>
    ⟨.ok (db.userExists userId), db.setEnabled userId enabled env.strftimeNow, []⟩)

def setEnabledIn (userId : Int) (enabled : Bool) : Tx Bool :=
  if userId ≤ 0 then pure false else Transaction.perform (setEnabledLocked userId enabled)

/-- INSERT and the SELECT that reads the row back. -/
def createLocked (input : CreateUser) : Sql User := do
  let userId ← Sql.statement (.userRepositoryError "Creating user") (fun env db =>
    if db.duplicatesUser input then
      ⟨.error (.duplicateUserError "Username or email already exists"), db, []⟩
    else ⟨.ok db.users.nextKey, db.insertUser input env.strftimeNow, []⟩)
  match ← findByIdLocked userId with
  | none => throw (.runtimeError "Created user could not be read back")
  | some user => pure user

def create (input : CreateUser) : Call User := do
  Fallible.throwIf
    (input.username.isEmpty || input.email.isEmpty || input.passwordHash.isEmpty)
    (.invalidArgument "User fields must not be empty")
  Fallible.throwIf (input.role != "user" && input.role != "admin")
    (.invalidArgument "User role must be user or admin")
  Database.withLockedHandle (createLocked input)

end SecureCore.UserRepository
