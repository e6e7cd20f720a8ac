import SecureCore.Interleaving.Fallible
import SecureCore.Database.Tables
import SecureCore.Security.AuthAbuseProtector

/-! # Statements, connections and transactions

A statement outside a transaction is one atomic access, and so is a transaction from
BEGIN IMMEDIATE to its COMMIT or rollback: SQLite serialises writers. Acquiring a
connection, BEGIN, COMMIT and every statement may fail where the surroundings say so. -/

namespace SecureCore

set_option autoImplicit false

open Interleaving

/-- What the surroundings decide at one access. -/
structure Surroundings where
  /-- The SQLite code with which the access fails, if it does. -/
  failure : Option Int
  strftimeNow : String
  systemClock : Int
  steadyClock : Int
  random : String
  accountOrder : List String
  ipOrder : List String
  deriving DecidableEq, Repr

/-- What an access lets an observer see: rows read, password checks, writes. -/
inductive Event where
  | userSelected (row : Option User)
  | sessionSelected (row : Option AuthSession)
  | permissionChecked (userId : Int) (permission : String) (granted : Bool)
  | passwordChecked (encodedHash : String) (valid : Bool)
  | familyGenerated (familyId : String)
  | passwordHashUpdated (userId : Int) (passwordHash : String)
  | sessionInserted (row : AuthSession)
  | otherSessionsRevoked (userId excludedSessionId : Int)
  | committed
  deriving DecidableEq, Repr

namespace Event

/-- Events that change no row. -/
@[simp] def isRead : Event → Bool
  | userSelected _ | sessionSelected _ | permissionChecked _ _ _ | passwordChecked _ _
  | familyGenerated _ => true
  | passwordHashUpdated _ _ | sessionInserted _ | otherSessionsRevoked _ _ | committed => false

end Event

/-! ## Statements -/

abbrev Sql := Fallible Surroundings Database Event Exception

namespace Sql

/-- A statement that fails with `error` where the surroundings say so. A failed
statement changes nothing. -/
def statement {α : Type} (error : Int → Exception)
    (body : Surroundings → Database → Reply Exception Database Event α) : Sql α :=
  Fallible.atomic (fun env db => match env.failure with
    | some code => ⟨.error (error code), db, []⟩
    | none => body env db)

def select {α : Type} (error : Int → Exception) (query : Database → α)
    (events : α → List Event) : Sql α :=
  statement error (fun _ db => ⟨.ok (query db), db, events (query db)⟩)

end Sql

/-! ## The shared state of all processes -/

/-- The database file and the memory of every server process. -/
structure World where
  database : Database
  protectors : Nat → AuthAbuseProtector

/-- An access of a call may run a whole transaction, so it gets one
`Surroundings` for every access inside it. -/
abbrev Call := Fallible (Nat → Surroundings) World Event Exception

namespace World

def withDatabase (db : Database) (world : World) : World := { world with database := db }

@[simp] theorem withDatabase_database (db : Database) (world : World) :
    (world.withDatabase db).database = db := rfl

end World

/-- Inputs from which one access reads its own surroundings. -/
class HasSurroundings (ι : Type) where
  surroundings : ι → Surroundings

instance : HasSurroundings Surroundings := ⟨id⟩

instance : HasSurroundings (Nat → Surroundings) := ⟨fun inputs => inputs 0⟩

/-- A step of the program itself that touches no shared state. -/
def consult {ι σ α : Type} [HasSurroundings ι]
    (body : Surroundings → Except Exception α × List Event) :
    Fallible ι σ Event Exception α :=
  Fallible.atomic (fun i s =>
    let (result, events) := body (HasSurroundings.surroundings i)
    ⟨result, s, events⟩)

def currentUnixTime {ι σ : Type} [HasSurroundings ι] : Fallible ι σ Event Exception Int :=
  consult (fun env => (.ok env.systemClock, []))

/-! ## Connections -/

namespace Database

def acquireConnection : Call Unit :=
  consult (fun env => match env.failure with
    | some _ => (.error (.databasePoolTimeoutError "Timed out waiting for a database connection"), [])
    | none => (.ok (), []))

/-- Each statement on its own is one atomic access. -/
def autocommit {α : Type} (body : Sql α) : Call α :=
  Fallible.zoom World.database World.withDatabase (fun inputs => inputs 0) body

def withLockedHandle {α : Type} (body : Sql α) : Call α := do
  acquireConnection
  autocommit body

end Database

/-! ## Transactions -/

inductive TransactionStatus where
  | idle
  | active
  | committed
  deriving DecidableEq, Repr

/-- A connection in a transaction: what others see and what it sees itself. -/
structure Transaction where
  durable : Database
  working : Database
  status : TransactionStatus

abbrev Tx := Fallible Surroundings Transaction Event Exception

namespace Transaction

def fresh (db : Database) : Transaction := ⟨db, db, .idle⟩

def withWorking (db : Database) (t : Transaction) : Transaction := { t with working := db }

def begin : Tx Unit :=
  Fallible.atomic (fun env t => match env.failure with
    | some code => ⟨.error (.databaseError "Beginning database transaction" code), t, []⟩
    | none => ⟨.ok (), { t with working := t.durable, status := .active }, []⟩)

/-- `handle()`: throws unless the transaction is active. -/
def handle : Tx Unit :=
  Fallible.atomic (fun _ t =>
    if t.status = .active then ⟨.ok (), t, []⟩
    else ⟨.error (.logicError "Database transaction is not active"), t, []⟩)

def perform {α : Type} (body : Sql α) : Tx α := do
  handle
  Fallible.zoom Transaction.working withWorking id body

def commit : Tx Unit := do
  handle
  Fallible.atomic (fun env t => match env.failure with
    | some code => ⟨.error (.databaseError "Committing database transaction" code), t, []⟩
    | none => ⟨.ok (), { t with durable := t.working, status := .committed }, [.committed]⟩)

/-- The whole life of a transaction object on its connection. Unless it has been
committed its destructor rolls back, so only a committed one leaves a trace. -/
def execute {α : Type} (body : Tx α) (inputs : Nat → Surroundings) (db : Database) :
    Reply Exception Database Event α :=
  let ran := Process.run (do begin; body : Tx α).run inputs (fresh db)
  ⟨ran.result, ran.state.durable, if ran.state.status = .committed then ran.events else []⟩

end Transaction

/-- `begin_transaction()` and the scope of the object it returns. -/
def Database.transaction {α : Type} (body : Tx α) : Call α := do
  acquireConnection
  Fallible.atomic (fun inputs world =>
    let reply := Transaction.execute body inputs world.database
    ⟨reply.result, world.withDatabase reply.state, reply.events⟩)

/-! ## Server memory -/

/-- A call under the mutex of the protector of one server process. -/
def withProtector {α : Type} (process : Nat)
    (body : Surroundings → AuthAbuseProtector → α × AuthAbuseProtector) : Call α :=
  Fallible.atomic (fun inputs world =>
    let (result, protector) := body (inputs 0) (world.protectors process)
    ⟨.ok result, { world with protectors := Function.update world.protectors process protector }, []⟩)

end SecureCore
