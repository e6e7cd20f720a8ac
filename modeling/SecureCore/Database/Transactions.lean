import SecureCore.Database.ConnectionPool
import SecureCore.Relational.Autocommit

/-! # DatabaseTransaction

An SQL text comes with the statements that SQLite finds in it and with how each of them
ends. Threads that wait for a connection are left out here: an acquisition is its end. -/

set_option autoImplicit false

namespace SecureCore

open Relational

inductive TransactionMode where
  | deferred
  | immediate
  | exclusive
  deriving DecidableEq, Repr

def beginStatement : TransactionMode → String
  | .deferred => "BEGIN DEFERRED;"
  | .immediate => "BEGIN IMMEDIATE;"
  | .exclusive => "BEGIN EXCLUSIVE;"

/-- The operator bool of a lease. -/
def DatabaseConnectionLease.valid (lease : DatabaseConnectionLease) : Bool :=
  lease.database && lease.handle.isSome

/-- The database pointer is set or null. -/
structure DatabaseTransaction where
  database : Bool
  connection : DatabaseConnectionLease
  active : Bool
  deriving DecidableEq, Repr

def makeDatabaseError (operation : String) (code : Int) (message : String) : Exception :=
  .runtimeError (operation ++ " failed with SQLite code " ++ toString code ++ ": " ++ message)

/-- SQLite's part of a call, with the exception that the call throws. -/
abbrev SqlResult := Store × List StoreAction × Option Exception

def executeSql (store : Store) (handle : Nat) (sql operation : String)
    (statements : List (Statement × Outcome)) : Option SqlResult :=
  if sql.isEmpty then some (store, [], some (.invalidArgument "SQL statement must not be empty"))
  else match Store.exec handle statements store with
    | none => none
    | some (store, log, failure) =>
      some (store, log, failure.map (fun (code, message) => makeDatabaseError operation code message))

/-- How SQLite answers a query, whose statement runs up to its first row. -/
inductive QueryAnswer where
  | unprepared (code : Int) (message : String)
  /-- The first column of the row, unless it is missing or null. -/
  | row (value : Option Int)
  /-- SQLITE_DONE. -/
  | noRow (message : String)
  | failed (code : Int) (message : String) (ended : Bool)
  deriving DecidableEq, Repr

namespace QueryAnswer

/-- The statements that this answer lets run. -/
def statements (statement : Statement) : QueryAnswer → List (Statement × Outcome)
  | .unprepared _ _ => []
  | .row _ => [(statement, .done)]
  | .noRow _ => [(statement, .done)]
  | .failed code message ended => [(statement, .failed code message ended)]

def result : QueryAnswer → Except Exception Int
  | .unprepared code message => .error (makeDatabaseError "Preparing transactional query" code message)
  | .row (some value) => .ok value
  | .row none => .error (.runtimeError "Transactional query returned no integer value")
  | .noRow message => .error (makeDatabaseError "Reading transactional query" 101 message)
  | .failed code message _ => .error (makeDatabaseError "Reading transactional query" code message)

end QueryAnswer

namespace DatabaseTransaction

variable (transaction : DatabaseTransaction)

def getHandle : Except Exception Nat :=
  if !transaction.active || !transaction.database || !transaction.connection.valid then
    .error (.logicError "Database transaction is not active")
  else transaction.connection.getHandle

/-- What a move leaves behind. -/
def moved : DatabaseTransaction :=
  { transaction with database := false, connection := transaction.connection.moved, active := false }

end DatabaseTransaction

/-! ## Transactions of one database -/

/-- A pool, SQLite behind its connections, and the transaction objects in the order of
their construction, as long as they are not destroyed. -/
structure Transactions where
  pool : DatabasePool
  store : Store
  objects : List (Option DatabaseTransaction) := []
  deriving DecidableEq, Repr

inductive TransactionEvent where
  | begun (mode : TransactionMode) (outcome : Outcome)
  | executed (object : Nat) (sql : String) (statements : List (Statement × Outcome))
  | queried (object : Nat) (sql : String) (statement : Statement) (answer : QueryAnswer)
  | committed (object : Nat) (outcome : Outcome)
  | rolledBack (object : Nat) (outcome : Outcome)
  | moveConstructed (source : Nat)
  /-- The outcome is that of a ROLLBACK, if one is needed. -/
  | moveAssigned (target source : Nat) (outcome : Outcome)
  | destroyed (object : Nat) (outcome : Outcome)
  deriving DecidableEq, Repr

inductive TransactionAction where
  | acquired (index : Nat)
  | released (index : Nat)
  | sql (action : StoreAction)
  | returned (value : Int)
  | threw (exception : Exception)
  deriving DecidableEq, Repr

namespace Transactions

/-- A database that has just been opened. -/
def opened (pool : DatabasePool) : Transactions :=
  { pool := pool, store := { connections := List.replicate pool.poolSize none } }

variable (s : Transactions)

def objectAt (object : Nat) : Option DatabaseTransaction := (s.objects[object]?).join

def setObject (object : Nat) (value : Option DatabaseTransaction) : Transactions :=
  { s with objects := s.objects.set object value }

/-- The indices that transactions hold. -/
def held : List Nat := s.objects.filterMap (fun object => object.bind (fun transaction => transaction.connection.held))

/-- Release of the lease of a transaction. -/
def release (transaction : DatabaseTransaction) : DatabaseTransaction × Transactions × List TransactionAction :=
  let (connection, pool, index) := s.pool.release transaction.connection
  ({ transaction with connection := connection }, { s with pool := pool }, index.toList.map .released)

/-- An SQL call whose exception, if any, goes to the caller. -/
def execute (handle : Nat) (sql operation : String) (statements : List (Statement × Outcome)) :
    Option (Transactions × List TransactionAction) :=
  match executeSql s.store handle sql operation statements with
  | none => none
  | some (store, log, exception) =>
    some ({ s with store := store }, log.map .sql ++ exception.toList.map .threw)

/-- The constructor. -/
def begin (mode : TransactionMode) (outcome : Outcome) : Option (Transactions × List TransactionAction) :=
  match s.pool.take with
  | (.error exception, pool) => some ({ s with pool := pool }, [.threw exception])
  | (.ok connection, pool) =>
    let constructed : DatabaseTransaction := ⟨true, connection, false⟩
    match connection.getHandle with
    | .error exception =>
      let (_, s, released) := ({ s with pool := pool } : Transactions).release constructed
      some (s, .acquired connection.index :: released ++ [.threw exception])
    | .ok handle =>
      match executeSql s.store handle (beginStatement mode) "Beginning database transaction"
          [(.begin, outcome)] with
      | none => none
      | some (store, log, none) =>
        some ({ pool := pool, store := store, objects := s.objects ++ [some { constructed with active := true }] },
          .acquired connection.index :: log.map .sql)
      -- the destructor of the member gives the connection back
      | some (store, log, some exception) =>
        let (_, s, released) := ({ s with pool := pool, store := store } : Transactions).release constructed
        some (s, .acquired connection.index :: log.map .sql ++ released ++ [.threw exception])

/-- The part that commit and rollback have in common. -/
def conclude (object : Nat) (transaction : DatabaseTransaction) (sql operation : String) (statement : Statement)
    (outcome : Outcome) : Option (Transactions × List TransactionAction) :=
  match transaction.getHandle with
  | .error exception => some (s, [.threw exception])
  | .ok handle =>
    match executeSql s.store handle sql operation [(statement, outcome)] with
    | none => none
    | some (store, log, some exception) => some ({ s with store := store }, log.map .sql ++ [.threw exception])
    | some (store, log, none) =>
      let (transaction, s, released) :=
        ({ s with store := store } : Transactions).release { transaction with active := false }
      some (s.setObject object (some transaction), log.map .sql ++ released)

/-- An exception of the ROLLBACK is dropped. -/
def finishNoexcept (transaction : DatabaseTransaction) (outcome : Outcome) :
    Option (DatabaseTransaction × Transactions × List TransactionAction) :=
  match transaction.getHandle with
  | .error _ => some (transaction, s, [])
  | .ok handle =>
    match executeSql s.store handle "ROLLBACK;" "Finishing database transaction" [(.rollback, outcome)] with
    | none => none
    | some (store, log, _) =>
      let (transaction, s, released) :=
        ({ s with store := store } : Transactions).release { transaction with active := false }
      some (transaction, s, log.map .sql ++ released)

def step : TransactionEvent → Option (Transactions × List TransactionAction)
  | .begun mode outcome => s.begin mode outcome
  | .executed object sql statements =>
    match s.objectAt object with
    | none => none
    | some transaction =>
      match transaction.getHandle with
      | .error exception => some (s, [.threw exception])
      | .ok handle => s.execute handle sql "Executing transactional SQL" statements
  | .queried object sql statement answer =>
    match s.objectAt object with
    | none => none
    | some transaction =>
      if sql.isEmpty then some (s, [.threw (.invalidArgument "SQL query must not be empty")])
      else match transaction.getHandle with
        | .error exception => some (s, [.threw exception])
        | .ok handle =>
          match Store.exec handle (answer.statements statement) s.store with
          | none => none
          | some (store, log, _) =>
            some ({ s with store := store }, log.map .sql ++ [match answer.result with
              | .ok value => .returned value
              | .error exception => .threw exception])
  | .committed object outcome =>
    match s.objectAt object with
    | none => none
    | some transaction =>
      s.conclude object transaction "COMMIT;" "Committing database transaction" .commit outcome
  | .rolledBack object outcome =>
    match s.objectAt object with
    | none => none
    | some transaction =>
      s.conclude object transaction "ROLLBACK;" "Rolling back database transaction" .rollback outcome
  | .moveConstructed source =>
    match s.objectAt source with
    | none => none
    | some transaction =>
      let emptied := s.setObject source (some transaction.moved)
      some ({ emptied with objects := emptied.objects ++ [some transaction] }, [])
  | .moveAssigned target source outcome =>
    match s.objectAt target, s.objectAt source with
    | some old, some transaction =>
      if target = source then some (s, [])
      else match s.finishNoexcept old outcome with
        | none => none
        | some (old, s, actions) =>
          -- the assignment of the lease releases what the target holds
          let (_, s, released) := s.release old
          some ((s.setObject target (some transaction)).setObject source (some transaction.moved),
            actions ++ released)
    | _, _ => none
  | .destroyed object outcome =>
    match s.objectAt object with
    | none => none
    | some transaction =>
      match s.finishNoexcept transaction outcome with
      | none => none
      | some (transaction, s, actions) =>
        -- the destructor of the lease
        let (_, s, released) := s.release transaction
        some (s.setObject object none, actions ++ released)

end Transactions

end SecureCore
