import SecureCore.Database.PoolPartition
import SecureCore.Database.Transactions

/-! # Leases and SQL of transactions

Every active transaction holds the lease of one connection, and a connection without a
holder has no transaction open. -/

set_option autoImplicit false

namespace SecureCore

open Relational Transition

/-! ## Logs -/

namespace TransactionAction

def sqlLog (log : List TransactionAction) : List StoreAction :=
  log.filterMap (fun
    | .sql action => some action
    | _ => none)

def acquisitions (log : List TransactionAction) : List Nat :=
  log.filterMap (fun
    | .acquired index => some index
    | _ => none)

def releases (log : List TransactionAction) : List Nat :=
  log.filterMap (fun
    | .released index => some index
    | _ => none)

variable (log later : List TransactionAction)

@[simp] theorem sqlLog_append : sqlLog (log ++ later) = sqlLog log ++ sqlLog later := List.filterMap_append

@[simp] theorem acquisitions_append : acquisitions (log ++ later) = acquisitions log ++ acquisitions later :=
  List.filterMap_append

@[simp] theorem releases_append : releases (log ++ later) = releases log ++ releases later := List.filterMap_append

@[simp] theorem sqlLog_sql (actions : List StoreAction) : sqlLog (actions.map .sql) = actions := by
  induction actions with
  | nil => rfl
  | cons action actions ih => exact congrArg (action :: ·) ih

@[simp] theorem acquisitions_sql (actions : List StoreAction) : acquisitions (actions.map .sql) = [] := by
  induction actions with
  | nil => rfl
  | cons action actions ih => exact ih

@[simp] theorem releases_sql (actions : List StoreAction) : releases (actions.map .sql) = [] := by
  induction actions with
  | nil => rfl
  | cons action actions ih => exact ih

@[simp] theorem sqlLog_released (index : Option Nat) : sqlLog (index.toList.map .released) = [] := by
  cases index <;> rfl

@[simp] theorem acquisitions_released (index : Option Nat) :
    acquisitions (index.toList.map .released) = [] := by
  cases index <;> rfl

@[simp] theorem releases_released (index : Option Nat) :
    releases (index.toList.map .released) = index.toList := by
  cases index <;> rfl

/-- The actions that only the caller sees. -/
def toCaller : TransactionAction → Prop
  | .returned _ => True
  | .threw _ => True
  | _ => False

theorem sqlLog_toCaller {actions : List TransactionAction} (h : ∀ action ∈ actions, action.toCaller) :
    sqlLog actions = [] ∧ acquisitions actions = [] ∧ releases actions = [] := by
  simp only [sqlLog, acquisitions, releases, List.filterMap_eq_nil_iff]
  refine ⟨?_, ?_, ?_⟩ <;> intro action hAction <;> have hOwn := h action hAction <;> cases action <;>
    first | rfl | cases hOwn

theorem threw_toCaller (exception : Exception) :
    ∀ action ∈ [TransactionAction.threw exception], action.toCaller := by
  intro action hAction
  cases List.mem_singleton.mp hAction
  trivial

end TransactionAction

open TransactionAction

/-! ## The invariant -/

namespace Transactions

variable {s s' : Transactions} {poolSize : Nat} {log actions : List TransactionAction}

theorem objectAt_eq {object : Nat} {transaction : DatabaseTransaction} :
    s.objectAt object = some transaction ↔ s.objects[object]? = some (some transaction) :=
  Option.join_eq_some_iff

/-- The leases of the transactions as users of the pool. -/
def users (s : Transactions) : PoolUsers :=
  { pool := s.pool, leases := s.objects.map (Option.map DatabaseTransaction.connection) }

theorem users_held : s.users.held = s.held := by
  rw [users, PoolUsers.held, List.filterMap_map, held]
  congr 1
  funext object
  cases object <;> rfl

/-- The flag of a transaction tells whether it holds a lease. -/
structure Paired (transaction : DatabaseTransaction) : Prop where
  lease : transaction.active = transaction.connection.database
  database : transaction.active = true → transaction.database = true

structure Books (poolSize : Nat) (log : List TransactionAction) (s : Transactions) : Prop where
  pool : ∃ granted timedOut, PoolBooks poolSize granted timedOut s.users
  paired : ∀ transaction, some transaction ∈ s.objects → Paired transaction
  store : s.store.Logged (sqlLog log)
  size : s.store.connections.length = poolSize
  idle : ∀ index ∈ s.pool.availableIndices, s.store.connections[index]? = some none
  ledger : (acquisitions log).Perm (releases log ++ s.held)

namespace Books

theorem partition (h : Books poolSize log s) : (s.pool.availableIndices ++ s.held).Perm (List.range poolSize) := by
  obtain ⟨granted, timedOut, hPool⟩ := h.pool
  rw [← users_held]
  exact hPool.partition rfl

/-- A held index is not free. -/
theorem busy (h : Books poolSize log s) {index : Nat} (hHeld : index ∈ s.held) :
    index ∉ s.pool.availableIndices := by
  have hNodup := h.partition.nodup_iff.mpr List.nodup_range
  intro hFree
  exact (List.nodup_append.mp hNodup).2.2 index hFree index hHeld rfl

theorem handle (h : Books poolSize log s) {transaction : DatabaseTransaction}
    (hObject : some transaction ∈ s.objects) (hActive : transaction.connection.database = true) :
    transaction.connection.handle = some transaction.connection.index := by
  obtain ⟨granted, timedOut, hPool⟩ := h.pool
  apply hPool.handle _ _ hActive
  exact List.mem_map.mpr ⟨some transaction, hObject, rfl⟩

theorem held_of_active {transaction : DatabaseTransaction} (hObject : some transaction ∈ s.objects)
    (hActive : transaction.connection.database = true) : transaction.connection.index ∈ s.held := by
  apply List.mem_filterMap.mpr
  refine ⟨some transaction, hObject, ?_⟩
  simp [DatabaseConnectionLease.held, hActive]

/-- A transaction is active, holds a lease and has a handle, or none of these. -/
theorem cases (h : Books poolSize log s) {transaction : DatabaseTransaction}
    (hObject : some transaction ∈ s.objects) :
    (transaction.active = true ∧ transaction.database = true ∧ transaction.connection.database = true ∧
        transaction.connection.handle = some transaction.connection.index ∧
        transaction.getHandle = .ok transaction.connection.index) ∨
      transaction.active = false ∧ transaction.connection.database = false ∧
        transaction.getHandle = .error (.logicError "Database transaction is not active") := by
  have hPaired := h.paired transaction hObject
  cases hActive : transaction.active with
  | true =>
    have hDatabase := hPaired.database hActive
    have hLease := hPaired.lease.symm.trans hActive
    have hHandle := h.handle hObject hLease
    refine .inl ⟨rfl, hDatabase, hLease, hHandle, ?_⟩
    simp [DatabaseTransaction.getHandle, DatabaseConnectionLease.getHandle, DatabaseConnectionLease.valid,
      hActive, hDatabase, hLease, hHandle]
  | false =>
    have hLease := hPaired.lease.symm.trans hActive
    refine .inr ⟨rfl, hLease, ?_⟩
    simp [DatabaseTransaction.getHandle, hActive]

/-- What only the caller sees. -/
theorem tell (h : Books poolSize log s) (hActions : ∀ action ∈ actions, action.toCaller) :
    Books poolSize (log ++ actions) s := by
  obtain ⟨hSql, hAcquired, hReleased⟩ := sqlLog_toCaller hActions
  refine ⟨h.pool, h.paired, ?_, h.size, h.idle, ?_⟩
  · rw [sqlLog_append, hSql, List.append_nil]
    exact h.store
  · rw [acquisitions_append, releases_append, hAcquired, hReleased, List.append_nil, List.append_nil]
    exact h.ledger

/-- SQL on a connection that some transaction holds. -/
theorem sql (h : Books poolSize log s) {index : Nat} (hHeld : index ∈ s.held)
    {statements : List (Statement × Outcome)} {store : Store} {own : List StoreAction}
    {failure : Option (Int × String)} (hExec : Store.exec index statements s.store = some (store, own, failure)) :
    Books poolSize (log ++ own.map .sql) { s with store := store } := by
  refine ⟨h.pool, h.paired, ?_, ?_, ?_, ?_⟩
  · rw [sqlLog_append, sqlLog_sql]
    exact h.store.exec hExec
  · exact (Store.exec_length hExec).trans h.size
  · intro other hFree
    have hOther : other ≠ index := by
      rintro rfl
      exact h.busy hHeld hFree
    exact (Store.exec_other hExec hOther).trans (h.idle other hFree)
  · rw [acquisitions_append, releases_append, acquisitions_sql, releases_sql, List.append_nil, List.append_nil]
    exact h.ledger

/-- Objects that hold what they held, less one index whose connection has no transaction open. -/
theorem giveBack (h : Books poolSize log s) (index : Option Nat)
    (hPool : s'.pool = match index with
      | some index => s.pool.releaseConnection index
      | none => s.pool)
    (hStore : s'.store = s.store) (hHeld : (s'.held ++ index.toList).Perm s.held)
    (hClosed : ∀ own ∈ index, s.store.connections[own]? = some none)
    (hPaired : ∀ transaction, some transaction ∈ s'.objects → Paired transaction)
    (hHandle : ∀ transaction, some transaction ∈ s'.objects → transaction.connection.database = true →
      transaction.connection.handle = some transaction.connection.index) :
    Books poolSize (log ++ index.toList.map .released) s' := by
  obtain ⟨granted, timedOut, hBooks⟩ := h.pool
  constructor
  · refine ⟨granted, timedOut, hBooks.giveBack index hPool rfl rfl ?_ ?_⟩
    · rw [users_held, users_held]
      exact hHeld
    · intro lease hLease
      obtain ⟨object, hObject, hEq⟩ := List.mem_map.mp hLease
      cases object with
      | none => cases hEq
      | some transaction =>
        cases hEq
        exact hHandle transaction hObject
  · exact hPaired
  · rw [sqlLog_append, sqlLog_released, List.append_nil, hStore]
    exact h.store
  · rw [hStore]
    exact h.size
  · intro other hFree
    rw [hStore]
    rw [hPool] at hFree
    cases index with
    | none => exact h.idle other hFree
    | some index =>
      obtain hOld | hNew := List.mem_append.mp hFree
      · exact h.idle other hOld
      · cases List.mem_singleton.mp hNew
        exact hClosed other rfl
  · rw [acquisitions_append, releases_append, acquisitions_released, releases_released, List.append_nil,
      List.append_assoc]
    exact h.ledger.trans ((hHeld.symm.trans List.perm_append_comm).append_left _)

end Books

theorem take_ok {connection : DatabaseConnectionLease} {pool : DatabasePool}
    (h : s.pool.take = (.ok connection, pool)) :
    connection.database = true ∧ s.pool.availableIndices = connection.index :: pool.availableIndices ∧
      connection.handle = s.pool.handles[connection.index]? := by
  simp only [DatabasePool.take] at h
  split at h
  · cases h
  · split at h
    · cases h
    · rename_i index rest hAvailable
      cases h
      exact ⟨rfl, hAvailable, rfl⟩

theorem take_error {exception : Exception} {pool : DatabasePool} (h : s.pool.take = (.error exception, pool)) :
    pool.availableIndices = s.pool.availableIndices := by
  simp only [DatabasePool.take] at h
  split at h
  · cases h
    rfl
  · split at h
    · cases h
      rfl
    · cases h

namespace Books

/-- A constructor that has its lease. -/
theorem take (h : Books poolSize log s) {connection : DatabaseConnectionLease} {pool : DatabasePool}
    (hTake : s.pool.take = (.ok connection, pool)) :
    Books poolSize (log ++ [.acquired connection.index])
      { s with pool := pool, objects := s.objects ++ [some ⟨true, connection, true⟩] } := by
  obtain ⟨hActive, hAvailable, -⟩ := take_ok hTake
  obtain ⟨granted, timedOut, hBooks⟩ := h.pool
  have hHeld : connection.held = some connection.index := by simp [DatabaseConnectionLease.held, hActive]
  constructor
  · have hTaken := hBooks.take
    have hUsers : s.users.pool = s.pool := rfl
    simp only [PoolUsers.take, hUsers, hTake] at hTaken
    have hLeases : (s.objects ++ [some (DatabaseTransaction.mk true connection true)]).map
        (Option.map DatabaseTransaction.connection) = s.users.leases ++ [some connection] := List.map_append
    simp only [users, hLeases]
    exact ⟨_, _, hTaken⟩
  · intro transaction hObject
    obtain hOld | hNew := List.mem_append.mp hObject
    · exact h.paired transaction hOld
    · cases List.mem_singleton.mp hNew
      exact ⟨hActive.symm, fun _ => rfl⟩
  · rw [sqlLog_append]
    exact (List.append_nil _).symm ▸ h.store
  · exact h.size
  · intro index hFree
    apply h.idle
    rw [hAvailable]
    exact List.mem_cons_of_mem _ hFree
  · have hNew : Transactions.held { s with pool := pool, objects := s.objects ++ [some ⟨true, connection, true⟩] } =
        s.held ++ [connection.index] := by
      rw [held, List.filterMap_append]
      simp [hHeld, held]
    rw [hNew, acquisitions_append, releases_append]
    simp only [releases, acquisitions, List.filterMap_cons, List.filterMap_nil, List.append_nil]
    rw [← List.append_assoc]
    exact h.ledger.append_right _

theorem refuse (h : Books poolSize log s) {exception : Exception} {pool : DatabasePool}
    (hTake : s.pool.take = (.error exception, pool)) : Books poolSize log { s with pool := pool } := by
  obtain ⟨granted, timedOut, hBooks⟩ := h.pool
  refine ⟨?_, h.paired, h.store, h.size, ?_, h.ledger⟩
  · have hTaken := hBooks.take
    have hUsers : s.users.pool = s.pool := rfl
    simp only [PoolUsers.take, hUsers, hTake] at hTaken
    exact ⟨_, _, hTaken⟩
  · dsimp only
    rw [take_error hTake]
    exact h.idle

end Books

/-! ## The operations -/

section operations

variable {store store' : Store} {index : Nat} {sql operation : String} {statements : List (Statement × Outcome)}
  {own : List StoreAction} {exception : Option Exception} {transaction : DatabaseTransaction} {object : Nat}
  {outcome : Outcome}

theorem executeSql_exec (hText : sql.isEmpty = false)
    (h : executeSql store index sql operation statements = some (store', own, exception)) :
    ∃ failure, Store.exec index statements store = some (store', own, failure) ∧
      exception.isSome = failure.isSome := by
  simp only [executeSql, hText, Bool.false_eq_true, if_false] at h
  split at h
  · cases h
  · rename_i store own failure hExec
    cases h
    exact ⟨failure, hExec, Option.isSome_map⟩

theorem release_held (hLease : transaction.connection.database = true) : s.release transaction =
    ({ transaction with connection := transaction.connection.moved },
      { s with pool := s.pool.releaseConnection transaction.connection.index },
      [.released transaction.connection.index]) := by
  simp [release, DatabasePool.release, hLease]

theorem release_spent (hLease : transaction.connection.database = false) :
    s.release transaction = (transaction, s, []) := by
  simp [release, DatabasePool.release, hLease]

/-- What a transaction holds, unless it is destroyed. -/
def holding (value : Option DatabaseTransaction) : Option Nat :=
  value.bind (fun transaction => transaction.connection.held)

theorem holding_held (hLease : transaction.connection.database = true) :
    holding (some transaction) = some transaction.connection.index := by
  simp [holding, DatabaseConnectionLease.held, hLease]

theorem holding_spent (hLease : transaction.connection.database = false) : holding (some transaction) = none := by
  simp [holding, DatabaseConnectionLease.held, hLease]

theorem held_append (objects : List (Option DatabaseTransaction))
    (hLease : transaction.connection.database = true) : (objects ++ [some transaction]).filterMap holding =
      objects.filterMap holding ++ [transaction.connection.index] := by
  rw [List.filterMap_append]
  simp [holding_held hLease]

theorem held_set {objects : List (Option DatabaseTransaction)} {old : Option DatabaseTransaction}
    (h : objects[object]? = some old) (value : Option DatabaseTransaction) :
    ((objects.set object value).filterMap holding ++ (holding old).toList).Perm
      (objects.filterMap holding ++ (holding value).toList) :=
  filterMap_set h value holding

/-- Nothing is held, and nothing can be done with it. -/
def Spent (value : Option DatabaseTransaction) : Prop :=
  ∀ found, value = some found → found.active = false ∧ found.connection.database = false

theorem Spent.holding {value : Option DatabaseTransaction} (h : Spent value) : holding value = none := by
  cases value with
  | none => rfl
  | some found => exact holding_spent (h found rfl).2

/-- A transaction makes room for a spent one and gives back what it held. -/
theorem Books.spend (h : Books poolSize log s) (hObject : s.objects[object]? = some (some transaction))
    (hClosed : ∀ own ∈ holding (some transaction), s.store.connections[own]? = some none)
    {value : Option DatabaseTransaction} (hValue : Spent value) :
    Books poolSize (log ++ (holding (some transaction)).toList.map .released)
      { s with
        pool := match holding (some transaction) with
          | some index => s.pool.releaseConnection index
          | none => s.pool
        objects := s.objects.set object value } := by
  apply h.giveBack (holding (some transaction))
  · rfl
  · rfl
  · have hSet := held_set hObject value
    rw [hValue.holding, Option.toList_none, List.append_nil] at hSet
    exact hSet
  · exact hClosed
  · intro found hFound
    obtain hOld | hNew := List.mem_or_eq_of_mem_set hFound
    · exact h.paired found hOld
    · obtain ⟨hInactive, hEmpty⟩ := hValue found hNew.symm
      exact ⟨hInactive.trans hEmpty.symm, fun hActive => absurd (hInactive.symm.trans hActive) Bool.false_ne_true⟩
  · intro found hFound hActive
    obtain hOld | hNew := List.mem_or_eq_of_mem_set hFound
    · exact h.handle hOld hActive
    · obtain ⟨-, hEmpty⟩ := hValue found hNew.symm
      exact absurd (hEmpty.symm.trans hActive) Bool.false_ne_true

theorem spent_moved (transaction : DatabaseTransaction) : Spent (some transaction.moved) := by
  rintro found hFound
  cases hFound
  exact ⟨rfl, rfl⟩

theorem spent_none : Spent none := nofun

/-- Objects that are the old ones or spent, and hold the same. -/
theorem Books.rearrange (h : Books poolSize log s) {objects : List (Option DatabaseTransaction)}
    (hHeld : (objects.filterMap holding).Perm s.held)
    (hOld : ∀ found, some found ∈ objects → some found ∈ s.objects ∨ Spent (some found)) :
    Books poolSize log { s with objects := objects } := by
  have hPaired : ∀ found, some found ∈ objects → Paired found := by
    intro found hFound
    obtain hOwn | hSpent := hOld found hFound
    · exact h.paired found hOwn
    · obtain ⟨hInactive, hEmpty⟩ := hSpent found rfl
      exact ⟨hInactive.trans hEmpty.symm, fun hActive => absurd (hInactive.symm.trans hActive) Bool.false_ne_true⟩
  have hHandle : ∀ found, some found ∈ objects → found.connection.database = true →
      found.connection.handle = some found.connection.index := by
    intro found hFound hActive
    obtain hOwn | hSpent := hOld found hFound
    · exact h.handle hOwn hActive
    · exact absurd ((hSpent found rfl).2.symm.trans hActive) Bool.false_ne_true
  have hBooks : Books poolSize (log ++ (none : Option Nat).toList.map .released) { s with objects := objects } := by
    apply h.giveBack none
    · rfl
    · rfl
    · rw [Option.toList_none, List.append_nil]
      exact hHeld
    · intro own hOwn
      cases hOwn
    · exact hPaired
    · exact hHandle
  rwa [Option.toList_none, List.map_nil, List.append_nil] at hBooks

/-- A move from one object into an object that is spent. -/
theorem Books.move (h : Books poolSize log s) {target source : Nat} {old : Option DatabaseTransaction}
    (hTarget : s.objects[target]? = some old) (hSpent : Spent old)
    (hSource : s.objects[source]? = some (some transaction)) (hOther : target ≠ source) :
    Books poolSize log ((s.setObject target (some transaction)).setObject source (some transaction.moved)) := by
  apply h.rearrange
  · have hFirst := held_set hTarget (some transaction)
    have hStill : (s.objects.set target (some transaction))[source]? = some (some transaction) :=
      (List.getElem?_set_ne hOther).trans hSource
    have hSecond := held_set hStill (some transaction.moved)
    rw [hSpent.holding, Option.toList_none, List.append_nil] at hFirst
    rw [(spent_moved transaction).holding, Option.toList_none, List.append_nil] at hSecond
    exact (List.perm_append_right_iff _).mp (hSecond.trans hFirst)
  · intro found hFound
    obtain hFound | hMoved := List.mem_or_eq_of_mem_set hFound
    · obtain hFound | hOwn := List.mem_or_eq_of_mem_set hFound
      · exact .inl hFound
      · cases hOwn
        exact .inl (List.mem_of_getElem? hSource)
    · exact .inr (hMoved ▸ spent_moved transaction)

theorem Books.moveConstruct (h : Books poolSize log s) {source : Nat}
    (hSource : s.objects[source]? = some (some transaction)) :
    Books poolSize log { s with objects := s.objects.set source (some transaction.moved) ++ [some transaction] } := by
  apply h.rearrange
  · have hSet := held_set hSource (some transaction.moved)
    rw [(spent_moved transaction).holding, Option.toList_none, List.append_nil] at hSet
    rw [List.filterMap_append]
    refine List.Perm.trans (List.Perm.of_eq ?_) hSet
    congr 1
  · intro found hFound
    obtain hFound | hNew := List.mem_append.mp hFound
    · obtain hFound | hMoved := List.mem_or_eq_of_mem_set hFound
      · exact .inl hFound
      · exact .inr (hMoved ▸ spent_moved transaction)
    · cases List.mem_singleton.mp hNew
      exact .inl (List.mem_of_getElem? hSource)

/-- SQL of which nothing is written outside a transaction, and what becomes of the leases. -/
structure Kept (poolSize : Nat) (log actions : List TransactionAction) (s : Transactions) : Prop where
  books : Books poolSize (log ++ actions) s
  quiet : autocommitted (sqlLog actions) = []

theorem sheltered_single {opened : Bool} {statement : Statement} (hStatement : statement.isWrite = false) :
    sheltered opened [(statement, outcome)] = true := by
  cases outcome with
  | done => simp [sheltered, hStatement]
  | failed code message ended => rfl

theorem quiet_exec {statement : Statement} (hStatement : statement.isWrite = false)
    {failure : Option (Int × String)}
    (h : Store.exec index [(statement, outcome)] store = some (store', own, failure)) : autocommitted own = [] :=
  (Store.autocommitted_exec h).mpr (sheltered_single hStatement)

theorem begin_kept (h : Books poolSize log s) {mode : TransactionMode}
    (hBegin : s.begin mode outcome = some (s', actions)) :
    Kept poolSize log actions s' ∧ (∀ exception, .threw exception ∈ actions →
      acquisitions actions = releases actions ∧ s'.objects = s.objects) := by
  have hText : (beginStatement mode).isEmpty = false := by cases mode <;> decide
  simp only [Transactions.begin] at hBegin
  split at hBegin
  · rename_i exception pool hTake
    cases hBegin
    refine ⟨⟨(h.refuse hTake).tell ?_, rfl⟩, fun _ _ => ⟨rfl, rfl⟩⟩
    intro action hAction
    cases List.mem_singleton.mp hAction
    trivial
  · rename_i connection pool hTake
    obtain ⟨hActive, hAvailable, -⟩ := take_ok hTake
    have hTaken := h.take hTake
    have hNew : some ⟨true, connection, true⟩ ∈ s.objects ++ [some (DatabaseTransaction.mk true connection true)] :=
      List.mem_append_right _ List.mem_cons_self
    have hHandle : connection.handle = some connection.index := hTaken.handle hNew hActive
    have hHeld := Books.held_of_active (s := { s with
      pool := pool, objects := s.objects ++ [some ⟨true, connection, true⟩] }) hNew hActive
    have hGet : connection.getHandle = .ok connection.index := by
      simp only [DatabaseConnectionLease.getHandle, hActive, hHandle]
    rw [hGet] at hBegin
    dsimp only at hBegin
    split at hBegin
    · cases hBegin
    · rename_i store own hSql
      obtain ⟨failure, hExec, -⟩ := executeSql_exec hText hSql
      cases hBegin
      have hBooks := hTaken.sql hHeld hExec
      rw [List.append_assoc] at hBooks
      refine ⟨⟨hBooks, ?_⟩, ?_⟩
      · exact (sqlLog_sql own).symm ▸ quiet_exec rfl hExec
      · intro exception hThrew
        simp at hThrew
    · rename_i store own exception hSql
      obtain ⟨failure, hExec, hSome⟩ := executeSql_exec hText hSql
      obtain ⟨error, rfl⟩ := Option.isSome_iff_exists.mp hSome.symm
      have hClosed := Store.exec_failed hExec (h.idle _ (hAvailable ▸ List.mem_cons_self))
      rw [release_held hActive] at hBegin
      cases hBegin
      have hClosed' : ∀ own ∈ some connection.index, store.connections[own]? = some none := by
        intro own hOwn
        cases hOwn
        exact hClosed
      have hSame : (s.objects ++ [some (DatabaseTransaction.mk true connection true)]).filterMap holding =
          s.objects.filterMap holding ++ [connection.index] := held_append s.objects hActive
      have hBooks : Books poolSize
          (log ++ [.acquired connection.index] ++ own.map .sql ++ (some connection.index).toList.map .released)
          { s with pool := pool.releaseConnection connection.index, store := store } :=
        (hTaken.sql hHeld hExec).giveBack (some connection.index) rfl rfl (List.Perm.of_eq hSame.symm) hClosed'
          h.paired (fun _ => h.handle)
      have hTold := hBooks.tell (threw_toCaller exception)
      refine ⟨⟨?_, ?_⟩, ?_⟩
      · simpa using hTold
      · simpa [sqlLog] using quiet_exec rfl hExec
      · intro _ _
        simp [acquisitions, releases]

theorem conclude_kept (h : Books poolSize log s) (hObject : s.objects[object]? = some (some transaction))
    (hText : sql.isEmpty = false) {statement : Statement} (hStatement : statement.isWrite = false)
    (hClosing : ∀ {index store store' own},
      Store.exec index [(statement, outcome)] store = some (store', own, none) →
        store'.connections[index]? = some none)
    (hConclude : s.conclude object transaction sql operation statement outcome = some (s', actions)) :
    Kept poolSize log actions s' := by
  have hMem := List.mem_of_getElem? hObject
  simp only [conclude] at hConclude
  obtain ⟨-, -, hLease, -, hHandle⟩ | ⟨-, -, hHandle⟩ := h.cases hMem
  · rw [hHandle] at hConclude
    dsimp only at hConclude
    split at hConclude
    · cases hConclude
    · rename_i store own exception hSql
      obtain ⟨failure, hExec, -⟩ := executeSql_exec hText hSql
      cases hConclude
      have hBooks := (h.sql (Books.held_of_active hMem hLease) hExec).tell (threw_toCaller exception)
      rw [List.append_assoc] at hBooks
      refine ⟨hBooks, ?_⟩
      simpa [sqlLog] using quiet_exec hStatement hExec
    · rename_i store own hSql
      obtain ⟨failure, hExec, hNone⟩ := executeSql_exec hText hSql
      cases failure with
      | some error => cases hNone
      | none =>
        have hInactive : ({ transaction with active := false } : DatabaseTransaction).connection.database = true :=
          hLease
        rw [release_held hInactive] at hConclude
        cases hConclude
        have hClosed : ∀ own ∈ holding (some transaction), store.connections[own]? = some none := by
          rw [holding_held hLease]
          intro own hOwn
          cases hOwn
          exact hClosing hExec
        have hSpent :
            Spent (some { transaction with active := false, connection := transaction.connection.moved }) := by
          intro found hFound
          cases hFound
          exact ⟨rfl, rfl⟩
        have hBooks := (h.sql (Books.held_of_active hMem hLease) hExec).spend hObject hClosed hSpent
        rw [holding_held hLease, List.append_assoc] at hBooks
        refine ⟨hBooks, ?_⟩
        simpa [sqlLog] using quiet_exec hStatement hExec
  · rw [hHandle] at hConclude
    cases hConclude
    exact ⟨h.tell (threw_toCaller _), rfl⟩

/-- A destructor leaves room for whatever holds nothing. -/
theorem finish_kept (h : Books poolSize log s) (hObject : s.objects[object]? = some (some transaction))
    {left : DatabaseTransaction} (hFinish : s.finishNoexcept transaction outcome = some (left, s', actions)) :
    left.connection.database = false ∧ s'.objects = s.objects ∧
      ∀ value, Spent value → Kept poolSize log actions (s'.setObject object value) := by
  have hMem := List.mem_of_getElem? hObject
  simp only [finishNoexcept] at hFinish
  obtain ⟨-, -, hLease, -, hHandle⟩ | ⟨-, hLease, hHandle⟩ := h.cases hMem
  · rw [hHandle] at hFinish
    dsimp only at hFinish
    split at hFinish
    · cases hFinish
    · rename_i store own exception hSql
      obtain ⟨failure, hExec, -⟩ := executeSql_exec (by decide) hSql
      have hInactive : ({ transaction with active := false } : DatabaseTransaction).connection.database = true :=
        hLease
      rw [release_held hInactive] at hFinish
      cases hFinish
      refine ⟨rfl, rfl, ?_⟩
      intro value hValue
      have hClosed : ∀ own ∈ holding (some transaction), store.connections[own]? = some none := by
        rw [holding_held hLease]
        intro own hOwn
        cases hOwn
        exact Store.exec_rollback hExec
      have hBooks := (h.sql (Books.held_of_active hMem hLease) hExec).spend hObject hClosed hValue
      rw [holding_held hLease, List.append_assoc] at hBooks
      refine ⟨hBooks, ?_⟩
      simpa [sqlLog] using quiet_exec rfl hExec
  · rw [hHandle] at hFinish
    cases hFinish
    refine ⟨hLease, rfl, ?_⟩
    intro value hValue
    have hNone := holding_spent hLease
    have hBooks := h.spend hObject (hNone ▸ fun own hOwn => nomatch hOwn) hValue
    rw [hNone] at hBooks
    exact ⟨hBooks, rfl⟩

end operations

end Transactions

end SecureCore
