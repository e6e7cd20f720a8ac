import SecureCore.Database.TransactionBooks

/-! # What every run of transactions keeps -/

set_option autoImplicit false

namespace SecureCore

open Relational Transition TransactionAction

/-- The object, the text and the statements of an event that runs SQL of the caller. -/
def TransactionEvent.text : TransactionEvent → Option (Nat × String × List (Statement × Outcome))
  | .executed object text statements => some (object, text, statements)
  | .queried object text statement answer => some (object, text, answer.statements statement)
  | _ => none

/-- The object that an operation other than a move or a destructor is called on. -/
def TransactionEvent.operand : TransactionEvent → Option Nat
  | .executed object _ _ => some object
  | .queried object _ _ _ => some object
  | .committed object _ => some object
  | .rolledBack object _ => some object
  | _ => none

/-- The event moves the transaction out of the object. -/
def TransactionEvent.movesFrom (object : Nat) : TransactionEvent → Prop
  | .moveConstructed source => source = object
  | .moveAssigned target source _ => source = object ∧ target ≠ source
  | _ => False

namespace Transactions

/-- No write that the event lets an active transaction carry out comes after the end of
SQLite's transaction. -/
def Sheltered (s : Transactions) (event : TransactionEvent) : Prop :=
  ∀ object sql statements transaction handle, event.text = some (object, sql, statements) →
    s.objectAt object = some transaction → transaction.getHandle = .ok handle → sql.isEmpty = false →
      sheltered (s.store.isOpen handle) statements = true

section steps

variable {s s' : Transactions} {poolSize : Nat} {log actions : List TransactionAction} {object index : Nat}
  {transaction : DatabaseTransaction} {sql operation : String} {statements : List (Statement × Outcome)}
  {event : TransactionEvent}

theorem sheltered_of_silent (hText : event.text = none) : s.Sheltered event := by
  intro object sql statements transaction handle hOwn
  cases hText.symm.trans hOwn

theorem sheltered_of_inactive (hText : event.text = some (object, sql, statements))
    (hObject : s.objectAt object = some transaction)
    (hHandle : (∃ exception, transaction.getHandle = .error exception) ∨ sql.isEmpty = true) : s.Sheltered event := by
  intro _ _ _ _ handle hOwn hFound hGet hNonempty
  cases hText.symm.trans hOwn
  cases hObject.symm.trans hFound
  obtain ⟨exception, hError⟩ | hEmpty := hHandle
  · cases hError.symm.trans hGet
  · cases hEmpty.symm.trans hNonempty

theorem sheltered_iff (hText : event.text = some (object, sql, statements))
    (hObject : s.objectAt object = some transaction) (hHandle : transaction.getHandle = .ok index)
    (hNonempty : sql.isEmpty = false) :
    s.Sheltered event ↔ sheltered (s.store.isOpen index) statements = true := by
  constructor
  · intro h
    exact h _ _ _ _ _ hText hObject hHandle hNonempty
  · intro h _ _ _ _ handle hOwn hFound hGet _
    cases hText.symm.trans hOwn
    cases hObject.symm.trans hFound
    cases hHandle.symm.trans hGet
    exact h

/-- What a step leads to, with the condition under which it writes inside of transactions only. -/
structure Stepped (poolSize : Nat) (log actions : List TransactionAction) (s s' : Transactions)
    (event : TransactionEvent) : Prop where
  books : Books poolSize (log ++ actions) s'
  quiet : autocommitted (sqlLog actions) = [] ↔ s.Sheltered event

theorem Kept.stepped (h : Kept poolSize log actions s') (hText : event.text = none) :
    Stepped poolSize log actions s s' event :=
  ⟨h.books, fun _ => sheltered_of_silent hText, fun _ => h.quiet⟩

/-- SQL of the caller. -/
theorem sql_stepped (h : Books poolSize log s) (hText : event.text = some (object, sql, statements))
    (hNonempty : sql.isEmpty = false) (hObject : s.objectAt object = some transaction)
    (hHandle : transaction.getHandle = .ok index) {store : Store} {own : List StoreAction}
    {failure : Option (Int × String)}
    (hExec : Store.exec index statements s.store = some (store, own, failure))
    {told : List TransactionAction} (hTold : ∀ action ∈ told, action.toCaller) :
    Stepped poolSize log (own.map .sql ++ told) s { s with store := store } event := by
  have hMem := List.mem_of_getElem? (objectAt_eq.mp hObject)
  obtain ⟨-, -, hLease, -, hOwn⟩ | ⟨-, -, hError⟩ := h.cases hMem
  · cases hOwn.symm.trans hHandle
    have hBooks := (h.sql (Books.held_of_active hMem hLease) hExec).tell hTold
    rw [List.append_assoc] at hBooks
    refine ⟨hBooks, ?_⟩
    rw [sqlLog_append, sqlLog_sql, (sqlLog_toCaller hTold).1, List.append_nil,
      sheltered_iff hText hObject hHandle hNonempty]
    exact Store.autocommitted_exec hExec
  · cases hError.symm.trans hHandle

theorem refused_stepped (h : Books poolSize log s) (hText : event.text = some (object, sql, statements))
    (hObject : s.objectAt object = some transaction)
    (hHandle : (∃ exception, transaction.getHandle = .error exception) ∨ sql.isEmpty = true) (told : Exception) :
    Stepped poolSize log [.threw told] s s event :=
  ⟨h.tell (threw_toCaller told), fun _ => sheltered_of_inactive hText hObject hHandle, fun _ => rfl⟩

theorem step_stepped (h : Books poolSize log s) (hStep : s.step event = some (s', actions)) :
    Stepped poolSize log actions s s' event := by
  cases event with
  | begun mode outcome => exact (begin_kept h hStep).1.stepped rfl
  | executed object sql statements =>
    simp only [step] at hStep
    split at hStep
    · cases hStep
    · rename_i transaction hObject
      split at hStep
      · rename_i exception hHandle
        cases hStep
        exact refused_stepped h rfl hObject (.inl ⟨exception, hHandle⟩) exception
      · rename_i handle hHandle
        simp only [execute, executeSql] at hStep
        split at hStep
        · cases hStep
        · rename_i store own exception hSql
          split at hSql
          · rename_i hEmpty
            cases hSql
            cases hStep
            exact refused_stepped h rfl hObject (.inr hEmpty) _
          · rename_i hNonempty
            split at hSql
            · cases hSql
            · rename_i store own failure hExec
              cases hSql
              cases hStep
              apply sql_stepped h rfl (by simpa using hNonempty) hObject hHandle hExec
              intro action hAction
              obtain ⟨exception, -, rfl⟩ := List.mem_map.mp hAction
              trivial
  | queried object text statement answer =>
    simp only [step] at hStep
    split at hStep
    · cases hStep
    · rename_i transaction hObject
      split at hStep
      · rename_i hEmpty
        cases hStep
        exact refused_stepped h rfl hObject (.inr hEmpty) _
      · rename_i hNonempty
        split at hStep
        · rename_i exception hHandle
          cases hStep
          exact refused_stepped h rfl hObject (.inl ⟨exception, hHandle⟩) exception
        · rename_i handle hHandle
          split at hStep
          · cases hStep
          · rename_i store own failure hExec
            cases hStep
            apply sql_stepped h rfl (by simpa using hNonempty) hObject hHandle hExec
            intro action hAction
            cases List.mem_singleton.mp hAction
            cases answer.result <;> trivial
  | committed object outcome =>
    simp only [step] at hStep
    split at hStep
    · cases hStep
    · rename_i transaction hObject
      exact (conclude_kept h (objectAt_eq.mp hObject) (by decide) rfl Store.exec_commit hStep).stepped rfl
  | rolledBack object outcome =>
    simp only [step] at hStep
    split at hStep
    · cases hStep
    · rename_i transaction hObject
      exact (conclude_kept h (objectAt_eq.mp hObject) (by decide) rfl Store.exec_rollback hStep).stepped rfl
  | moveConstructed source =>
    simp only [step] at hStep
    split at hStep
    · cases hStep
    · rename_i transaction hObject
      cases hStep
      have hBooks := h.moveConstruct (objectAt_eq.mp hObject)
      exact Kept.stepped ⟨by rwa [List.append_nil], rfl⟩ rfl
  | moveAssigned target source outcome =>
    simp only [step] at hStep
    split at hStep
    · rename_i old transaction hTarget hSource
      split at hStep
      · cases hStep
        exact Kept.stepped ⟨by rwa [List.append_nil], rfl⟩ rfl
      · rename_i hOther
        split at hStep
        · cases hStep
        · rename_i left next own hFinish
          obtain ⟨hLeft, hObjects, hFinished⟩ := finish_kept h (objectAt_eq.mp hTarget) hFinish
          rw [release_spent hLeft] at hStep
          cases hStep
          have hFreed := hFinished none spent_none
          have hKnown : target < next.objects.length := by
            rw [hObjects]
            exact (List.getElem?_eq_some_iff.mp (objectAt_eq.mp hTarget)).1
          have hSource' : (next.setObject target none).objects[source]? = some (some transaction) := by
            rw [setObject, List.getElem?_set_ne hOther, hObjects]
            exact objectAt_eq.mp hSource
          have hMoved := hFreed.books.move (List.getElem?_set_self hKnown) spent_none hSource' hOther
          simp only [setObject, List.set_set] at hMoved
          rw [List.append_nil]
          exact Kept.stepped ⟨hMoved, hFreed.quiet⟩ rfl
    · cases hStep
  | destroyed object outcome =>
    simp only [step] at hStep
    split at hStep
    · cases hStep
    · rename_i transaction hObject
      split at hStep
      · cases hStep
      · rename_i left next own hFinish
        obtain ⟨hLeft, -, hFinished⟩ := finish_kept h (objectAt_eq.mp hObject) hFinish
        rw [release_spent hLeft] at hStep
        cases hStep
        rw [List.append_nil]
        exact (hFinished none spent_none).stepped rfl

/-! ## Objects that have been moved from -/

/-- What a step makes of the objects. -/
inductive Rearranged (s : Transactions) : TransactionEvent → List (Option DatabaseTransaction) → Prop
  | same {event : TransactionEvent} : Rearranged s event s.objects
  | appended {mode : TransactionMode} {outcome : Outcome} (transaction : DatabaseTransaction) :
      Rearranged s (.begun mode outcome) (s.objects ++ [some transaction])
  | retired {event : TransactionEvent} {value : Option DatabaseTransaction} (object : Nat)
      (hValue : ∀ found, value = some found → found.active = false) :
      Rearranged s event (s.objects.set object value)
  | constructed {source : Nat} {transaction : DatabaseTransaction}
      (hSource : s.objects[source]? = some (some transaction)) : Rearranged s (.moveConstructed source)
        (s.objects.set source (some transaction.moved) ++ [some transaction])
  | assigned {target source : Nat} {outcome : Outcome} {transaction : DatabaseTransaction}
      (hSource : s.objects[source]? = some (some transaction)) : Rearranged s (.moveAssigned target source outcome)
        ((s.objects.set target (some transaction)).set source (some transaction.moved))

theorem conclude_rearranged {statement : Statement} {outcome : Outcome}
    (h : s.conclude object transaction sql operation statement outcome = some (s', actions)) :
    Rearranged s event s'.objects := by
  simp only [conclude] at h
  split at h
  · cases h
    exact .same
  · split at h
    · cases h
    · cases h
      exact .same
    · cases h
      apply Rearranged.retired
      rintro found hFound
      cases hFound
      rfl

theorem finish_objects {outcome : Outcome} {left : DatabaseTransaction}
    (h : s.finishNoexcept transaction outcome = some (left, s', actions)) : s'.objects = s.objects := by
  simp only [finishNoexcept] at h
  split at h
  · cases h
    rfl
  · split at h
    · cases h
    · cases h
      rfl

theorem step_rearranged (h : s.step event = some (s', actions)) : Rearranged s event s'.objects := by
  cases event with
  | begun mode outcome =>
    simp only [step, begin] at h
    split at h
    · cases h
      exact .same
    · split at h
      · cases h
        exact .same
      · split at h
        · cases h
        · cases h
          exact .appended _
        · cases h
          exact .same
  | executed object sql statements =>
    simp only [step, execute] at h
    split at h
    · cases h
    · split at h
      · cases h
        exact .same
      · split at h
        · cases h
        · cases h
          exact .same
  | queried object sql statement answer =>
    simp only [step] at h
    split at h
    · cases h
    · split at h
      · cases h
        exact .same
      · split at h
        · cases h
          exact .same
        · split at h
          · cases h
          · cases h
            exact .same
  | committed object outcome =>
    simp only [step] at h
    split at h
    · cases h
    · exact conclude_rearranged h
  | rolledBack object outcome =>
    simp only [step] at h
    split at h
    · cases h
    · exact conclude_rearranged h
  | moveConstructed source =>
    simp only [step] at h
    split at h
    · cases h
    · rename_i transaction hObject
      cases h
      exact .constructed (objectAt_eq.mp hObject)
  | moveAssigned target source outcome =>
    simp only [step] at h
    split at h
    · rename_i old transaction hTarget hSource
      split at h
      · cases h
        exact .same
      · split at h
        · cases h
        · rename_i left next own hFinish
          cases h
          have hAssigned : Rearranged s (.moveAssigned target source outcome)
              ((s.objects.set target (some transaction)).set source (some transaction.moved)) :=
            .assigned (objectAt_eq.mp hSource)
          rw [← finish_objects hFinish] at hAssigned
          exact hAssigned
    · cases h
  | destroyed object outcome =>
    simp only [step] at h
    split at h
    · cases h
    · split at h
      · cases h
      · rename_i left next own hFinish
        cases h
        have hRetired : Rearranged s (.destroyed object outcome) (s.objects.set object none) :=
          .retired object (fun _ hNone => by cases hNone)
        rw [← finish_objects hFinish] at hRetired
        exact hRetired

/-- The object is not active, or is destroyed. -/
structure Idle (object : Nat) (objects : List (Option DatabaseTransaction)) : Prop where
  known : object < objects.length
  inactive : ∀ transaction, objects[object]? = some (some transaction) → transaction.active = false

theorem Idle.append {objects : List (Option DatabaseTransaction)} (h : Idle object objects)
    (value : Option DatabaseTransaction) : Idle object (objects ++ [value]) := by
  constructor
  · rw [List.length_append]
    exact Nat.lt_add_right _ h.known
  · intro found hFound
    rw [List.getElem?_append_left h.known] at hFound
    exact h.inactive found hFound

theorem Idle.set {objects : List (Option DatabaseTransaction)} (h : Idle object objects) {other : Nat}
    {value : Option DatabaseTransaction}
    (hValue : object = other → ∀ found, value = some found → found.active = false) :
    Idle object (objects.set other value) := by
  constructor
  · rw [List.length_set]
    exact h.known
  · intro found hFound
    obtain ⟨hSame, hOwn⟩ | ⟨-, hOld⟩ := getElem?_set_some hFound
    · exact hValue hSame found hOwn.symm
    · exact h.inactive found hOld

/-- Only an assignment makes an object active again. -/
theorem Idle.rearranged {objects : List (Option DatabaseTransaction)} (h : Idle object s.objects)
    (hStep : Rearranged s event objects)
    (hEvent : ∀ source outcome, event ≠ .moveAssigned object source outcome) : Idle object objects := by
  have hMoved : ∀ {transaction : DatabaseTransaction} found, some transaction.moved = some found →
      found.active = false := by
    rintro transaction found hFound
    cases hFound
    rfl
  cases hStep with
  | same => exact h
  | appended transaction => exact h.append _
  | retired other hValue => exact h.set (fun _ => hValue)
  | constructed hSource => exact (h.set (fun _ => hMoved)).append _
  | @assigned target source outcome transaction hSource =>
    have hOther : object ≠ target := by
      rintro rfl
      exact hEvent source outcome rfl
    exact (h.set (fun hSame => absurd hSame hOther)).set (fun _ => hMoved)

theorem idle_moved {objects : List (Option DatabaseTransaction)} (hKnown : object < objects.length) :
    Idle object (objects.set object (some transaction.moved)) := by
  constructor
  · rwa [List.length_set]
  · intro found hFound
    obtain ⟨-, hOwn⟩ | ⟨hOther, -⟩ := getElem?_set_some hFound
    · cases hOwn
      rfl
    · exact absurd rfl hOther

theorem idle_of_movesFrom (hEvent : event.movesFrom object) (hStep : s.step event = some (s', actions)) :
    Idle object s'.objects := by
  cases event with
  | moveConstructed source =>
    cases hEvent
    simp only [step] at hStep
    split at hStep
    · cases hStep
    · rename_i transaction hObject
      cases hStep
      have hKnown := (List.getElem?_eq_some_iff.mp (objectAt_eq.mp hObject)).1
      exact (idle_moved hKnown).append _
  | moveAssigned target source outcome =>
    obtain ⟨rfl, hOther⟩ := hEvent
    simp only [step, hOther, if_false] at hStep
    split at hStep
    · rename_i old transaction hTarget hSource
      split at hStep
      · cases hStep
      · rename_i left next own hFinish
        cases hStep
        have hKnown := (List.getElem?_eq_some_iff.mp (objectAt_eq.mp hSource)).1
        apply idle_moved
        rw [setObject, List.length_set]
        exact finish_objects hFinish ▸ hKnown
    · cases hStep
  | _ => cases hEvent

end steps

/-- An inactive transaction refuses every operation and stays as it is. -/
theorem inactive_throws {s : Transactions} {event : TransactionEvent} {object : Nat}
    {transaction : DatabaseTransaction} (hEvent : event.operand = some object)
    (hObject : s.objectAt object = some transaction) (hInactive : transaction.active = false) :
    ∃ exception, s.step event = some (s, [.threw exception]) := by
  have hHandle : transaction.getHandle = .error (.logicError "Database transaction is not active") := by
    simp [DatabaseTransaction.getHandle, hInactive]
  cases event with
  | executed other sql statements =>
    cases hEvent
    exact ⟨.logicError "Database transaction is not active", by simp only [step, hObject, hHandle]⟩
  | queried other sql statement answer =>
    cases hEvent
    simp only [step, hObject, hHandle]
    split
    · exact ⟨_, rfl⟩
    · exact ⟨_, rfl⟩
  | committed other outcome =>
    cases hEvent
    exact ⟨.logicError "Database transaction is not active", by simp only [step, hObject, conclude, hHandle]⟩
  | rolledBack other outcome =>
    cases hEvent
    exact ⟨.logicError "Database transaction is not active", by simp only [step, hObject, conclude, hHandle]⟩
  | _ => cases hEvent

/-! ## Every run -/

abbrev History := List (Entry Transactions TransactionEvent TransactionAction)

/-- What transactions promise, of every run. -/
structure Promised (poolSize : Nat) (history : History) (s : Transactions) : Prop where
  active : ∀ transaction, some transaction ∈ s.objects → transaction.active = transaction.connection.valid
  /-- What was acquired is released already, or still held by one object. -/
  leases : (acquisitions (outputs history)).Perm (releases (outputs history) ++ s.held)
  partition : (s.pool.availableIndices ++ s.held).Perm (List.range poolSize)
  failedBegin : ∀ e ∈ history, ∀ mode outcome, e.input = .begun mode outcome →
    ∀ exception, .threw exception ∈ e.outputs →
      acquisitions e.outputs = releases e.outputs ∧ e.after.objects = e.before.objects
  inactive : ∀ event object transaction, event.operand = some object → s.objectAt object = some transaction →
    transaction.active = false → ∃ exception, s.step event = some (s, [.threw exception])
  /-- Until something is assigned to it again. -/
  movedFrom : ∀ newer moved older object, history = newer ++ moved :: older → moved.input.movesFrom object →
    (∀ e ∈ newer, ∀ source outcome, e.input ≠ .moveAssigned object source outcome) →
      ∀ transaction, s.objectAt object = some transaction → transaction.active = false
  handedBack : ∀ index ∈ s.pool.availableIndices, s.store.connections[index]? = some none

section runs

variable {path : String} {poolSize : Nat} {acquireTimeout : Int} {pool : DatabasePool} {history : History}
  {s : Transactions}

theorem books_opened (hCreate : DatabasePool.create path poolSize acquireTimeout = .ok pool) :
    Books pool.poolSize [] (opened pool) := by
  have hPool := PoolUsers.books_create hCreate
  refine ⟨⟨0, 0, hPool⟩, nofun, Store.logged_nil, List.length_replicate, ?_, List.Perm.refl _⟩
  intro index hFree
  have hFree : index ∈ List.range pool.poolSize :=
    (hPool.partition rfl).subset (List.mem_append_left _ hFree)
  exact List.getElem?_eq_some_iff.mpr ⟨by simpa [opened] using hFree, List.getElem_replicate _⟩

theorem run_stepped (hCreate : DatabasePool.create path poolSize acquireTimeout = .ok pool)
    (hRun : Run (partialStep step) (opened pool) history s) :
    Books pool.poolSize (outputs history) s ∧
      (autocommitted (sqlLog (outputs history)) = [] ↔ ∀ e ∈ history, e.before.Sheltered e.input) := by
  induction hRun with
  | nil => exact ⟨books_opened hCreate, fun _ _ he => absurd he List.not_mem_nil, fun _ => rfl⟩
  | cons hOlder hStep ih =>
    obtain ⟨hBooks, hQuiet⟩ := ih
    have hStepped := step_stepped hBooks hStep
    refine ⟨hStepped.books, ?_⟩
    rw [outputs_cons, sqlLog_append, autocommitted_append, List.append_eq_nil_iff, hQuiet, hStepped.quiet,
      List.forall_mem_cons]
    exact And.comm

theorem run_idle {start : Transactions} {object : Nat} (hIdle : Idle object start.objects)
    (hRun : Run (partialStep step) start history s)
    (hEvents : ∀ e ∈ history, ∀ source outcome, e.input ≠ .moveAssigned object source outcome) :
    Idle object s.objects := by
  induction hRun with
  | nil => exact hIdle
  | cons hOlder hStep ih =>
    have hOld := ih (fun e he => hEvents e (List.mem_cons_of_mem _ he))
    exact hOld.rearranged (step_rearranged hStep) (hEvents _ List.mem_cons_self)

/-- The promises hold of every run, and what is visible is what COMMIT made visible exactly
if every write found SQLite's transaction open. -/
theorem run_transactions (hCreate : DatabasePool.create path poolSize acquireTimeout = .ok pool)
    (hRun : Run (partialStep step) (opened pool) history s) :
    Promised pool.poolSize history s ∧
      (s.store.visible = committedUpdates (sqlLog (outputs history)) ↔
        ∀ e ∈ history, e.before.Sheltered e.input) := by
  obtain ⟨hBooks, hQuiet⟩ := run_stepped hCreate hRun
  refine ⟨?_, hBooks.store.visible_iff.trans hQuiet⟩
  constructor
  · intro transaction hObject
    obtain ⟨hActive, -, hLease, hHandle, -⟩ | ⟨hInactive, hLease, -⟩ := hBooks.cases hObject
    · simp [DatabaseConnectionLease.valid, hActive, hLease, hHandle]
    · simp [DatabaseConnectionLease.valid, hInactive, hLease]
  · exact hBooks.ledger
  · exact hBooks.partition
  · intro e he mode outcome hInput exception hThrew
    obtain ⟨newer, older, rfl⟩ := List.append_of_mem he
    obtain ⟨hOlder, hStep, -⟩ := hRun.at_entry
    rw [partialStep, hInput] at hStep
    exact (begin_kept (run_stepped hCreate hOlder).1 hStep).2 exception hThrew
  · exact fun event object transaction => inactive_throws
  · rintro newer moved older object rfl hMoved hEvents transaction hObject
    obtain ⟨-, hStep, hNewer⟩ := hRun.at_entry
    exact (run_idle (idle_of_movesFrom hMoved hStep) hNewer hEvents).inactive _ (objectAt_eq.mp hObject)
  · exact hBooks.idle

end runs

end Transactions

namespace Sample

def transactionPool : DatabasePool := { poolSize := 1, handles := [0], availableIndices := [0] }

/-- A BEGIN that fails, a COMMIT that fails, and one after a move that succeeds. -/
def retriedCommit : List TransactionEvent :=
  let busy : Outcome := .failed 5 "database is locked" false
  [.begun .immediate busy, .begun .immediate .done, .executed 0 "INSERT" [(.write 7, .done)], .committed 0 busy,
    .moveConstructed 0, .executed 0 "INSERT" [], .committed 1 .done, .destroyed 0 .done]

/-- A conflict makes SQLite roll back, and the caller goes on. -/
def lostTransaction : List TransactionEvent :=
  [.begun .immediate .done,
    .executed 0 "INSERT OR ROLLBACK" [(.write 1, .failed 2067 "UNIQUE constraint failed" true)],
    .executed 0 "INSERT" [(.write 2, .done)], .destroyed 0 (.failed 1 "no transaction is active" false)]

end Sample

theorem Transactions.run_transactions_sample : ∃ history s,
    trace Transactions.step (.opened Sample.transactionPool) Sample.retriedCommit [] = some (history, s) ∧
      s.store.visible = [7] ∧ Transactions.Promised 1 history s := by
  have hSome : (trace Transactions.step (.opened Sample.transactionPool) Sample.retriedCommit []).map
      (fun result => result.2.store.visible) = some [7] := by
    decide +kernel
  obtain ⟨⟨history, s⟩, hTrace, hVisible⟩ := Option.map_eq_some_iff.mp hSome
  have hCreate : DatabasePool.create "secure.db" 1 100 = .ok Sample.transactionPool := by decide +kernel
  exact ⟨history, s, hTrace, hVisible, (Transactions.run_transactions hCreate (run_of_trace .nil hTrace)).1⟩

theorem Transactions.visible_without_commit : ∃ history s,
    Run (partialStep Transactions.step) (.opened Sample.transactionPool) history s ∧
      s.store.visible = [2] ∧ commits (sqlLog (outputs history)) = [] := by
  have hSome : (trace Transactions.step (.opened Sample.transactionPool) Sample.lostTransaction []).map
      (fun result => (result.2.store.visible, commits (sqlLog (outputs result.1)))) = some ([2], []) := by
    decide +kernel
  obtain ⟨⟨history, s⟩, hTrace, hEnd⟩ := Option.map_eq_some_iff.mp hSome
  obtain ⟨hVisible, hCommits⟩ := Prod.mk.inj hEnd
  exact ⟨history, s, run_of_trace .nil hTrace, hVisible, hCommits⟩

end SecureCore
