import SecureCore.Transition.Parties

/-! # Transactions on the connections of a store

Outside a transaction every write is visible at once. A statement that fails may end the
transaction it stands in, but ROLLBACK fails only where no transaction is open. Which
statements fail, and which locks make them fail, is left to the environment. -/

set_option autoImplicit false

namespace Relational

open Transition

/-- Updates are named by numbers. A statement that fails has changed nothing: INSERT OR FAIL, which
keeps what it did before it failed, is the writes that it keeps and then one that fails. Inside a
transaction SAVEPOINT is a read and ROLLBACK TO a write, the one that undoes the others. -/
inductive Statement where
  | begin
  | commit
  | rollback
  | write (update : Nat)
  | read
  deriving DecidableEq, Repr

inductive Outcome where
  | done
  | failed (code : Int) (message : String) (ended : Bool)
  deriving DecidableEq, Repr

/-- Transactions are numbered in the order of their BEGIN. -/
structure OpenTransaction where
  serial : Nat
  updates : List Nat
  deriving DecidableEq, Repr

structure Store where
  connections : List (Option OpenTransaction)
  visible : List Nat := []
  begun : Nat := 0
  deriving DecidableEq, Repr

inductive StoreAction where
  | wrote (serial : Option Nat) (update : Nat)
  | committed (serial : Nat)
  deriving DecidableEq, Repr

namespace Store

variable (store : Store)

def setConnection (connection : Nat) (value : Option OpenTransaction) : Store :=
  { store with connections := store.connections.set connection value }

/-- The connection has a transaction open. -/
def isOpen (connection : Nat) : Bool := (store.connections[connection]?).join.isSome

/-- One statement, or nothing where it cannot end that way. -/
def run (connection : Nat) (statement : Statement) (outcome : Outcome) : Option (Store × List StoreAction) :=
  match store.connections[connection]? with
  | none => none
  | some transaction =>
    match outcome, statement, transaction with
    | .failed _ _ _, .rollback, some _ => none
    | .failed _ _ ended, _, _ => some (if ended then store.setConnection connection none else store, [])
    | .done, .begin, none =>
      some ({ store.setConnection connection (some ⟨store.begun, []⟩) with begun := store.begun + 1 }, [])
    | .done, .commit, some transaction =>
      some ({ store.setConnection connection none with visible := store.visible ++ transaction.updates },
        [.committed transaction.serial])
    | .done, .rollback, some _ => some (store.setConnection connection none, [])
    | .done, .write update, some transaction =>
      some (store.setConnection connection (some { transaction with updates := transaction.updates ++ [update] }),
        [.wrote (some transaction.serial) update])
    | .done, .write update, none =>
      some ({ store with visible := store.visible ++ [update] }, [.wrote none update])
    | .done, .read, _ => some (store, [])
    | .done, _, _ => none

/-- Statements one after another until one fails. -/
def exec (connection : Nat) : List (Statement × Outcome) →
    Store → Option (Store × List StoreAction × Option (Int × String))
  | [], store => some (store, [], none)
  | (statement, outcome) :: rest, store =>
    match store.run connection statement outcome with
    | none => none
    | some (next, actions) =>
      match outcome with
      | .failed code message _ => some (next, actions, some (code, message))
      | .done =>
        match exec connection rest next with
        | none => none
        | some (last, later, failure) => some (last, actions ++ later, failure)

end Store

/-- The statement changes data. -/
def Statement.isWrite : Statement → Bool
  | .write _ => true
  | _ => false

/-- Whether a transaction is open after the statement has succeeded. -/
def Statement.leavesOpen (opened : Bool) : Statement → Bool
  | .begin => true
  | .commit => false
  | .rollback => false
  | .write _ => opened
  | .read => opened

/-- Every write that these statements carry out finds a transaction open. -/
def sheltered : Bool → List (Statement × Outcome) → Bool
  | _, [] => true
  | _, (_, .failed _ _ _) :: _ => true
  | opened, (statement, .done) :: rest =>
    (opened || !statement.isWrite) && sheltered (statement.leavesOpen opened) rest

/-! ## What the log tells -/

/-- The updates of one transaction. -/
def updatesOf (log : List StoreAction) (serial : Nat) : List Nat :=
  log.filterMap (fun
    | .wrote (some own) update => if own = serial then some update else none
    | _ => none)

def commits (log : List StoreAction) : List Nat :=
  log.filterMap (fun
    | .committed serial => some serial
    | _ => none)

/-- The updates that stand in no transaction. -/
def autocommitted (log : List StoreAction) : List Nat :=
  log.filterMap (fun
    | .wrote none update => some update
    | _ => none)

/-- What successful COMMITs have made visible. -/
def committedUpdates (log : List StoreAction) : List Nat := (commits log).flatMap (updatesOf log)

theorem mem_updatesOf {log : List StoreAction} {serial update : Nat} :
    update ∈ updatesOf log serial ↔ .wrote (some serial) update ∈ log := by
  rw [updatesOf, List.mem_filterMap]
  constructor
  · rintro ⟨action, hAction, hOwn⟩
    split at hOwn
    · split at hOwn
      · rename_i hSerial
        cases hOwn
        rwa [← hSerial]
      · cases hOwn
    · cases hOwn
  · intro hWrote
    exact ⟨_, hWrote, if_pos rfl⟩

section logs

variable {log later : List StoreAction}

theorem updatesOf_append (serial : Nat) :
    updatesOf (log ++ later) serial = updatesOf log serial ++ updatesOf later serial := List.filterMap_append

theorem commits_append : commits (log ++ later) = commits log ++ commits later := List.filterMap_append

theorem autocommitted_append : autocommitted (log ++ later) = autocommitted log ++ autocommitted later :=
  List.filterMap_append

/-- Later writes of transactions that have not committed change nothing. -/
theorem committedUpdates_append (h : ∀ serial ∈ commits log, updatesOf later serial = []) :
    committedUpdates (log ++ later) =
      committedUpdates log ++ (commits later).flatMap (updatesOf (log ++ later)) := by
  rw [committedUpdates, commits_append, List.flatMap_append]
  congr 1
  apply List.flatMap_congr
  intro serial hSerial
  rw [updatesOf_append, h serial hSerial, List.append_nil]

end logs

/-! ## What a statement does -/

namespace Store

inductive Effect (store : Store) (connection : Nat) : Statement → Outcome → List StoreAction → Store → Prop
  | same {statement : Statement} {outcome : Outcome} (hDone : outcome = .done → statement = .read)
      (hRollback : statement = .rollback → store.connections[connection]? = some none) :
      Effect store connection statement outcome [] store
  | closed {statement : Statement} {outcome : Outcome} (hStatement : outcome = .done → statement = .rollback) :
      Effect store connection statement outcome [] (store.setConnection connection none)
  | began (hClosed : store.connections[connection]? = some none) : Effect store connection .begin .done []
      { store.setConnection connection (some ⟨store.begun, []⟩) with begun := store.begun + 1 }
  | committed {transaction : OpenTransaction} (hOpen : store.connections[connection]? = some (some transaction)) :
      Effect store connection .commit .done [.committed transaction.serial]
        { store.setConnection connection none with visible := store.visible ++ transaction.updates }
  | wrote {transaction : OpenTransaction} {update : Nat}
      (hOpen : store.connections[connection]? = some (some transaction)) :
      Effect store connection (.write update) .done [.wrote (some transaction.serial) update]
        (store.setConnection connection (some { transaction with updates := transaction.updates ++ [update] }))
  | autocommitted {update : Nat} (hClosed : store.connections[connection]? = some none) :
      Effect store connection (.write update) .done [.wrote none update]
        { store with visible := store.visible ++ [update] }

variable {store store' : Store} {connection : Nat} {statement : Statement} {outcome : Outcome}
  {actions : List StoreAction}

theorem run_effect (h : store.run connection statement outcome = some (store', actions)) :
    store.Effect connection statement outcome actions store' := by
  unfold run at h
  split at h
  · cases h
  · rename_i transaction hConnection
    split at h
    · cases h
    · rename_i code message ended hRollback
      cases h
      cases ended with
      | true => exact .closed nofun
      | false =>
        have hClosed : statement = .rollback → store.connections[connection]? = some none := by
          intro hStatement
          cases transaction with
          | none => exact hConnection
          | some transaction => exact absurd rfl (hRollback transaction hStatement)
        exact .same (fun hDone => nomatch hDone) hClosed
    · cases h
      exact .began hConnection
    · cases h
      exact .committed hConnection
    · cases h
      exact .closed (fun _ => rfl)
    · cases h
      exact .wrote hConnection
    · cases h
      exact .autocommitted hConnection
    · cases h
      exact .same (fun _ => rfl) nofun
    · cases h

theorem run_known (h : store.run connection statement outcome = some (store', actions)) :
    connection < store.connections.length := by
  by_contra hUnknown
  rw [run, List.getElem?_eq_none (Nat.le_of_not_lt hUnknown)] at h
  cases h

namespace Effect

theorem length_eq (h : store.Effect connection statement outcome actions store') :
    store'.connections.length = store.connections.length := by
  cases h with
  | same => rfl
  | autocommitted => rfl
  | _ => exact List.length_set

theorem other (h : store.Effect connection statement outcome actions store') {other : Nat}
    (hOther : other ≠ connection) : store'.connections[other]? = store.connections[other]? := by
  cases h with
  | same => rfl
  | autocommitted => rfl
  | _ => exact List.getElem?_set_ne hOther.symm

/-- However ROLLBACK ends, no transaction is open afterwards. -/
theorem rolledBack (h : store.Effect connection .rollback outcome actions store')
    (hKnown : connection < store.connections.length) : store'.connections[connection]? = some none := by
  cases h with
  | same _ hRollback => exact hRollback rfl
  | closed => exact List.getElem?_set_self hKnown

theorem committed_closed (h : store.Effect connection .commit .done actions store')
    (hKnown : connection < store.connections.length) : store'.connections[connection]? = some none := by
  cases h with
  | same hDone => exact nomatch hDone rfl
  | closed hStatement => exact nomatch hStatement rfl
  | committed => exact List.getElem?_set_self hKnown

theorem stays_closed (h : store.Effect connection statement outcome actions store') (hFailed : outcome ≠ .done)
    (hClosed : store.connections[connection]? = some none) : store'.connections[connection]? = some none := by
  cases h with
  | same => exact hClosed
  | closed => exact List.getElem?_set_self (List.getElem?_eq_some_iff.mp hClosed).1
  | _ => exact absurd rfl hFailed

end Effect

/-! ## The log of a store -/

structure Logged (log : List StoreAction) (store : Store) : Prop where
  updates : ∀ (connection : Nat) transaction, store.connections[connection]? = some (some transaction) →
    transaction.updates = updatesOf log transaction.serial
  distinct : ∀ (first second : Nat) one two, store.connections[first]? = some (some one) →
    store.connections[second]? = some (some two) → one.serial = two.serial → first = second
  bounded : ∀ (connection : Nat) transaction, store.connections[connection]? = some (some transaction) →
    transaction.serial < store.begun
  wroteBounded : ∀ serial update, .wrote (some serial) update ∈ log → serial < store.begun
  committedBounded : ∀ serial ∈ commits log, serial < store.begun
  pending : ∀ (connection : Nat) transaction, store.connections[connection]? = some (some transaction) →
    transaction.serial ∉ commits log
  sheltered : autocommitted log = [] → store.visible = committedUpdates log
  size : store.visible.length = (committedUpdates log).length + (autocommitted log).length

theorem logged_nil {connections : Nat} : Logged [] { connections := List.replicate connections none } := by
  have hNone : ∀ (connection : Nat) transaction,
      (List.replicate connections (none : Option OpenTransaction))[connection]? ≠ some (some transaction) := by
    intro connection transaction hOpen
    have hMem := List.eq_of_mem_replicate (List.mem_of_getElem? hOpen)
    cases hMem
  constructor
  · exact fun connection transaction hOpen => absurd hOpen (hNone connection transaction)
  · exact fun first second one two hOne => absurd hOne (hNone first one)
  · exact fun connection transaction hOpen => absurd hOpen (hNone connection transaction)
  · exact nofun
  · exact nofun
  · exact fun connection transaction hOpen => absurd hOpen (hNone connection transaction)
  · exact fun _ => rfl
  · rfl

namespace Logged

variable {log : List StoreAction}

theorem close (h : Logged log store) : Logged log (store.setConnection connection none) := by
  have hOld : ∀ {other : Nat} {transaction : OpenTransaction},
      (store.setConnection connection none).connections[other]? = some (some transaction) →
        store.connections[other]? = some (some transaction) := by
    intro other transaction hOpen
    obtain ⟨-, hNone⟩ | ⟨-, hOpen⟩ := getElem?_set_some hOpen
    · cases hNone
    · exact hOpen
  constructor
  · exact fun other transaction hOpen => h.updates other transaction (hOld hOpen)
  · exact fun first second one two hOne hTwo => h.distinct first second one two (hOld hOne) (hOld hTwo)
  · exact fun other transaction hOpen => h.bounded other transaction (hOld hOpen)
  · exact h.wroteBounded
  · exact h.committedBounded
  · exact fun other transaction hOpen => h.pending other transaction (hOld hOpen)
  · exact h.sheltered
  · exact h.size

theorem begin (h : Logged log store) : Logged log
    { store.setConnection connection (some ⟨store.begun, []⟩) with begun := store.begun + 1 } := by
  have hNew : updatesOf log store.begun = [] := by
    apply List.eq_nil_iff_forall_not_mem.mpr
    intro update hUpdate
    exact Nat.lt_irrefl _ (h.wroteBounded _ _ (mem_updatesOf.mp hUpdate))
  constructor
  · intro other transaction hOpen
    obtain ⟨-, hOwn⟩ | ⟨-, hOpen⟩ := getElem?_set_some hOpen
    · cases hOwn
      exact hNew.symm
    · exact h.updates other transaction hOpen
  · intro first second one two hOne hTwo hSerial
    obtain ⟨rfl, hNew⟩ | ⟨-, hFirst⟩ := getElem?_set_some hOne
    · obtain ⟨rfl, -⟩ | ⟨-, hSecond⟩ := getElem?_set_some hTwo
      · rfl
      · cases hNew
        exact absurd (h.bounded second two hSecond) (hSerial ▸ Nat.lt_irrefl _)
    · obtain ⟨rfl, hNew⟩ | ⟨-, hSecond⟩ := getElem?_set_some hTwo
      · cases hNew
        exact absurd (h.bounded first one hFirst) (hSerial ▸ Nat.lt_irrefl _)
      · exact h.distinct first second one two hFirst hSecond hSerial
  · intro other transaction hOpen
    obtain ⟨-, hOwn⟩ | ⟨-, hOpen⟩ := getElem?_set_some hOpen
    · cases hOwn
      exact Nat.lt_succ_self _
    · exact Nat.lt_succ_of_lt (h.bounded other transaction hOpen)
  · exact fun serial update hWrote => Nat.lt_succ_of_lt (h.wroteBounded serial update hWrote)
  · exact fun serial hCommitted => Nat.lt_succ_of_lt (h.committedBounded serial hCommitted)
  · intro other transaction hOpen hCommitted
    obtain ⟨-, hOwn⟩ | ⟨-, hOpen⟩ := getElem?_set_some hOpen
    · cases hOwn
      exact Nat.lt_irrefl _ (h.committedBounded _ hCommitted)
    · exact h.pending other transaction hOpen hCommitted
  · exact h.sheltered
  · exact h.size

variable {transaction : OpenTransaction}

theorem commit (h : Logged log store) (hOpen : store.connections[connection]? = some (some transaction)) :
    Logged (log ++ [.committed transaction.serial])
      { store.setConnection connection none with visible := store.visible ++ transaction.updates } := by
  have hUpdates : ∀ serial, updatesOf (log ++ [.committed transaction.serial]) serial = updatesOf log serial :=
    fun serial => (updatesOf_append serial).trans (List.append_nil _)
  have hAuto : autocommitted (log ++ [.committed transaction.serial]) = autocommitted log :=
    autocommitted_append.trans (List.append_nil _)
  have hCommits : commits (log ++ [.committed transaction.serial]) = commits log ++ [transaction.serial] :=
    commits_append
  have hVisible : committedUpdates (log ++ [.committed transaction.serial]) =
      committedUpdates log ++ transaction.updates := by
    rw [committedUpdates, hCommits, funext hUpdates, List.flatMap_append, h.updates connection _ hOpen]
    simp only [List.flatMap_cons, List.flatMap_nil, List.append_nil, committedUpdates]
  have hClosed : Logged log (store.setConnection connection none) := h.close
  constructor
  · intro other found hFound
    rw [hUpdates]
    exact hClosed.updates other found hFound
  · exact hClosed.distinct
  · exact hClosed.bounded
  · intro serial update hWrote
    obtain hWrote | hNew := List.mem_append.mp hWrote
    · exact h.wroteBounded serial update hWrote
    · cases List.mem_singleton.mp hNew
  · intro serial hCommitted
    rw [hCommits] at hCommitted
    obtain hOld | hNew := List.mem_append.mp hCommitted
    · exact h.committedBounded serial hOld
    · cases List.mem_singleton.mp hNew
      exact h.bounded connection transaction hOpen
  · intro other found hFound hCommitted
    rw [hCommits] at hCommitted
    obtain hOld | hNew := List.mem_append.mp hCommitted
    · exact hClosed.pending other found hFound hOld
    · obtain ⟨-, hNone⟩ | ⟨hOther, hFound⟩ := getElem?_set_some hFound
      · cases hNone
      · exact hOther (h.distinct _ _ _ _ hFound hOpen (List.mem_singleton.mp hNew))
  · intro hSheltered
    rw [hAuto] at hSheltered
    rw [hVisible, ← h.sheltered hSheltered]
  · have hSize := h.size
    rw [hAuto, hVisible, List.length_append, List.length_append]
    omega

theorem write (h : Logged log store) (hOpen : store.connections[connection]? = some (some transaction))
    (update : Nat) : Logged (log ++ [.wrote (some transaction.serial) update])
      (store.setConnection connection (some { transaction with updates := transaction.updates ++ [update] })) := by
  have hOwn : updatesOf (log ++ [.wrote (some transaction.serial) update]) transaction.serial =
      transaction.updates ++ [update] := by
    rw [updatesOf_append, h.updates connection _ hOpen]
    simp [updatesOf]
  have hOther : ∀ serial, serial ≠ transaction.serial →
      updatesOf [.wrote (some transaction.serial) update] serial = [] := by
    intro serial hSerial
    simp [updatesOf, hSerial.symm]
  have hAuto : autocommitted (log ++ [.wrote (some transaction.serial) update]) = autocommitted log :=
    autocommitted_append.trans (List.append_nil _)
  have hCommits : commits (log ++ [.wrote (some transaction.serial) update]) = commits log :=
    commits_append.trans (List.append_nil _)
  have hVisible : committedUpdates (log ++ [.wrote (some transaction.serial) update]) = committedUpdates log := by
    rw [committedUpdates_append]
    · exact List.append_nil _
    · intro serial hSerial
      apply hOther
      rintro rfl
      exact h.pending connection transaction hOpen hSerial
  constructor
  · intro other found hFound
    obtain ⟨-, hSame⟩ | ⟨hElse, hFound⟩ := getElem?_set_some hFound
    · cases hSame
      exact hOwn.symm
    · have hSerial : found.serial ≠ transaction.serial := fun hSame =>
        hElse (h.distinct _ _ _ _ hFound hOpen hSame)
      rw [updatesOf_append, hOther _ hSerial, List.append_nil]
      exact h.updates other found hFound
  · intro first second one two hOne hTwo hSerial
    obtain ⟨rfl, hNew⟩ | ⟨-, hFirst⟩ := getElem?_set_some hOne
    · cases hNew
      obtain ⟨rfl, -⟩ | ⟨-, hSecond⟩ := getElem?_set_some hTwo
      · rfl
      · exact h.distinct _ _ _ _ hOpen hSecond hSerial
    · obtain ⟨rfl, hNew⟩ | ⟨-, hSecond⟩ := getElem?_set_some hTwo
      · cases hNew
        exact h.distinct _ _ _ _ hFirst hOpen hSerial
      · exact h.distinct first second one two hFirst hSecond hSerial
  · intro other found hFound
    obtain ⟨-, hSame⟩ | ⟨-, hFound⟩ := getElem?_set_some hFound
    · cases hSame
      exact h.bounded connection transaction hOpen
    · exact h.bounded other found hFound
  · intro serial written hWrote
    obtain hWrote | hNew := List.mem_append.mp hWrote
    · exact h.wroteBounded serial written hWrote
    · cases List.mem_singleton.mp hNew
      exact h.bounded connection transaction hOpen
  · rw [hCommits]
    exact h.committedBounded
  · rw [hCommits]
    intro other found hFound
    obtain ⟨-, hSame⟩ | ⟨-, hFound⟩ := getElem?_set_some hFound
    · cases hSame
      exact h.pending connection transaction hOpen
    · exact h.pending other found hFound
  · rw [hAuto, hVisible]
    exact h.sheltered
  · rw [hAuto, hVisible]
    exact h.size

theorem autocommit (h : Logged log store) (update : Nat) : Logged (log ++ [.wrote none update])
    { store with visible := store.visible ++ [update] } := by
  have hUpdates : ∀ serial, updatesOf (log ++ [.wrote none update]) serial = updatesOf log serial :=
    fun serial => (updatesOf_append serial).trans (List.append_nil _)
  have hAuto : autocommitted (log ++ [.wrote none update]) = autocommitted log ++ [update] := autocommitted_append
  have hCommits : commits (log ++ [.wrote none update]) = commits log := commits_append.trans (List.append_nil _)
  constructor
  · intro other found hFound
    rw [hUpdates]
    exact h.updates other found hFound
  · exact h.distinct
  · exact h.bounded
  · intro serial written hWrote
    obtain hWrote | hNew := List.mem_append.mp hWrote
    · exact h.wroteBounded serial written hWrote
    · cases List.mem_singleton.mp hNew
  · rw [hCommits]
    exact h.committedBounded
  · rw [hCommits]
    exact h.pending
  · intro hSheltered
    rw [hAuto] at hSheltered
    exact absurd hSheltered (List.append_ne_nil_of_right_ne_nil _ (List.cons_ne_nil _ _))
  · have hSize := h.size
    rw [committedUpdates, hCommits, funext hUpdates, hAuto, List.length_append, List.length_append]
    simp only [committedUpdates] at hSize
    dsimp only [List.length_singleton]
    omega

theorem step (h : Logged log store) (hEffect : store.Effect connection statement outcome actions store') :
    Logged (log ++ actions) store' := by
  cases hEffect with
  | same =>
    rw [List.append_nil]
    exact h
  | closed =>
    rw [List.append_nil]
    exact h.close
  | began =>
    rw [List.append_nil]
    exact h.begin
  | committed hOpen => exact h.commit hOpen
  | wrote hOpen => exact h.write hOpen _
  | autocommitted => exact h.autocommit _

/-- The store shows what COMMIT made visible exactly if nothing was written outside a transaction. -/
theorem visible_iff (h : Logged log store) : store.visible = committedUpdates log ↔ autocommitted log = [] := by
  constructor
  · intro hVisible
    have hSize := h.size
    rw [hVisible] at hSize
    exact List.length_eq_zero_iff.mp (by omega)
  · exact h.sheltered

end Logged

/-! ## Several statements -/

section exec

variable {statements : List (Statement × Outcome)} {log : List StoreAction} {failure : Option (Int × String)}

/-- The rule for what every statement keeps. -/
theorem exec_induction (log : List StoreAction) {P : Store → List StoreAction → Prop}
    (hStep : ∀ {store store' : Store} {older actions : List StoreAction} {statement : Statement} {outcome : Outcome},
      store.Effect connection statement outcome actions store' → P store older → P store' (older ++ actions))
    (h : exec connection statements store = some (store', actions, failure)) (hStart : P store log) :
    P store' (log ++ actions) := by
  induction statements generalizing store log actions with
  | nil =>
    cases h
    rwa [List.append_nil]
  | cons head rest ih =>
    obtain ⟨statement, outcome⟩ := head
    simp only [exec] at h
    split at h
    · cases h
    · rename_i next own hRun
      have hNext := hStep (run_effect hRun) hStart
      split at h
      · cases h
        exact hNext
      · split at h
        · cases h
        · rename_i last later result hRest
          cases h
          rw [← List.append_assoc]
          exact ih _ hRest hNext

theorem Logged.exec (h : Logged log store)
    (hExec : Store.exec connection statements store = some (store', actions, failure)) :
    Logged (log ++ actions) store' :=
  exec_induction log (P := fun store log => Logged log store) (fun hEffect hOlder => hOlder.step hEffect) hExec h

theorem exec_invariant {I : Store → Prop}
    (hStep : ∀ {store store' : Store} {actions : List StoreAction} {statement : Statement} {outcome : Outcome},
      store.Effect connection statement outcome actions store' → I store → I store')
    (h : exec connection statements store = some (store', actions, failure)) (hStart : I store) : I store' :=
  exec_induction [] (P := fun store _ => I store) (fun hEffect => hStep hEffect) h hStart

theorem exec_length (h : exec connection statements store = some (store', actions, failure)) :
    store'.connections.length = store.connections.length := by
  apply exec_invariant (I := fun next => next.connections.length = store.connections.length) _ h rfl
  intro _ _ _ _ _ hEffect hOlder
  exact hEffect.length_eq.trans hOlder

theorem exec_other (h : exec connection statements store = some (store', actions, failure)) {other : Nat}
    (hOther : other ≠ connection) : store'.connections[other]? = store.connections[other]? := by
  apply exec_invariant (I := fun next => next.connections[other]? = store.connections[other]?) _ h rfl
  intro _ _ _ _ _ hEffect hOlder
  exact (hEffect.other hOther).trans hOlder

theorem exec_single (h : exec connection [(statement, outcome)] store = some (store', actions, failure)) :
    store.run connection statement outcome = some (store', actions) ∧ (failure = none ↔ outcome = .done) := by
  simp only [exec] at h
  split at h
  · cases h
  · rename_i next own hRun
    split at h
    · cases h
      exact ⟨hRun, nofun, nofun⟩
    · cases h
      rw [List.append_nil]
      exact ⟨hRun, fun _ => rfl, fun _ => rfl⟩

theorem exec_rollback (h : exec connection [(.rollback, outcome)] store = some (store', actions, failure)) :
    store'.connections[connection]? = some none := by
  obtain ⟨hRun, -⟩ := exec_single h
  exact (run_effect hRun).rolledBack (run_known hRun)

theorem exec_commit (h : exec connection [(.commit, outcome)] store = some (store', actions, none)) :
    store'.connections[connection]? = some none := by
  obtain ⟨hRun, hDone⟩ := exec_single h
  cases hDone.mp rfl
  exact (run_effect hRun).committed_closed (run_known hRun)

theorem exec_failed {error : Int × String}
    (h : exec connection [(statement, outcome)] store = some (store', actions, some error))
    (hClosed : store.connections[connection]? = some none) : store'.connections[connection]? = some none := by
  obtain ⟨hRun, hDone⟩ := exec_single h
  apply (run_effect hRun).stays_closed _ hClosed
  intro hOutcome
  cases hDone.mpr hOutcome

/-! ## Shelter -/

theorem isOpen_eq {value : Option OpenTransaction} (h : store.connections[connection]? = some value) :
    store.isOpen connection = value.isSome := by
  rw [isOpen, h]
  rfl

theorem isOpen_set (hKnown : connection < store.connections.length) (value : Option OpenTransaction) :
    (store.setConnection connection value).isOpen connection = value.isSome :=
  isOpen_eq (List.getElem?_set_self hKnown)

theorem run_isOpen (h : store.run connection statement .done = some (store', actions)) :
    store'.isOpen connection = statement.leavesOpen (store.isOpen connection) ∧
      (autocommitted actions = [] ↔ (store.isOpen connection || !statement.isWrite) = true) := by
  have hKnown := run_known h
  cases run_effect h with
  | same hDone =>
    cases hDone rfl
    exact ⟨rfl, by simp [Statement.isWrite, autocommitted]⟩
  | closed hStatement =>
    cases hStatement rfl
    exact ⟨isOpen_set hKnown none, by simp [Statement.isWrite, autocommitted]⟩
  | began => exact ⟨isOpen_set hKnown _, by simp [Statement.isWrite, autocommitted]⟩
  | committed => exact ⟨isOpen_set hKnown none, by simp [Statement.isWrite, autocommitted]⟩
  | wrote hOpen =>
    have hWas := isOpen_eq hOpen
    refine ⟨(isOpen_set hKnown _).trans hWas.symm, ?_⟩
    simp [hWas, autocommitted]
  | autocommitted hClosed =>
    have hWas := isOpen_eq hClosed
    exact ⟨rfl, by simp [hWas, Statement.isWrite, autocommitted]⟩

theorem run_failed_quiet {code : Int} {message : String} {ended : Bool}
    (h : store.run connection statement (.failed code message ended) = some (store', actions)) :
    actions = [] := by
  cases run_effect h <;> rfl

theorem autocommitted_exec (h : exec connection statements store = some (store', actions, failure)) :
    autocommitted actions = [] ↔ sheltered (store.isOpen connection) statements = true := by
  induction statements generalizing store actions with
  | nil =>
    cases h
    simp [sheltered, autocommitted]
  | cons head rest ih =>
    obtain ⟨statement, outcome⟩ := head
    simp only [exec] at h
    split at h
    · cases h
    · rename_i next own hRun
      split at h
      · cases h
        rw [run_failed_quiet hRun]
        simp [sheltered, autocommitted]
      · split at h
        · cases h
        · rename_i last later result hRest
          cases h
          obtain ⟨hOpen, hOwn⟩ := run_isOpen hRun
          rw [autocommitted_append, List.append_eq_nil_iff, hOwn, ih hRest, hOpen, sheltered, Bool.and_eq_true]

end exec

end Store

end Relational
