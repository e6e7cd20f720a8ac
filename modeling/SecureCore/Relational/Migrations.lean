import Mathlib.Data.List.Basic
import SecureCore.Transition.Parties
import SecureCore.Transition.Run

/-! # Runs of numbered migrations

Any number of runs bring one store up to date, each migration in a transaction of its own.
Only one transaction is open at a time; every statement may be the last of its run, and
what a transaction did is then undone. The environment of a statement is what it reads
besides the store, such as the clock. -/

set_option autoImplicit false

namespace Relational

open Transition

variable {κ ε η : Type}

structure Migration (κ ε η : Type) where
  version : Nat
  name : String
  statements : List (η → κ → Except ε κ)

structure MigrationRow (η : Type) where
  version : Nat
  name : String
  appliedAt : η
  deriving DecidableEq, Repr

/-- The table of applied migrations does not exist in a new store. -/
structure Versioned (κ η : Type) where
  schemaMigrations : Option (List (MigrationRow η))
  content : κ

/-- SELECT COALESCE(MAX(version), 0). -/
def currentVersion (rows : List (MigrationRow η)) : Nat := (rows.map MigrationRow.version).foldl max 0

/-- What the statements on the table of applied migrations throw. -/
structure Refusals (ε : Type) where
  unreadable : ε
  missingTable : ε
  recordedTwice : Nat → ε

/-- How far a run has come. Inside a transaction it has a working copy of the store. -/
inductive Phase (κ ε η : Type) where
  | creating
  | reading
  | looping (current : Nat) (pending : List (Migration κ ε η))
  | executing (current : Nat) (migration : Migration κ ε η) (statements : List (η → κ → Except ε κ))
    (work : Versioned κ η) (pending : List (Migration κ ε η))
  | committing (current : Nat) (migration : Migration κ ε η) (work : Versioned κ η)
    (pending : List (Migration κ ε η))
  | finished
  | failed (exception : ε)

structure Runs (κ ε η : Type) where
  database : Versioned κ η
  /-- The run whose transaction is open. -/
  writer : Option Nat := none
  phases : List (Phase κ ε η) := []

inductive RunEvent (ε η : Type) where
  | started
  /-- The next statement of a run. -/
  | ran (run : Nat) (environment : η)
  /-- The next statement of a run fails, or nothing is executed any more. -/
  | aborted (run : Nat) (exception : ε)

namespace Runs

variable (s : Runs κ ε η)

def setPhase (run : Nat) (phase : Phase κ ε η) : Runs κ ε η := { s with phases := s.phases.set run phase }

/-- The transaction of the run, if any, is rolled back. -/
def fail (run : Nat) (exception : ε) : Runs κ ε η :=
  { s.setPhase run (.failed exception) with writer := if s.writer = some run then none else s.writer }

/-- The next statement, unless it has to wait for the end of another transaction. -/
def advance (refusals : Refusals ε) (migrations : List (Migration κ ε η)) (run : Nat) (environment : η) :
    Phase κ ε η → Option (Runs κ ε η × List Nat)
  | .creating =>
    match s.database.schemaMigrations, s.writer with
    | some _, _ => some (s.setPhase run .reading, [])
    | none, none =>
      some ({ s.setPhase run .reading with database := { s.database with schemaMigrations := some [] } }, [])
    | none, some _ => none
  | .reading =>
    match s.database.schemaMigrations with
    | none => some (s.fail run refusals.unreadable, [])
    | some rows => some (s.setPhase run (.looping (currentVersion rows) migrations), [])
  | .looping _ [] => some (s.setPhase run .finished, [])
  | .looping current (migration :: pending) =>
    if migration.version ≤ current then some (s.setPhase run (.looping current pending), [])
    else match s.writer with
      | some _ => none
      | none =>
        some ({ s.setPhase run (.executing current migration migration.statements s.database pending) with
          writer := some run }, [])
  | .executing current migration (statement :: rest) work pending =>
    match statement environment work.content with
    | .error exception => some (s.fail run exception, [])
    | .ok content => some (s.setPhase run
      (.executing current migration rest { work with content := content } pending), [])
  -- INSERT INTO schema_migrations, whose key is the version
  | .executing current migration [] work pending =>
    match work.schemaMigrations with
    | none => some (s.fail run refusals.missingTable, [])
    | some rows =>
      if rows.any (fun row => row.version == migration.version) then
        some (s.fail run (refusals.recordedTwice migration.version), [])
      else
        let recorded := rows ++ [⟨migration.version, migration.name, environment⟩]
        some (s.setPhase run
          (.committing current migration { work with schemaMigrations := some recorded } pending), [])
  | .committing current migration work pending =>
    some ({ s.setPhase run (.looping current pending) with database := work, writer := none }, [migration.version])
  | .finished => none
  | .failed _ => none

end Runs

/-- A step, with the version that it commits. -/
def Runs.step (refusals : Refusals ε) (migrations : List (Migration κ ε η)) (s : Runs κ ε η) :
    RunEvent ε η → Option (Runs κ ε η × List Nat)
  | .started => some ({ s with phases := s.phases ++ [.creating] }, [])
  | .ran run environment =>
    match s.phases[run]? with
    | none => none
    | some phase => s.advance refusals migrations run environment phase
  | .aborted run exception =>
    match s.phases[run]? with
    | none => none
    | some .finished => none
    | some (.failed _) => none
    | some _ => some (s.fail run exception, [])

/-! ## What a step does -/

section effects

variable (migrations : List (Migration κ ε η))

/-- Steps of one run that leave the store alone. -/
inductive Moves (database : Versioned κ η) : Phase κ ε η → Phase κ ε η → Prop
  | created {rows : List (MigrationRow η)} (hTable : database.schemaMigrations = some rows) :
      Moves database .creating .reading
  | read {rows : List (MigrationRow η)} (hTable : database.schemaMigrations = some rows) :
      Moves database .reading (.looping (currentVersion rows) migrations)
  | skipped {current : Nat} {migration : Migration κ ε η} {pending : List (Migration κ ε η)}
      (hOld : migration.version ≤ current) :
      Moves database (.looping current (migration :: pending)) (.looping current pending)
  | finished {current : Nat} : Moves database (.looping current []) .finished
  | executed {current : Nat} {migration : Migration κ ε η} {statement : η → κ → Except ε κ}
      {rest : List (η → κ → Except ε κ)} {work : Versioned κ η} {pending : List (Migration κ ε η)}
      {environment : η} {content : κ} (hDone : statement environment work.content = .ok content) :
      Moves database (.executing current migration (statement :: rest) work pending)
        (.executing current migration rest { work with content := content } pending)
  | recorded {current : Nat} {migration : Migration κ ε η} {work : Versioned κ η}
      {pending : List (Migration κ ε η)} {rows : List (MigrationRow η)} (environment : η)
      (hTable : work.schemaMigrations = some rows) (hNew : ∀ row ∈ rows, row.version ≠ migration.version) :
      Moves database (.executing current migration [] work pending) (.committing current migration
        { work with schemaMigrations := some (rows ++ [⟨migration.version, migration.name, environment⟩]) } pending)

namespace Runs

inductive Effect (s : Runs κ ε η) : List Nat → Runs κ ε η → Prop
  | started : Effect s [] { s with phases := s.phases ++ [.creating] }
  | moved {run : Nat} {phase next : Phase κ ε η} (hPhase : s.phases[run]? = some phase)
      (hMoves : Moves migrations s.database phase next) : Effect s [] (s.setPhase run next)
  | created {run : Nat} (hPhase : s.phases[run]? = some .creating) (hNone : s.database.schemaMigrations = none)
      (hFree : s.writer = none) : Effect s []
        { s.setPhase run .reading with database := { s.database with schemaMigrations := some [] } }
  | began {run current : Nat} {migration : Migration κ ε η} {pending : List (Migration κ ε η)}
      (hPhase : s.phases[run]? = some (.looping current (migration :: pending)))
      (hNew : current < migration.version) (hFree : s.writer = none) : Effect s []
        { s.setPhase run (.executing current migration migration.statements s.database pending) with
          writer := some run }
  | committed {run current : Nat} {migration : Migration κ ε η} {work : Versioned κ η}
      {pending : List (Migration κ ε η)}
      (hPhase : s.phases[run]? = some (.committing current migration work pending)) :
      Effect s [migration.version]
        { s.setPhase run (.looping current pending) with database := work, writer := none }
  | failed {run : Nat} {phase : Phase κ ε η} (hPhase : s.phases[run]? = some phase) (exception : ε) :
      Effect s [] (s.fail run exception)

variable {migrations} {s s' : Runs κ ε η} {refusals : Refusals ε} {committed : List Nat}

theorem advance_effect {run : Nat} {environment : η} {phase : Phase κ ε η}
    (hPhase : s.phases[run]? = some phase)
    (h : s.advance refusals migrations run environment phase = some (s', committed)) :
    s.Effect migrations committed s' := by
  cases phase with
  | creating =>
    simp only [advance] at h
    split at h
    · rename_i rows writer hTable
      cases h
      exact .moved hPhase (.created hTable)
    · rename_i hNone hFree
      cases h
      exact .created hPhase hNone hFree
    · cases h
  | reading =>
    simp only [advance] at h
    split at h
    · cases h
      exact .failed hPhase _
    · rename_i rows hTable
      cases h
      exact .moved hPhase (.read hTable)
  | looping current pending =>
    cases pending with
    | nil =>
      cases h
      exact .moved hPhase .finished
    | cons migration pending =>
      simp only [advance] at h
      split at h
      · rename_i hOld
        cases h
        exact .moved hPhase (.skipped hOld)
      · rename_i hNew
        split at h
        · cases h
        · rename_i hFree
          cases h
          exact .began hPhase (Nat.lt_of_not_le hNew) hFree
  | executing current migration statements work pending =>
    cases statements with
    | cons statement rest =>
      simp only [advance] at h
      split at h
      · cases h
        exact .failed hPhase _
      · rename_i content hDone
        cases h
        exact .moved hPhase (.executed hDone)
    | nil =>
      simp only [advance] at h
      split at h
      · cases h
        exact .failed hPhase _
      · rename_i rows hTable
        split at h
        · cases h
          exact .failed hPhase _
        · rename_i hNew
          cases h
          exact .moved hPhase (.recorded environment hTable (by simpa using hNew))
  | committing current migration work pending =>
    cases h
    exact .committed hPhase
  | finished => cases h
  | failed exception => cases h

theorem step_effect {event : RunEvent ε η} (h : s.step refusals migrations event = some (s', committed)) :
    s.Effect migrations committed s' := by
  cases event with
  | started =>
    cases h
    exact .started
  | ran run environment =>
    simp only [step] at h
    split at h
    · cases h
    · rename_i phase hPhase
      exact advance_effect hPhase h
  | aborted run exception =>
    simp only [step] at h
    split at h
    · cases h
    · cases h
    · cases h
    · rename_i phase _ _ hPhase
      cases h
      exact .failed hPhase exception

end Runs

end effects

/-! ## What has been applied -/

/-- All statements succeed one after another. -/
inductive Executes : List (η → κ → Except ε κ) → κ → κ → Prop
  | nil (content : κ) : Executes [] content content
  | cons {statement : η → κ → Except ε κ} {rest : List (η → κ → Except ε κ)} {before middle after : κ}
      (environment : η) (hDone : statement environment before = .ok middle) (hRest : Executes rest middle after) :
      Executes (statement :: rest) before after

theorem Executes.snoc {statement : η → κ → Except ε κ} {done : List (η → κ → Except ε κ)} {before middle after : κ}
    (h : Executes done before middle) {environment : η} (hDone : statement environment middle = .ok after) :
    Executes (done ++ [statement]) before after := by
  induction h with
  | nil content => exact .cons environment hDone (.nil after)
  | cons own hOwn _ ih => exact .cons own hOwn (ih hDone)

section soundness

variable (migrations : List (Migration κ ε η)) (start : Versioned κ η) (base : Nat)

/-- A store in which the migrations between two versions have been applied, each once and
in their order. -/
inductive Applied : Nat → Versioned κ η → Prop
  | start : Applied base start
  | created {version : Nat} {content : κ} (h : Applied version ⟨none, content⟩) : Applied version ⟨some [], content⟩
  | migrated {version : Nat} {rows : List (MigrationRow η)} {before after : κ} {migration : Migration κ ε η}
      (h : Applied version ⟨some rows, before⟩) (hNext : migrations[version]? = some migration)
      (hExecutes : Executes migration.statements before after) (environment : η) :
      Applied (version + 1) ⟨some (rows ++ [⟨migration.version, migration.name, environment⟩]), after⟩

/-- The table names the first migrations and no others. -/
def Records (version : Nat) (rows : List (MigrationRow η)) : Prop :=
  rows.map (fun row => (row.version, row.name)) =
    (migrations.take version).map (fun migration => (migration.version, migration.name))

/-- What is recorded, with a table that does not exist before the first migration. -/
structure Recorded (version : Nat) (database : Versioned κ η) : Prop where
  known : version ≤ migrations.length
  rows : ∀ rows, database.schemaMigrations = some rows → Records migrations version rows
  table : database.schemaMigrations = none → version = 0

/-- What a run relies on between two of its statements. -/
def Phase.Good (version : Nat) (s : Runs κ ε η) (run : Nat) : Phase κ ε η → Prop
  | .creating => True
  | .reading => s.database.schemaMigrations ≠ none
  | .looping current pending => s.database.schemaMigrations ≠ none ∧ current ≤ version ∧
      ∃ done ≤ version, pending = migrations.drop done
  | .executing current migration statements work pending => s.writer = some run ∧
      s.database.schemaMigrations ≠ none ∧ current ≤ version ∧
      (∃ done ≤ version, migrations.drop done = migration :: pending) ∧
      work.schemaMigrations = s.database.schemaMigrations ∧
      ∃ executed, migration.statements = executed ++ statements ∧
        Executes executed s.database.content work.content
  | .committing current migration work pending => s.writer = some run ∧ current ≤ version ∧
      migrations.drop version = migration :: pending ∧
      Executes migration.statements s.database.content work.content ∧
      ∃ rows environment, s.database.schemaMigrations = some rows ∧
        work.schemaMigrations = some (rows ++ [⟨migration.version, migration.name, environment⟩])
  | .finished => version = migrations.length
  | .failed _ => True

/-- The run has its transaction open. -/
def Phase.inside : Phase κ ε η → Prop
  | .executing _ _ _ _ _ => True
  | .committing _ _ _ _ => True
  | _ => False

structure Sound (version : Nat) (s : Runs κ ε η) : Prop where
  applied : Applied migrations start base version s.database
  recorded : Recorded migrations version s.database
  phases : ∀ (run : Nat) (phase : Phase κ ε η), s.phases[run]? = some phase → phase.Good migrations version s run
  writer : ∀ run, s.writer = some run → ∃ phase : Phase κ ε η, s.phases[run]? = some phase ∧ phase.inside

variable {migrations start base}

/-- The versions count up from one. -/
def Numbered (migrations : List (Migration κ ε η)) : Prop :=
  ∀ index migration, migrations[index]? = some migration → migration.version = index + 1

theorem getElem?_of_drop {index : Nat} {migration : Migration κ ε η} {pending : List (Migration κ ε η)}
    (h : migrations.drop index = migration :: pending) :
    migrations[index]? = some migration ∧ migrations.drop (index + 1) = pending := by
  constructor
  · rw [← List.head?_drop, h]
    rfl
  · rw [← List.tail_drop, h]
    rfl

theorem Records.versions {version : Nat} {rows : List (MigrationRow η)} (h : Records migrations version rows)
    (hNumbered : Numbered migrations) (hKnown : version ≤ migrations.length) :
    rows.map MigrationRow.version = (List.range version).map (· + 1) := by
  have hMap := congrArg (List.map Prod.fst) h
  rw [List.map_map, List.map_map] at hMap
  have hVersions : rows.map MigrationRow.version = (migrations.take version).map Migration.version := hMap
  rw [hVersions]
  apply List.ext_getElem
  · simp [hKnown]
  · intro index hLeft hRight
    simp only [List.getElem_map, List.getElem_take, List.getElem_range]
    apply hNumbered
    exact List.getElem?_eq_getElem _

theorem currentVersion_eq {version : Nat} {rows : List (MigrationRow η)}
    (h : rows.map MigrationRow.version = (List.range version).map (· + 1)) : currentVersion rows = version := by
  rw [currentVersion, h]
  clear h
  induction version with
  | zero => rfl
  | succ version ih =>
    rw [List.range_succ, List.map_append, List.foldl_append, ih]
    simp

/-- A migration that is not recorded comes after all that are. -/
theorem le_of_unrecorded {version own : Nat} {rows : List (MigrationRow η)}
    (h : rows.map MigrationRow.version = (List.range version).map (· + 1))
    (hNew : ∀ row ∈ rows, row.version ≠ own + 1) : version ≤ own := by
  by_contra hOld
  have hMem : own + 1 ∈ rows.map MigrationRow.version := by
    rw [h]
    exact List.mem_map.mpr ⟨own, List.mem_range.mpr (Nat.lt_of_not_le hOld), rfl⟩
  obtain ⟨row, hRow, hVersion⟩ := List.mem_map.mp hMem
  exact hNew row hRow hVersion

variable {version : Nat} {s s' : Runs κ ε η} {run : Nat} {phase next : Phase κ ε η}

/-- Another run sees the same store, and has its transaction open as before. -/
theorem Phase.Good.transfer (h : phase.Good migrations version s run) (hDatabase : s'.database = s.database)
    (hWriter : s.writer = some run → s'.writer = some run) : phase.Good migrations version s' run := by
  cases phase with
  | creating => trivial
  | reading =>
    simp only [Phase.Good, hDatabase]
    exact h
  | looping current pending =>
    simp only [Phase.Good, hDatabase]
    exact h
  | executing current migration statements work pending =>
    simp only [Phase.Good, hDatabase]
    exact ⟨hWriter h.1, h.2⟩
  | committing current migration work pending =>
    simp only [Phase.Good, hDatabase]
    exact ⟨hWriter h.1, h.2⟩
  | finished => exact h
  | failed exception => trivial

theorem Phase.Good.owns (h : phase.Good migrations version s run) (hInside : phase.inside) :
    s.writer = some run := by
  cases phase with
  | executing => exact h.1
  | committing => exact h.1
  | _ => exact hInside.elim

/-- One run goes on while the store stays. -/
theorem Sound.move (h : Sound migrations start base version s) (hPhase : s.phases[run]? = some phase)
    (hGood : next.Good migrations version s run) (hInside : phase.inside → next.inside) :
    Sound migrations start base version (s.setPhase run next) := by
  obtain ⟨hKnown, -⟩ := List.getElem?_eq_some_iff.mp hPhase
  constructor
  · exact h.applied
  · exact h.recorded
  · intro other found hFound
    obtain ⟨rfl, rfl⟩ | ⟨-, hOld⟩ := getElem?_set_some hFound
    · exact hGood.transfer rfl id
    · exact (h.phases other found hOld).transfer rfl id
  · intro owner hOwner
    obtain ⟨found, hFound, hOwn⟩ := h.writer owner hOwner
    obtain rfl | hOther := eq_or_ne owner run
    · cases hPhase.symm.trans hFound
      exact ⟨next, List.getElem?_set_self hKnown, hInside hOwn⟩
    · exact ⟨found, (List.getElem?_set_ne hOther.symm).trans hFound, hOwn⟩

theorem Moves.inside (h : Moves migrations s.database phase next) (hInside : phase.inside) : next.inside := by
  cases h with
  | executed => trivial
  | recorded => trivial
  | _ => exact hInside.elim

theorem Moves.good (hNumbered : Numbered migrations) (h : Sound migrations start base version s)
    (hGood : phase.Good migrations version s run) (hMoves : Moves migrations s.database phase next) :
    next.Good migrations version s run := by
  have hVersions : ∀ {rows}, s.database.schemaMigrations = some rows →
      rows.map MigrationRow.version = (List.range version).map (· + 1) := fun hTable =>
    (h.recorded.rows _ hTable).versions hNumbered h.recorded.known
  cases hMoves with
  | created hTable => exact fun hNone => nomatch hNone.symm.trans hTable
  | read hTable =>
    exact ⟨hGood, Nat.le_of_eq (currentVersion_eq (hVersions hTable)), 0, Nat.zero_le _, List.drop_zero.symm⟩
  | @skipped current migration pending hOld =>
    obtain ⟨hTable, hCurrent, done, hDone, hPending⟩ := hGood
    obtain ⟨hNext, hRest⟩ := getElem?_of_drop hPending.symm
    have hVersion := hNumbered done migration hNext
    exact ⟨hTable, hCurrent, done + 1, by omega, hRest.symm⟩
  | finished =>
    obtain ⟨-, -, done, hDone, hPending⟩ := hGood
    have hLength := List.drop_eq_nil_iff.mp hPending.symm
    have hKnown := h.recorded.known
    change version = migrations.length
    omega
  | executed hDone =>
    obtain ⟨hWriter, hTable, hCurrent, hPending, hWork, executed, hStatements, hExecutes⟩ := hGood
    refine ⟨hWriter, hTable, hCurrent, hPending, hWork, executed ++ [_], ?_, hExecutes.snoc hDone⟩
    rw [List.append_assoc]
    exact hStatements
  | @recorded current migration work pending rows environment hRows hNew =>
    obtain ⟨hWriter, -, hCurrent, ⟨done, hDone, hPending⟩, hWork, executed, hStatements, hExecutes⟩ := hGood
    rw [List.append_nil] at hStatements
    have hTable := hWork.symm.trans hRows
    -- a stale run has failed by now, since its version is recorded
    have hVersion := hNumbered done migration (getElem?_of_drop hPending).1
    have hLast := le_of_unrecorded (hVersions hTable) (hVersion ▸ hNew)
    obtain rfl : done = version := Nat.le_antisymm hDone hLast
    exact ⟨hWriter, hCurrent, hPending, hStatements ▸ hExecutes, rows, environment, hTable, rfl⟩

theorem sound_start (hRecorded : Recorded migrations base start) :
    Sound migrations start base base { database := start } := by
  constructor
  · exact .start
  · exact hRecorded
  · intro other found hFound
    cases hFound
  · intro owner hOwner
    cases hOwner

theorem Sound.fail (h : Sound migrations start base version s) (hPhase : s.phases[run]? = some phase)
    (exception : ε) : Sound migrations start base version (s.fail run exception) := by
  constructor
  · exact h.applied
  · exact h.recorded
  · intro other found hFound
    obtain ⟨rfl, rfl⟩ | ⟨hOther, hOld⟩ := getElem?_set_some hFound
    · trivial
    · apply (h.phases other found hOld).transfer (by rfl)
      intro hOwner
      simp only [Runs.fail, hOwner, Option.some.injEq, hOther, if_false]
  · intro owner hOwner
    simp only [Runs.fail] at hOwner
    split at hOwner
    · cases hOwner
    · rename_i hNot
      obtain ⟨found, hFound, hOwn⟩ := h.writer owner hOwner
      have hOther : run ≠ owner := by
        rintro rfl
        exact hNot hOwner
      exact ⟨found, (List.getElem?_set_ne hOther).trans hFound, hOwn⟩

theorem Sound.begin (h : Sound migrations start base version s) {current : Nat} {migration : Migration κ ε η}
    {pending : List (Migration κ ε η)} (hPhase : s.phases[run]? = some (.looping current (migration :: pending)))
    (hFree : s.writer = none) : Sound migrations start base version
      { s.setPhase run (.executing current migration migration.statements s.database pending) with
        writer := some run } := by
  obtain ⟨hKnown, -⟩ := List.getElem?_eq_some_iff.mp hPhase
  obtain ⟨hTable, hCurrent, done, hDone, hPending⟩ := h.phases run _ hPhase
  constructor
  · exact h.applied
  · exact h.recorded
  · intro other found hFound
    obtain ⟨rfl, rfl⟩ | ⟨-, hOld⟩ := getElem?_set_some hFound
    · exact ⟨rfl, hTable, hCurrent, ⟨done, hDone, hPending.symm⟩, rfl, [], rfl, .nil _⟩
    · apply (h.phases other found hOld).transfer (by rfl)
      intro hOwner
      cases hFree.symm.trans hOwner
  · intro owner hOwner
    cases hOwner
    exact ⟨_, List.getElem?_set_self hKnown, trivial⟩

/-- Before the table exists no run has come any further. -/
theorem Sound.create (h : Sound migrations start base version s) (hPhase : s.phases[run]? = some .creating)
    (hNone : s.database.schemaMigrations = none) (hFree : s.writer = none) :
    Sound migrations start base version
      { s.setPhase run .reading with database := { s.database with schemaMigrations := some [] } } := by
  obtain rfl := h.recorded.table hNone
  constructor
  · apply Applied.created
    have hApplied := h.applied
    rw [← hNone]
    exact hApplied
  · refine ⟨Nat.zero_le _, ?_, nofun⟩
    intro rows hRows
    cases hRows
    rfl
  · intro other found hFound
    obtain ⟨rfl, rfl⟩ | ⟨-, hOld⟩ := getElem?_set_some hFound
    · exact nofun
    · have hGood := h.phases other found hOld
      cases found with
      | creating => trivial
      | reading => exact absurd hNone hGood
      | looping => exact absurd hNone hGood.1
      | executing => exact absurd hNone hGood.2.1
      | committing => cases hFree.symm.trans hGood.1
      | finished => exact hGood
      | failed => trivial
  · intro owner hOwner
    cases hFree.symm.trans hOwner

theorem Sound.commit (hNumbered : Numbered migrations) (h : Sound migrations start base version s) {current : Nat}
    {migration : Migration κ ε η} {work : Versioned κ η} {pending : List (Migration κ ε η)}
    (hPhase : s.phases[run]? = some (.committing current migration work pending)) :
    migration.version = version + 1 ∧ Sound migrations start base (version + 1)
      { s.setPhase run (.looping current pending) with database := work, writer := none } := by
  obtain ⟨hWriter, hCurrent, hPending, hExecutes, rows, environment, hTable, hWork⟩ := h.phases run _ hPhase
  obtain ⟨hNext, hRest⟩ := getElem?_of_drop hPending
  have hBound : version < migrations.length := (List.getElem?_eq_some_iff.mp hNext).1
  refine ⟨hNumbered version migration hNext, ?_⟩
  constructor
  · have hBefore : Applied migrations start base version ⟨some rows, s.database.content⟩ := by
      have hApplied := h.applied
      rw [← hTable]
      exact hApplied
    have hAfter := hBefore.migrated hNext hExecutes environment
    rw [← hWork] at hAfter
    exact hAfter
  · refine ⟨hBound, ?_, ?_⟩
    · intro found hFound
      cases hWork.symm.trans hFound
      rw [Records, List.map_append, h.recorded.rows rows hTable, List.take_add_one, List.map_append, hNext]
      rfl
    · intro hNone
      cases hWork.symm.trans hNone
  · intro other found hFound
    obtain ⟨rfl, rfl⟩ | ⟨hOther, hOld⟩ := getElem?_set_some hFound
    · refine ⟨?_, Nat.le_succ_of_le hCurrent, version + 1, Nat.le_refl _, hRest.symm⟩
      intro hNone
      cases hWork.symm.trans hNone
    · have hGood := h.phases other found hOld
      have hStranger : ¬found.inside := by
        intro hInside
        cases hWriter.symm.trans (hGood.owns hInside)
        exact hOther rfl
      have hExists : work.schemaMigrations ≠ none := by
        intro hNone
        cases hWork.symm.trans hNone
      cases found with
      | creating => trivial
      | reading => exact hExists
      | looping =>
        obtain ⟨-, hOwn, done, hDone, hLeft⟩ := hGood
        exact ⟨hExists, Nat.le_succ_of_le hOwn, done, Nat.le_succ_of_le hDone, hLeft⟩
      | executing => exact absurd trivial hStranger
      | committing => exact absurd trivial hStranger
      | finished =>
        change version = migrations.length at hGood
        omega
      | failed => trivial
  · exact nofun

theorem Sound.started (h : Sound migrations start base version s) :
    Sound migrations start base version { s with phases := s.phases ++ [.creating] } := by
  constructor
  · exact h.applied
  · exact h.recorded
  · intro other found hFound
    obtain hOld | hNew := Nat.lt_or_ge other s.phases.length
    · rw [List.getElem?_append_left hOld] at hFound
      exact (h.phases other found hFound).transfer rfl id
    · rw [List.getElem?_append_right hNew] at hFound
      cases List.mem_singleton.mp (List.mem_of_getElem? hFound)
      trivial
  · intro owner hOwner
    obtain ⟨found, hFound, hOwn⟩ := h.writer owner hOwner
    have hKnown := (List.getElem?_eq_some_iff.mp hFound).1
    exact ⟨found, (List.getElem?_append_left hKnown).trans hFound, hOwn⟩

/-- A step commits nothing or the next migration. -/
theorem Sound.step (hNumbered : Numbered migrations) (h : Sound migrations start base version s)
    {committed : List Nat} (hEffect : s.Effect migrations committed s') :
    committed = [] ∧ Sound migrations start base version s' ∨
      committed = [version + 1] ∧ Sound migrations start base (version + 1) s' := by
  cases hEffect with
  | started => exact .inl ⟨rfl, h.started⟩
  | moved hPhase hMoves =>
    have hGood := hMoves.good hNumbered h (h.phases _ _ hPhase)
    exact .inl ⟨rfl, h.move hPhase hGood hMoves.inside⟩
  | created hPhase hNone hFree => exact .inl ⟨rfl, h.create hPhase hNone hFree⟩
  | began hPhase hNew hFree => exact .inl ⟨rfl, h.begin hPhase hFree⟩
  | committed hPhase =>
    obtain ⟨hVersion, hCommitted⟩ := h.commit hNumbered hPhase
    exact .inr ⟨by rw [hVersion], hCommitted⟩
  | failed hPhase exception => exact .inl ⟨rfl, h.fail hPhase exception⟩

end soundness

end Relational
