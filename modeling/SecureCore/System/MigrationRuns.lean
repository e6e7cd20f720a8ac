import SecureCore.System.SchemaVersions

/-! # Every interleaving of migration runs -/

set_option autoImplicit false

namespace SecureCore

open Relational Transition

namespace MigrationRunner

abbrev History := List (Entry (Runs StoredDatabase Exception String) (RunEvent Exception String) Nat)

/-- What holds of every reachable state. -/
structure Migrated (start : Versioned StoredDatabase String) (base version : Nat) (history : History)
    (s : Runs StoredDatabase Exception String) : Prop where
  applied : Applied migrations start base version s.database
  recorded : Recorded migrations version s.database
  committed : outputs history = List.range' (base + 1) (version - base)
  order : base ≤ version
  finished : ∀ run : Nat, s.phases[run]? = some .finished → version = migrations.length
  /-- A further run that is neither disturbed nor aborted ends with the last version. -/
  rerun : s.writer = none → ∃ steps, ∀ nows : List String, nows.length = steps → ∃ newer s',
    trace step s (.started :: nows.map (.ran s.phases.length)) history = some (newer, s') ∧
      s'.phases[s.phases.length]? = some .finished ∧
        Applied migrations start base migrations.length s'.database ∧
          Recorded migrations migrations.length s'.database
  upToDate : version = migrations.length → ∀ newer s', Run (partialStep step) s newer s' → s'.database = s.database

section runs

variable {start : Versioned StoredDatabase String} {base : Nat} {history : History}
  {s : Runs StoredDatabase Exception String}

theorem run_sound (hRecorded : Recorded migrations base start)
    (hRun : Run (partialStep step) { database := start } history s) : ∃ version, base ≤ version ∧
      outputs history = List.range' (base + 1) (version - base) ∧ Sound migrations start base version s := by
  induction hRun with
  | nil => exact ⟨base, Nat.le_refl base, by simp, sound_start hRecorded⟩
  | cons hOlder hStep ih =>
    obtain ⟨version, hOrder, hCommitted, hSound⟩ := ih
    rw [outputs_cons, hCommitted]
    obtain ⟨hNone, hNext⟩ | ⟨hOne, hNext⟩ := hSound.step numbered (Runs.step_effect hStep)
    · rw [hNone, List.append_nil]
      exact ⟨version, hOrder, rfl, hNext⟩
    · refine ⟨version + 1, Nat.le_succ_of_le hOrder, ?_, hNext⟩
      have hRange : version + 1 - base = version - base + 1 := by omega
      have hLast : base + 1 + (version - base) = version + 1 := by omega
      rw [hOne, hRange, List.range'_1_concat, hLast]

theorem run_unchanged {newer : History} {s' : Runs StoredDatabase Exception String}
    (h : Sound migrations start base migrations.length s) (hRun : Run (partialStep step) s newer s') :
    s'.database = s.database ∧ Sound migrations start base migrations.length s' := by
  induction hRun with
  | nil => exact ⟨rfl, h⟩
  | cons hOlder hStep ih =>
    obtain ⟨hSame, hSound⟩ := ih
    have hEffect := Runs.step_effect hStep
    refine ⟨(hSound.unchanged (by decide) hEffect).trans hSame, ?_⟩
    obtain ⟨-, hNext⟩ | ⟨-, hNext⟩ := hSound.step numbered hEffect
    · exact hNext
    · exact absurd hNext.recorded.known (Nat.not_succ_le_self _)

/-- Whatever the runs do and wherever they are aborted, the database stands at some version,
and a run that is left alone brings it to the last one. -/
theorem run_migrations (hRecorded : Recorded migrations base start) (hStart : AtVersion base start.content)
    (hRun : Run (partialStep step) { database := start } history s) :
    ∃ version, Migrated start base version history s := by
  obtain ⟨version, hOrder, hCommitted, hSound⟩ := run_sound hRecorded hRun
  refine ⟨version, hSound.applied, hSound.recorded, hCommitted, hOrder, ?_, ?_, ?_⟩
  · intro run hFinished
    exact hSound.phases run _ hFinished
  · intro hFree
    obtain ⟨steps, hSteps⟩ := hSound.rerun refusals viable (hSound.applied.content viable hStart) hFree history
    refine ⟨steps, fun nows hLength => ?_⟩
    obtain ⟨newer, s', hTrace, hEnd⟩ := hSteps nows hLength
    exact ⟨newer, s', hTrace, hEnd.own, hEnd.sound.applied, hEnd.sound.recorded⟩
  · rintro rfl newer s' hNewer
    exact (run_unchanged hSound hNewer).1

end runs

end MigrationRunner

namespace Sample

/-- The first run is killed inside its second migration, and the second one is stale. -/
def interruptedMigrations : List (RunEvent Exception String) :=
  let killed : Exception := .runtimeError "killed"
  [.started, .started] ++ List.replicate 8 (.ran 0 "now") ++ [.ran 1 "now", .ran 1 "now", .aborted 0 killed] ++
    List.replicate 7 (.ran 1 "now")

end Sample

theorem MigrationRunner.run_migrations_sample : ∃ history s,
    trace MigrationRunner.step { database := ⟨none, {}⟩ } Sample.interruptedMigrations [] = some (history, s) ∧
      s.database.schemaMigrations.map List.length = some 2 ∧
        ∃ version, MigrationRunner.Migrated ⟨none, {}⟩ 0 version history s := by
  have hSome : (trace MigrationRunner.step { database := ⟨none, {}⟩ } Sample.interruptedMigrations []).map
      (fun result => result.2.database.schemaMigrations.map List.length) = some (some 2) := by
    decide +kernel
  obtain ⟨⟨history, s⟩, hTrace, hRows⟩ := Option.map_eq_some_iff.mp hSome
  have hRecorded : Recorded MigrationRunner.migrations 0 (⟨none, {}⟩ : Versioned StoredDatabase String) :=
    ⟨Nat.zero_le _, nofun, fun _ => rfl⟩
  have hEmpty : AtVersion 0 {} := ⟨rfl, rfl, nofun, rfl, rfl, rfl, rfl, rfl⟩
  exact ⟨history, s, hTrace, hRows, MigrationRunner.run_migrations hRecorded hEmpty (run_of_trace .nil hTrace)⟩

end SecureCore
