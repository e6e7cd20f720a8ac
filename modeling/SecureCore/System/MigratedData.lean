import SecureCore.System.MigrationRuns
import SecureCore.System.TokenFamilies

/-! # Existing data after the migrations -/

set_option autoImplicit false

namespace SecureCore

open Relational Transition

namespace MigrationRunner

/-- What becomes of a content of one version on the way to another. -/
structure Carried (base : Nat) (before : StoredDatabase) (version : Nat) (after : StoredDatabase) : Prop where
  order : base ≤ version
  users : 1 ≤ base → after.users = before.users
  auditEvents : 3 ≤ base → after.auditEvents = before.auditEvents
  sessions : 2 ≤ base → version < 4 → after.authSessions = before.authSessions
  families : base < 4 → 4 ≤ version → ∃ sessions,
    after.authSessions = some ⟨true, true, Migration.addRefreshTokenFamilies sessions⟩ ∧
      (2 ≤ base → before.authSessions = some ⟨false, false, sessions⟩)
  later : 4 ≤ base → after.authSessions = before.authSessions
  roles : base < 5 → 5 ≤ version → ∃ users sessions now now',
    Shows after (Migration.createRbac users sessions now now')

theorem carried_refl (base : Nat) (db : StoredDatabase) : Carried base db base db := by
  constructor
  · exact Nat.le_refl base
  · exact fun _ => rfl
  · exact fun _ => rfl
  · exact fun _ _ => rfl
  · intro hEarly hLate
    omega
  · exact fun _ => rfl
  · intro hEarly hLate
    omega

section carry

variable {base version : Nat} {before middle after : StoredDatabase}

/-- One more migration. -/
theorem Carried.step (h : Carried base before version middle) (hMiddle : AtVersion version middle)
    {migration : Relational.Migration StoredDatabase Exception String} (hNext : migrations[version]? = some migration)
    (hExecutes : Executes migration.statements middle after) : Carried base before (version + 1) after := by
  have hOrder := h.order
  match version with
  | 0 =>
    cases hNext
    obtain rfl := (succeeds_createUsers middle).executes hExecutes
    refine ⟨by omega, fun _ => by omega, fun _ => by omega, fun _ => by omega, fun _ _ => by omega,
      fun _ => by omega, fun _ _ => by omega⟩
  | 1 =>
    cases hNext
    obtain ⟨indexes, rfl⟩ := (succeeds_createAuthSessions middle).executes hExecutes
    exact ⟨by omega, h.users, h.auditEvents, fun _ => by omega, fun _ _ => by omega, fun _ => by omega,
      fun _ _ => by omega⟩
  | 2 =>
    cases hNext
    obtain ⟨indexes, triggers, rfl⟩ := (succeeds_createAuditEvents middle).executes hExecutes
    exact ⟨by omega, h.users, fun _ => by omega, fun hBase _ => h.sessions hBase (by omega), fun _ _ => by omega,
      fun _ => by omega, fun _ _ => by omega⟩
  | 3 =>
    cases hNext
    obtain ⟨sessions, hSessions⟩ := hMiddle.someSessions (by decide)
    obtain ⟨indexes, rfl⟩ := (succeeds_addRefreshTokenFamilies hSessions).executes hExecutes
    refine ⟨by omega, h.users, h.auditEvents, fun _ _ => by omega, fun _ _ => ⟨sessions, rfl, fun hBase => ?_⟩,
      fun _ => by omega, fun _ _ => by omega⟩
    exact (h.sessions hBase (by omega)).symm.trans hSessions
  | 4 =>
    cases hNext
    obtain ⟨users, hUsers⟩ := hMiddle.someUsers (by decide)
    obtain ⟨sessions, hSessions⟩ := hMiddle.someSessions (by decide)
    obtain ⟨hAudit, now, now', hShows⟩ := (succeeds_createRbac hUsers hSessions hMiddle).executes hExecutes
    have hTables := createRbac_eq users sessions now now'
    have hSame : after.users = middle.users := by
      rw [hShows.users, hTables, hUsers]
      rfl
    have hKept : after.authSessions = middle.authSessions := by
      rw [hShows.authSessions, hTables, hSessions]
      rfl
    refine ⟨by omega, fun hBase => hSame.trans (h.users hBase), fun hBase => hAudit.trans (h.auditEvents hBase),
      fun _ => by omega, fun hEarly _ => ?_, fun hBase => hKept.trans (h.later hBase),
      fun _ _ => ⟨users, sessions, now, now', hShows⟩⟩
    rw [hKept]
    exact h.families hEarly (Nat.le_refl 4)
  | n + 5 => cases hNext

theorem carried_of_applied {start database : Versioned StoredDatabase String} (hStart : AtVersion base start.content)
    (h : Applied migrations start base version database) : Carried base start.content version database.content := by
  induction h with
  | start => exact carried_refl base start.content
  | created _ ih => exact ih
  | migrated hApplied hNext hExecutes _ ih =>
    exact ih.step (Relational.Applied.content hApplied viable hStart) hNext hExecutes

end carry

/-! ## Sessions -/

/-- A session without the columns of version 4. -/
def withoutFamily (s : AuthSession) : AuthSession := { s with tokenFamilyId := "", parentSessionId := none }

theorem withoutFamily_addRefreshTokenFamilies (sessions : Table AuthSession) :
    (Migration.addRefreshTokenFamilies sessions).rows.map withoutFamily = sessions.rows.map withoutFamily := by
  simp only [Migration.addRefreshTokenFamilies, Table.update, List.map_map]
  rfl

theorem legacy_families (sessions : Table AuthSession) {row : AuthSession}
    (hRow : row ∈ (Migration.addRefreshTokenFamilies sessions).rows) : row.tokenFamilyId ≠ "" ∧
      ∀ other ∈ (Migration.addRefreshTokenFamilies sessions).rows,
        other.tokenFamilyId = row.tokenFamilyId → other = row := by
  have hLegacy : ∀ s ∈ (Migration.addRefreshTokenFamilies sessions).rows,
      s.tokenFamilyId = "legacy-" ++ toString s.id := by
    intro s hs
    obtain ⟨added, hAdded, rfl⟩ := Table.mem_update.mp hs
    obtain ⟨old, -, rfl⟩ := Table.mem_update.mp hAdded
    rfl
  constructor
  · rw [hLegacy row hRow]
    intro hEmpty
    have hList := congrArg String.toList hEmpty
    rw [String.toList_append] at hList
    exact absurd hList (List.append_ne_nil_of_left_ne_nil (by decide) _)
  · intro other hOther hFamily
    rw [hLegacy row hRow, hLegacy other hOther] at hFamily
    have hDigits := String.append_right_inj _ |>.mp hFamily
    apply Table.eq_of_key hOther hRow
    exact toString_injective_of_pos (Table.positive _ _ hOther) (Table.positive _ _ hRow) hDigits

/-- What every content of an older version keeps. -/
structure DataKept (base : Nat) (before after : StoredDatabase) : Prop where
  users : after.users = before.users
  auditEvents : ∀ events, before.auditEvents = some events → after.auditEvents = some events
  sessions : ∀ table, before.authSessions = some table → ∃ table', after.authSessions = some table' ∧
    table'.sessions.sequence = table.sessions.sequence ∧
      table'.sessions.rows.map withoutFamily = table.sessions.rows.map withoutFamily ∧ (4 ≤ base → table' = table)
  /-- Sessions of the versions without the column have families of their own. -/
  families : base < 4 → ∀ table, after.authSessions = some table → ∀ row ∈ table.sessions.rows,
    row.tokenFamilyId ≠ "" ∧
      ∀ other ∈ table.sessions.rows, other.tokenFamilyId = row.tokenFamilyId → other = row
  roles : ∃ tables, Shows after tables ∧ ∀ u ∈ tables.users.rows, tables.hasRole u.id "user" = true ∧
    (tables.hasRole u.id "super_admin" = true ↔ u.role = "admin")

/-- The migrations lose nothing of an existing database. -/
theorem run_keeps_data {start : Versioned StoredDatabase String} {base : Nat} {history : History}
    {s : Runs StoredDatabase Exception String} (hExisting : 1 ≤ base) (hOld : base ≤ 4)
    (hRecorded : Recorded migrations base start) (hStart : AtVersion base start.content)
    (hRun : Run (partialStep step) { database := start } history s) {run : Nat}
    (hFinished : s.phases[run]? = some .finished) : DataKept base start.content s.database.content := by
  obtain ⟨version, hMigrated⟩ := run_migrations hRecorded hStart hRun
  obtain rfl : version = 5 := hMigrated.finished run hFinished
  have hCarried := carried_of_applied hStart hMigrated.applied
  constructor
  · exact hCarried.users hExisting
  · intro events hEvents
    have hBase : 3 ≤ base := by
      apply of_decide_eq_true
      rw [← hStart.auditEvents, hEvents]
      rfl
    exact (hCarried.auditEvents hBase).trans hEvents
  · intro table hTable
    have hBase : 2 ≤ base := by
      apply of_decide_eq_true
      rw [← hStart.authSessions, hTable]
      rfl
    obtain hEarly | hLate := Nat.lt_or_ge base 4
    · obtain ⟨sessions, hAfter, hBefore⟩ := hCarried.families hEarly (by decide)
      cases (hBefore hBase).symm.trans hTable
      exact ⟨_, hAfter, rfl, withoutFamily_addRefreshTokenFamilies sessions, fun hFour => by omega⟩
    · exact ⟨table, (hCarried.later hLate).trans hTable, rfl, rfl, fun _ => rfl⟩
  · intro hEarly table hTable row hRow
    obtain ⟨sessions, hAfter, -⟩ := hCarried.families hEarly (by decide)
    cases hAfter.symm.trans hTable
    exact legacy_families sessions hRow
  · obtain ⟨users, sessions, now, now', hShows⟩ := hCarried.roles (by omega) (by decide)
    refine ⟨_, hShows, fun u hu => ?_⟩
    have hUsers : (Migration.createRbac users sessions now now').users = users := by
      rw [createRbac_eq]
      rfl
    rw [hUsers] at hu
    rw [Migration.hasRole_createRbac users sessions now now' hu,
      Migration.hasRole_createRbac users sessions now now' hu]
    simp

/-- The run has returned. -/
def isFinished : Phase StoredDatabase Exception String → Bool
  | .finished => true
  | _ => false

theorem finished_of_phases {phases : List (Phase StoredDatabase Exception String)}
    (h : phases.map isFinished = [true]) : phases[0]? = some .finished := by
  obtain ⟨phase, rfl, hFinished⟩ := List.map_eq_singleton_iff.mp h
  cases phase <;> first | rfl | cases hFinished

end MigrationRunner

namespace Sample

def legacyUsers : Table User :=
  (Table.empty.insert ⟨0, "alice", "alice@example.com", "hash", "admin", true, "then", "then"⟩).insert
    ⟨0, "bob", "bob@example.com", "hash", "user", true, "then", "then"⟩

def legacySession (name : String) : AuthSession :=
  ⟨0, 1, name ++ " access", name ++ " refresh", 10, 20, false, "then", none, "", none⟩

/-- Versions 3 and 4, with the columns of version 4 or without them. -/
def legacyDatabase (version : Nat) : Versioned StoredDatabase String :=
  ⟨some ((MigrationRunner.migrations.take version).map (fun m => ⟨m.version, m.name, "then"⟩)),
    { users := some legacyUsers
      authSessions := some ⟨decide (4 ≤ version), decide (4 ≤ version),
        (Table.empty.insert (legacySession "first")).insert (legacySession "second")⟩
      auditEvents := some Table.empty }⟩

end Sample

theorem Sample.legacyDatabase_recorded {version : Nat} (hKnown : version ≤ 5) :
    Recorded MigrationRunner.migrations version (Sample.legacyDatabase version) := by
  refine ⟨hKnown, ?_, nofun⟩
  intro rows hRows
  cases hRows
  simp only [Records, List.map_map]
  rfl

theorem MigrationRunner.run_keeps_data_sample : ∃ history s,
    trace MigrationRunner.step { database := Sample.legacyDatabase 3 }
        (.started :: List.replicate 29 (.ran 0 "now")) [] = some (history, s) ∧
      MigrationRunner.DataKept 3 (Sample.legacyDatabase 3).content s.database.content := by
  have hSome : (trace MigrationRunner.step { database := Sample.legacyDatabase 3 }
      (.started :: List.replicate 29 (.ran 0 "now")) []).map
        (fun result => result.2.phases.map MigrationRunner.isFinished) = some [true] := by
    decide +kernel
  obtain ⟨⟨history, s⟩, hTrace, hPhases⟩ := Option.map_eq_some_iff.mp hSome
  have hStart : AtVersion 3 (Sample.legacyDatabase 3).content :=
    ⟨rfl, rfl, fun table hTable => by cases hTable; exact ⟨rfl, rfl⟩, rfl, rfl, rfl, rfl, rfl⟩
  exact ⟨history, s, hTrace, MigrationRunner.run_keeps_data (by decide) (by decide)
    (Sample.legacyDatabase_recorded (by decide)) hStart (run_of_trace .nil hTrace)
    (MigrationRunner.finished_of_phases hPhases)⟩

/-- A session of version 4 with the default of the column keeps it. -/
theorem MigrationRunner.empty_family_stays : ∃ history s,
    Run (partialStep MigrationRunner.step) { database := Sample.legacyDatabase 4 } history s ∧
      AtVersion 4 (Sample.legacyDatabase 4).content ∧
        Recorded MigrationRunner.migrations 4 (Sample.legacyDatabase 4) ∧ s.phases[0]? = some .finished ∧
          ∃ table, s.database.content.authSessions = some table ∧
            table.sessions.rows.map AuthSession.tokenFamilyId = ["", ""] := by
  have hSome : (trace MigrationRunner.step { database := Sample.legacyDatabase 4 }
      (.started :: List.replicate 22 (.ran 0 "now")) []).map (fun result =>
        (result.2.phases.map MigrationRunner.isFinished, result.2.database.content.authSessions.map
          (fun table => table.sessions.rows.map AuthSession.tokenFamilyId))) = some ([true], some ["", ""]) := by
    decide +kernel
  obtain ⟨⟨history, s⟩, hTrace, hEnd⟩ := Option.map_eq_some_iff.mp hSome
  obtain ⟨hPhases, hFamilies⟩ := Prod.mk.inj hEnd
  obtain ⟨table, hTable, hRows⟩ := Option.map_eq_some_iff.mp hFamilies
  have hStart : AtVersion 4 (Sample.legacyDatabase 4).content :=
    ⟨rfl, rfl, fun table hTable => by cases hTable; exact ⟨rfl, rfl⟩, rfl, rfl, rfl, rfl, rfl⟩
  exact ⟨history, s, run_of_trace .nil hTrace, hStart,
    Sample.legacyDatabase_recorded (by decide), MigrationRunner.finished_of_phases hPhases,
    table, hTable, hRows⟩

end SecureCore
