import SecureCore.Relational.Migrations

/-! # A run that is left alone

If no statement of a migration can fail on a store of the version before it, a run that
starts while no transaction is open reaches the last version, provided that nobody else
takes a step and nothing aborts it. -/

set_option autoImplicit false

namespace Relational

open Transition

variable {κ ε η : Type}

/-- Statements that cannot fail, whatever the environment, and what holds after them. -/
def Succeeds (P : κ → Prop) : List (η → κ → Except ε κ) → κ → Prop
  | [], content => P content
  | statement :: rest, content =>
    ∀ environment, ∃ after, statement environment content = .ok after ∧ Succeeds P rest after

theorem Succeeds.executes {P : κ → Prop} {statements : List (η → κ → Except ε κ)} {before after : κ}
    (h : Succeeds P statements before) (hExecutes : Executes statements before after) : P after := by
  induction hExecutes with
  | nil => exact h
  | cons environment hDone _ ih =>
    obtain ⟨middle, hMiddle, hRest⟩ := h environment
    cases hMiddle.symm.trans hDone
    exact ih hRest

theorem Succeeds.mono {P Q : κ → Prop} (hMono : ∀ content, P content → Q content)
    {statements : List (η → κ → Except ε κ)} {content : κ} (h : Succeeds P statements content) :
    Succeeds Q statements content := by
  induction statements generalizing content with
  | nil => exact hMono content h
  | cons statement rest ih =>
    intro environment
    obtain ⟨after, hDone, hRest⟩ := h environment
    exact ⟨after, hDone, ih hRest⟩

section completion

variable (migrations : List (Migration κ ε η)) (P : Nat → κ → Prop)

/-- No migration fails on a content of the version before it. -/
structure Viable : Prop where
  numbered : Numbered migrations
  succeeds : ∀ version migration content, migrations[version]? = some migration → P version content →
    Succeeds (P (version + 1)) migration.statements content

variable {migrations P} {start : Versioned κ η} {base version : Nat}

theorem Applied.content {database : Versioned κ η} (h : Applied migrations start base version database)
    (hViable : Viable migrations P) (hStart : P base start.content) : P version database.content := by
  induction h with
  | start => exact hStart
  | created _ ih => exact ih
  | migrated _ hNext hExecutes _ ih => exact (hViable.succeeds _ _ _ hNext ih).executes hExecutes

/-! ## How many steps are left -/

def loopSteps (current : Nat) : List (Migration κ ε η) → Nat
  | [] => 1
  | migration :: pending =>
    (if migration.version ≤ current then 1 else migration.statements.length + 3) + loopSteps current pending

variable (migrations) in
def Phase.steps (database : Versioned κ η) : Phase κ ε η → Nat
  | .creating => loopSteps (currentVersion (database.schemaMigrations.getD [])) migrations + 2
  | .reading => loopSteps (currentVersion (database.schemaMigrations.getD [])) migrations + 1
  | .looping current pending => loopSteps current pending
  | .executing current _ statements _ pending => statements.length + 2 + loopSteps current pending
  | .committing current _ _ pending => 1 + loopSteps current pending
  | .finished => 0
  | .failed _ => 0

/-! ## Alone -/

variable (migrations P) in
/-- What a run knows while nobody else has changed anything. -/
def Phase.Fresh (version : Nat) : Phase κ ε η → Prop
  | .looping current pending =>
    ∃ done, pending = migrations.drop done ∧ done ≤ version ∧ (done < version → current = version)
  | .executing _ migration statements work pending => migrations.drop version = migration :: pending ∧
      Succeeds (P (version + 1)) statements work.content
  | .failed _ => False
  | _ => True

variable (migrations P start base) in
structure Alone (run : Nat) (phase : Phase κ ε η) (version : Nat) (s : Runs κ ε η) : Prop where
  sound : Sound migrations start base version s
  own : s.phases[run]? = some phase
  free : ∀ owner, s.writer = some owner → owner = run
  fresh : phase.Fresh migrations P version
  content : P version s.database.content

variable {s : Runs κ ε η} {run : Nat} {phase : Phase κ ε η} {refusals : Refusals ε}

theorem Alone.outside (h : Alone migrations P start base run phase version s) (hOutside : ¬phase.inside) :
    s.writer = none := by
  cases hWriter : s.writer with
  | none => rfl
  | some owner =>
    obtain rfl := h.free owner hWriter
    obtain ⟨found, hFound, hInside⟩ := h.sound.writer owner hWriter
    cases h.own.symm.trans hFound
    exact absurd hInside hOutside

theorem setPhase_own (hOwn : s.phases[run]? = some phase) (next : Phase κ ε η) :
    (s.setPhase run next).phases[run]? = some next :=
  List.getElem?_set_self (List.getElem?_eq_some_iff.mp hOwn).1

theorem Sound.current (h : Sound migrations start base version s) (hNumbered : Numbered migrations)
    {rows : List (MigrationRow η)} (hTable : s.database.schemaMigrations = some rows) :
    currentVersion rows = version :=
  currentVersion_eq ((h.recorded.rows rows hTable).versions hNumbered h.recorded.known)

theorem Sound.unrecorded (h : Sound migrations start base version s) (hNumbered : Numbered migrations)
    {rows : List (MigrationRow η)} (hTable : s.database.schemaMigrations = some rows) :
    rows.any (fun row => row.version == version + 1) = false := by
  have hVersions := (h.recorded.rows rows hTable).versions hNumbered h.recorded.known
  rw [List.any_eq_false]
  intro row hRow hSame
  have hMem := List.mem_map_of_mem (f := MigrationRow.version) hRow
  rw [hVersions, beq_iff_eq.mp hSame] at hMem
  simp at hMem

/-- A step that commits nothing. -/
theorem Alone.silent (hViable : Viable migrations P) (h : Alone migrations P start base run phase version s)
    {environment : η} {s' : Runs κ ε η} {phase' : Phase κ ε η}
    (hAdvance : s.advance refusals migrations run environment phase = some (s', []))
    (hOwn : s'.phases[run]? = some phase') (hFree : s'.writer = s.writer ∨ s'.writer = some run)
    (hFresh : phase'.Fresh migrations P version) (hContent : s'.database.content = s.database.content) :
    Alone migrations P start base run phase' version s' := by
  constructor
  · obtain ⟨-, hSound⟩ | ⟨hCommitted, -⟩ :=
      h.sound.step hViable.numbered (Runs.advance_effect h.own hAdvance)
    · exact hSound
    · cases hCommitted
  · exact hOwn
  · intro owner hOwner
    obtain hSame | hSelf := hFree
    · exact h.free owner (hSame.symm.trans hOwner)
    · cases hSelf.symm.trans hOwner
      rfl
  · exact hFresh
  · rw [hContent]
    exact h.content

variable (refusals) in
/-- Alone, a run takes one step after another. -/
theorem Alone.advance (hViable : Viable migrations P) (h : Alone migrations P start base run phase version s)
    (hLeft : 0 < phase.steps migrations s.database) (environment : η) :
    ∃ s' committed phase' version', s.advance refusals migrations run environment phase = some (s', committed) ∧
      Alone migrations P start base run phase' version' s' ∧
        phase'.steps migrations s'.database + 1 = phase.steps migrations s.database := by
  cases phase with
  | creating =>
    have hWriter := h.outside not_false
    cases hTable : s.database.schemaMigrations with
    | some rows =>
      have hAdvance : s.advance refusals migrations run environment .creating =
          some (s.setPhase run .reading, []) := by
        simp only [Runs.advance, hTable]
      exact ⟨_, _, .reading, version, hAdvance,
        h.silent hViable hAdvance (setPhase_own h.own _) (.inl rfl) trivial rfl, rfl⟩
    | none =>
      have hAdvance : s.advance refusals migrations run environment .creating =
          some ({ s.setPhase run .reading with
            database := { s.database with schemaMigrations := some [] } }, []) := by
        simp only [Runs.advance, hTable, hWriter]
      refine ⟨_, _, .reading, version, hAdvance,
        h.silent hViable hAdvance (setPhase_own h.own _) (.inl rfl) trivial rfl, ?_⟩
      simp only [Phase.steps, hTable]
      rfl
  | reading =>
    obtain ⟨rows, hTable⟩ := Option.ne_none_iff_exists'.mp (h.sound.phases run _ h.own)
    have hAdvance : s.advance refusals migrations run environment .reading =
        some (s.setPhase run (.looping (currentVersion rows) migrations), []) := by
      simp only [Runs.advance, hTable]
    have hCurrent := h.sound.current hViable.numbered hTable
    refine ⟨_, _, .looping (currentVersion rows) migrations, version, hAdvance,
      h.silent hViable hAdvance (setPhase_own h.own _) (.inl rfl) ?_ rfl, ?_⟩
    · exact ⟨0, List.drop_zero.symm, Nat.zero_le _, fun _ => hCurrent⟩
    · simp only [Phase.steps, hTable, Option.getD_some]
  | looping current pending =>
    have hWriter := h.outside not_false
    obtain ⟨done, hPending, hDone, hCurrent⟩ := h.fresh
    cases pending with
    | nil =>
      have hAdvance : s.advance refusals migrations run environment (.looping current []) =
          some (s.setPhase run .finished, []) := rfl
      exact ⟨_, _, .finished, version, hAdvance,
        h.silent hViable hAdvance (setPhase_own h.own _) (.inl rfl) trivial rfl, rfl⟩
    | cons migration pending =>
      obtain ⟨hNext, hRest⟩ := getElem?_of_drop hPending.symm
      have hVersion := hViable.numbered done migration hNext
      have hKnown : current ≤ version := (h.sound.phases run _ h.own).2.1
      by_cases hOld : migration.version ≤ current
      · have hAdvance : s.advance refusals migrations run environment (.looping current (migration :: pending)) =
            some (s.setPhase run (.looping current pending), []) := by
          simp only [Runs.advance, if_pos hOld]
        refine ⟨_, _, .looping current pending, version, hAdvance,
          h.silent hViable hAdvance (setPhase_own h.own _) (.inl rfl) ?_ rfl, ?_⟩
        · exact ⟨done + 1, hRest.symm, by omega, fun hMore => hCurrent (by omega)⟩
        · simp only [Phase.steps, loopSteps, if_pos hOld]
          omega
      · obtain rfl : done = version := by
          by_contra hStale
          have hSame := hCurrent (by omega)
          omega
        have hAdvance : s.advance refusals migrations run environment (.looping current (migration :: pending)) =
            some ({ s.setPhase run (.executing current migration migration.statements s.database pending) with
              writer := some run }, []) := by
          simp only [Runs.advance, if_neg hOld, hWriter]
        refine ⟨_, _, .executing current migration migration.statements s.database pending, done, hAdvance,
          h.silent hViable hAdvance (setPhase_own h.own _) (.inr rfl) ?_ rfl, ?_⟩
        · exact ⟨hPending.symm, hViable.succeeds _ _ _ hNext h.content⟩
        · simp only [Phase.steps, loopSteps, if_neg hOld]
          omega
  | executing current migration statements work pending =>
    obtain ⟨hPending, hSucceeds⟩ := h.fresh
    obtain ⟨-, hExists, -, -, hWork, -⟩ := h.sound.phases run _ h.own
    cases statements with
    | cons statement rest =>
      obtain ⟨after, hDone, hRest⟩ := hSucceeds environment
      have hAdvance : s.advance refusals migrations run environment
          (.executing current migration (statement :: rest) work pending) =
            some (s.setPhase run (.executing current migration rest { work with content := after } pending), []) := by
        simp only [Runs.advance, hDone]
      refine ⟨_, _, .executing current migration rest { work with content := after } pending, version, hAdvance,
        h.silent hViable hAdvance (setPhase_own h.own _) (.inl rfl) ⟨hPending, hRest⟩ rfl, ?_⟩
      simp only [Phase.steps, List.length_cons]
      omega
    | nil =>
      obtain ⟨rows, hTable⟩ := Option.ne_none_iff_exists'.mp hExists
      have hNew : rows.any (fun row => row.version == migration.version) = false := by
        rw [hViable.numbered version migration (getElem?_of_drop hPending).1]
        exact h.sound.unrecorded hViable.numbered hTable
      have hAdvance : s.advance refusals migrations run environment
          (.executing current migration [] work pending) = some (s.setPhase run (.committing current migration
            { work with schemaMigrations := some (rows ++ [⟨migration.version, migration.name, environment⟩]) }
            pending), []) := by
        simp only [Runs.advance, hWork.trans hTable, hNew, Bool.false_eq_true, if_false]
      refine ⟨_, _, _, version, hAdvance,
        h.silent hViable hAdvance (setPhase_own h.own _) (.inl rfl) trivial rfl, ?_⟩
      simp only [Phase.steps, List.length_nil]
      omega
  | committing current migration work pending =>
    obtain ⟨-, hCurrent, hPending, hExecutes, -⟩ := h.sound.phases run _ h.own
    obtain ⟨hNext, hRest⟩ := getElem?_of_drop hPending
    have hSound := (h.sound.commit hViable.numbered h.own).2
    refine ⟨_, _, .looping current pending, version + 1, rfl,
      ⟨hSound, setPhase_own h.own _, (fun _ hWriter => by cases hWriter), ?_, ?_⟩, ?_⟩
    · exact ⟨version + 1, hRest.symm, Nat.le_refl _, fun hMore => absurd hMore (Nat.lt_irrefl _)⟩
    · exact (hViable.succeeds _ _ _ hNext h.content).executes hExecutes
    · simp only [Phase.steps]
      omega
  | finished => exact absurd hLeft (Nat.lt_irrefl 0)
  | failed exception => exact h.fresh.elim

theorem loopSteps_pos (current : Nat) (pending : List (Migration κ ε η)) : 0 < loopSteps current pending := by
  induction pending with
  | nil => exact Nat.one_pos
  | cons migration pending ih =>
    simp only [loopSteps]
    omega

theorem Alone.finished (h : Alone migrations P start base run phase version s)
    (hNone : phase.steps migrations s.database = 0) : phase = .finished := by
  cases phase with
  | finished => rfl
  | failed exception => exact h.fresh.elim
  | looping current pending => exact absurd hNone (Nat.ne_of_gt (loopSteps_pos current pending))
  | executing current migration statements work pending =>
    simp only [Phase.steps] at hNone
    omega
  | committing current migration work pending =>
    simp only [Phase.steps] at hNone
    omega
  | creating => cases hNone
  | reading => cases hNone

/-- Left alone, a run ends after so many steps, whatever its statements read, and the last
version is reached. -/
theorem Alone.finishes (hViable : Viable migrations P) (environments : List η)
    (h : Alone migrations P start base run phase version s)
    (older : List (Entry (Runs κ ε η) (RunEvent ε η) Nat))
    (hLength : environments.length = phase.steps migrations s.database) : ∃ history s',
    trace (Runs.step refusals migrations) s (environments.map (.ran run)) older = some (history, s') ∧
      Alone migrations P start base run .finished migrations.length s' := by
  induction environments generalizing s phase version older with
  | nil =>
    obtain rfl := h.finished hLength.symm
    have hLast : version = migrations.length := h.sound.phases run _ h.own
    exact ⟨older, s, rfl, hLast ▸ h⟩
  | cons environment rest ih =>
    rw [List.length_cons] at hLength
    obtain ⟨s', committed, phase', version', hAdvance, hNext, hSteps⟩ :=
      h.advance refusals hViable (by omega) environment
    obtain ⟨history, last, hTrace, hEnd⟩ :=
      ih hNext (⟨s, .ran run environment, committed, s'⟩ :: older) (by omega)
    have hStep : Runs.step refusals migrations s (.ran run environment) = some (s', committed) := by
      simp only [Runs.step, h.own, hAdvance]
    refine ⟨history, last, ?_, hEnd⟩
    simp only [List.map_cons, trace, hStep]
    exact hTrace

/-- A run that starts while no transaction is open. -/
theorem Sound.alone (h : Sound migrations start base version s) (hContent : P version s.database.content)
    (hFree : s.writer = none) : Alone migrations P start base s.phases.length .creating version
      { s with phases := s.phases ++ [.creating] } := by
  constructor
  · exact h.started
  · exact List.getElem?_concat_length
  · intro owner hOwner
    cases hFree.symm.trans hOwner
  · trivial
  · exact hContent

variable (refusals) in
/-- Whatever has happened before, such a run reaches the last version. -/
theorem Sound.rerun (hViable : Viable migrations P) (h : Sound migrations start base version s)
    (hContent : P version s.database.content) (hFree : s.writer = none)
    (history : List (Entry (Runs κ ε η) (RunEvent ε η) Nat)) : ∃ steps, ∀ environments : List η,
      environments.length = steps → ∃ newer s',
        trace (Runs.step refusals migrations) s (.started :: environments.map (.ran s.phases.length)) history =
          some (newer, s') ∧
            Alone migrations P start base s.phases.length .finished migrations.length s' := by
  refine ⟨Phase.steps migrations s.database (.creating : Phase κ ε η), fun environments hLength => ?_⟩
  exact (h.alone hContent hFree).finishes hViable environments
    (⟨s, .started, [], { s with phases := s.phases ++ [.creating] }⟩ :: history) hLength

/-- On a store of the last version nothing is changed any more. -/
theorem Sound.unchanged (h : Sound migrations start base migrations.length s) (hSome : 0 < migrations.length)
    {committed : List Nat} {s' : Runs κ ε η} (hEffect : s.Effect migrations committed s') :
    s'.database = s.database := by
  cases hEffect with
  | created hPhase hNone hFree => exact absurd (h.recorded.table hNone) (Nat.ne_of_gt hSome)
  | committed hPhase =>
    obtain ⟨-, -, hPending, -⟩ := h.phases _ _ hPhase
    rw [List.drop_length] at hPending
    cases hPending
  | _ => rfl

end completion

end Relational
