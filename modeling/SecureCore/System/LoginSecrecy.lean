import SecureCore.Interleaving.Twins
import SecureCore.System.LoginThrottling

/-! # What a failed login tells

login verifies a dummy hash where the name is nobody's. Whoever guesses sees the answers, how
many accesses each took and, through Retry-After, the protector. None of it depends on whether
the name is that of a user, of a disabled user or of nobody. -/

namespace SecureCore

set_option autoImplicit false

open Interleaving

/-- Verifying a password against a hash, the slow step of a login. -/
def Event.isPasswordCheck : Event → Bool
  | .passwordChecked _ _ => true
  | _ => false

/-- A login by somebody who does not know the password. -/
structure Guess where
  login : String
  password : String
  clientIp : String
  deriving DecidableEq, Repr

namespace Guess

variable (service : AuthService) (guess : Guess)

def call : Process (Nat → Surroundings) World Event (Except Exception LoginResult) :=
  (service.login guess.login guess.password guess.clientIp).run

/-- The name is nobody's or the password is wrong. -/
def FailsIn (db : Database) : Prop :=
  ∀ user ∈ db.findUserByLogin (trimCopy guess.login),
    PasswordHasher.matchesHash service.sodium guess.password user.passwordHash = false

instance (db : Database) : Decidable (guess.FailsIn service db) :=
  inferInstanceAs (Decidable (∀ user ∈ db.findUserByLogin (trimCopy guess.login),
    PasswordHasher.matchesHash service.sodium guess.password user.passwordHash = false))

end Guess

/-- Two worlds that differ in no more than what no right password opens. -/
structure Veiled (service : AuthService) (guesses : List Guess) (w w' : World) : Prop where
  protector : w.protectors service.process = w'.protectors service.process
  fails : ∀ guess ∈ guesses, guess.FailsIn service w.database
  fails' : ∀ guess ∈ guesses, guess.FailsIn service w'.database

section calls

variable {service : AuthService} {guesses : List Guess}

theorem twins_consult {α : Type} {body body' : Surroundings → Except Exception α × List Event}
    {K : α → α → Prop} (h : ∀ env,
      (body env).2.map Event.isPasswordCheck = (body' env).2.map Event.isPasswordCheck ∧
      Fallible.Alike K (body env).1 (body' env).1) :
    Fallible.Twins (Veiled service guesses) Event.isPasswordCheck K (consult body : Call α) (consult body') := by
  apply Fallible.twins_atomic
  intro i w w' hVeiled
  exact ⟨hVeiled, h (i 0)⟩

theorem twins_withProtector {α : Type} (body : Surroundings → AuthAbuseProtector → α × AuthAbuseProtector) :
    Fallible.Twins (Veiled service guesses) Event.isPasswordCheck (fun a b => a = b)
      (withProtector service.process body)
      (withProtector service.process body) := by
  apply Fallible.twins_atomic
  intro i w w' hVeiled
  simp only [hVeiled.protector]
  refine ⟨⟨?_, hVeiled.fails, hVeiled.fails'⟩, trivial, rfl⟩
  simp only [Function.update_self]

/-- The rows that the two calls read may differ, but the password opens neither. -/
theorem twins_findByLogin {guess : Guess} (hGuess : guess ∈ guesses) :
    Fallible.Twins (Veiled service guesses) Event.isPasswordCheck
      (fun user user' => ∀ row, user = some row ∨ user' = some row →
        PasswordHasher.matchesHash service.sodium guess.password row.passwordHash = false)
      (UserRepository.findByLogin (trimCopy guess.login))
      (UserRepository.findByLogin (trimCopy guess.login)) := by
  unfold UserRepository.findByLogin Database.withLockedHandle Database.acquireConnection
  apply Fallible.twins_bind (K := fun _ _ => True)
  · apply twins_consult
    intro env
    cases env.failure with
    | none => exact ⟨rfl, trivial⟩
    | some code => exact ⟨rfl, rfl⟩
  · intro _ _ _
    unfold Database.autocommit Sql.select Sql.statement
    rw [Fallible.zoom_atomic]
    apply Fallible.twins_atomic
    intro i w w' hVeiled
    cases (i 0).failure with
    | some code => exact ⟨hVeiled, rfl, rfl⟩
    | none =>
      refine ⟨hVeiled, rfl, ?_⟩
      rintro row (hRow | hRow)
      · exact hVeiled.fails guess hGuess row hRow
      · exact hVeiled.fails' guess hGuess row hRow

variable (service guesses) in
theorem twins_rejectLogin (login clientIp : String) :
    Fallible.Twins (Veiled service guesses) Event.isPasswordCheck (fun a b => a = b)
      (service.rejectLogin login clientIp)
      (service.rejectLogin login clientIp) := by
  apply Fallible.twins_bind (twins_withProtector _)
  rintro after _ rfl
  apply Fallible.twins_bind (Fallible.twins_throwIf _ _)
  intro _ _ _
  exact Fallible.twins_throw _

theorem twins_lookUp {guess : Guess} (hGuess : guess ∈ guesses) (clientIp : String) :
    Fallible.Twins (Veiled service guesses) Event.isPasswordCheck (fun a b => a = b)
      (lookUp service (trimCopy guess.login) guess.password clientIp)
      (lookUp service (trimCopy guess.login) guess.password clientIp) := by
  apply Fallible.twins_bind (twins_findByLogin hGuess)
  intro user user' hUsers
  apply Fallible.twins_bind (K := fun valid valid' =>
    (∀ row, user = some row → valid = false) ∧ ∀ row, user' = some row → valid' = false)
  · apply twins_consult
    intro env
    refine ⟨rfl, ?_, ?_⟩
    · rintro row rfl
      exact hUsers row (.inl rfl)
    · rintro row rfl
      exact hUsers row (.inr rfl)
  · rintro valid valid' ⟨hValid, hValid'⟩
    -- a name that is nobody's is rejected whatever the dummy hash verifies
    have hReject := twins_rejectLogin service guesses (trimCopy guess.login) clientIp
    cases user with
    | none =>
      cases user' with
      | none => exact hReject
      | some row' =>
        obtain rfl := hValid' row' rfl
        exact hReject
    | some row =>
      obtain rfl := hValid row rfl
      cases user' with
      | none => exact hReject
      | some row' =>
        obtain rfl := hValid' row' rfl
        exact hReject

theorem twins_login (guess : Guess) (hGuess : guess ∈ guesses) :
    Fallible.Twins (Veiled service guesses) Event.isPasswordCheck (fun a b => a = b)
      (service.login guess.login guess.password guess.clientIp)
      (service.login guess.login guess.password guess.clientIp) := by
  unfold AuthService.login
  dsimp only
  apply Fallible.twins_bind (Fallible.twins_throwIf _ _)
  intro _ _ _
  apply Fallible.twins_bind (twins_withProtector _)
  rintro before _ rfl
  apply Fallible.twins_bind (Fallible.twins_throwIf _ _)
  intro _ _ _
  exact twins_lookUp hGuess _

variable (service guesses) in
theorem twins_series : (Process.series (guesses.map (Guess.call service))).Twins (Veiled service guesses)
    Event.isPasswordCheck (fun a b => a = b) (Process.series (guesses.map (Guess.call service))) := by
  apply Process.twins_series
  intro guess hGuess
  unfold Guess.call
  exact (twins_login guess hGuess).process

end calls

/-- Any number of wrong guesses, whatever happens between their accesses: where the worlds that the
accesses meet agree in the protector, the guesses are answered alike, access by access they verify as
many passwords, and each access leaves equal protectors. Alone, they end with equal protectors too. -/
theorem failed_logins_reveal_no_account (service : AuthService) (guesses : List Guess)
    (inputs : Nat → Nat → Surroundings) (states states' : Nat → World)
    (hVeiled : ∀ n, Veiled service guesses (states n) (states' n)) :
    let attempts := Process.series (guesses.map (Guess.call service))
    let ran := attempts.run inputs (states 0)
    let ran' := attempts.run inputs (states' 0)
    attempts.meeting inputs states = attempts.meeting inputs states' ∧
      List.Forall₂ (fun left right =>
          left.1.protectors service.process = right.1.protectors service.process ∧
            left.2.map Event.isPasswordCheck = right.2.map Event.isPasswordCheck)
        (attempts.trail inputs states) (attempts.trail inputs states') ∧
      ran.result = ran'.result ∧ ran.used = ran'.used ∧
      ran.events.map Event.isPasswordCheck = ran'.events.map Event.isPasswordCheck ∧
      ran.state.protectors service.process = ran'.state.protectors service.process := by
  intro attempts ran ran'
  have hTwins := twins_series service guesses
  obtain ⟨hResult, hState, hEvents, hUsed⟩ := hTwins.run inputs (hVeiled 0)
  refine ⟨hTwins.meeting hVeiled, ?_, hResult, hUsed, hEvents, hState.protector⟩
  exact (hTwins.trail hVeiled).imp (fun _ _ hAccess => ⟨hAccess.1.protector, hAccess.2⟩)

namespace Sample

def wrongGuesses : List Guess := [⟨"alice", "guess", "192.0.2.1"⟩, ⟨"zoe", "guess", "192.0.2.1"⟩]

/-- A world in which there is no account at all. -/
def deserted : World := { world with database := { database with users := Relational.Table.empty } }

/-- Whether there is an alice cannot be told. -/
theorem failed_logins_reveal_no_account_sample :
    let attempts := Process.series (wrongGuesses.map (Guess.call (service 0)))
    let ran := attempts.run (fun _ => calm "r") world
    let ran' := attempts.run (fun _ => calm "r") deserted
    attempts.meeting (fun _ => calm "r") (fun _ => world) =
        attempts.meeting (fun _ => calm "r") (fun _ => deserted) ∧
      List.Forall₂ (fun left right => left.1.protectors 0 = right.1.protectors 0 ∧
          left.2.map Event.isPasswordCheck = right.2.map Event.isPasswordCheck)
        (attempts.trail (fun _ => calm "r") (fun _ => world))
        (attempts.trail (fun _ => calm "r") (fun _ => deserted)) ∧
      ran.result = ran'.result ∧ ran.used = ran'.used ∧
      ran.events.map Event.isPasswordCheck = ran'.events.map Event.isPasswordCheck ∧
      ran.state.protectors 0 = ran'.state.protectors 0 :=
  failed_logins_reveal_no_account (service 0) wrongGuesses (fun _ => calm "r") (fun _ => world)
    (fun _ => deserted) (fun _ => ⟨rfl, by decide, by decide⟩)

end Sample

end SecureCore
