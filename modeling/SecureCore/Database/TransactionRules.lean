import SecureCore.Database.Changes

/-! # Rules for transactions

`Works` is for the parts of a transaction that leave it open, `Settles` for a part
that ends it: the transaction is rolled back and the call throws, or it commits.
Both follow the writes of the log only. -/

namespace SecureCore

set_option autoImplicit false

open Interleaving

theorem ensures_statement {α : Type} {error : Int → Exception}
    {body : Surroundings → Database → Reply Exception Database Event α} {db : Database}
    {Q : Except Exception α → Database → List Event → Prop}
    (hFailure : ∀ code, Q (.error (error code)) db [])
    (hBody : ∀ env, Q (body env db).result (body env db).state (body env db).events) :
    (Sql.statement error body).Ensures db Q := by
  refine Fallible.ensures_atomic.mpr ?_
  intro env
  cases hEnv : env.failure with
  | some code => simpa [hEnv] using hFailure code
  | none => simpa [hEnv] using hBody env

theorem ensures_select {α : Type} {error : Int → Exception} {query : Database → α}
    {events : α → List Event} {db : Database}
    {Q : Except Exception α → Database → List Event → Prop}
    (hFailure : ∀ code, Q (.error (error code)) db [])
    (hQuery : Q (.ok (query db)) db (events (query db))) :
    (Sql.select error query events).Ensures db Q :=
  ensures_statement hFailure (fun _ => hQuery)

namespace Transaction

variable {α β : Type} {durable working : Database} {log : List Event}

/-- From an active transaction with this working state and these writes, `x` leaves
the transaction active; on return `K` holds, on an exception `Z`. -/
def Works (x : Tx α) (durable working : Database) (log : List Event)
    (K : α → Database → List Event → Prop) (Z : Exception → Database → List Event → Prop) : Prop :=
  x.Ensures ⟨durable, working, .active⟩ (fun r t events =>
    t.status = .active ∧ t.durable = durable ∧ match r with
      | .ok a => K a t.working (log ++ Event.writes events)
      | .error e => Z e t.working (log ++ Event.writes events))

/-- `x` ends the transaction: with an exception in `Z` it is rolled back, otherwise
it commits and `E` relates the answer, the database and the writes. -/
def Settles (x : Tx α) (durable working : Database) (log : List Event)
    (Z : Exception → Prop) (E : Except Exception α → Database → List Event → Prop) : Prop :=
  x.Ensures ⟨durable, working, .active⟩ (fun r t events =>
    (t.status = .active ∧ t.durable = durable ∧ ∃ e, r = .error e ∧ Z e) ∨
      (t.status = .committed ∧ E r t.durable (log ++ Event.writes events)))

section works

variable {K : α → Database → List Event → Prop} {Z : Exception → Database → List Event → Prop}

theorem works_pure {a : α} (h : K a working log) : Works (pure a) durable working log K Z :=
  Fallible.ensures_pure.mpr ⟨rfl, rfl, by simpa using h⟩

theorem works_throw {e : Exception} (h : Z e working log) :
    Works (throw e : Tx α) durable working log K Z :=
  Fallible.ensures_throw.mpr ⟨rfl, rfl, by simpa using h⟩

theorem Works.mono {x : Tx α} {L : α → Database → List Event → Prop}
    {Y : Exception → Database → List Event → Prop} (h : Works x durable working log K Z)
    (hKL : ∀ a db events, K a db events → L a db events)
    (hZY : ∀ e db events, Z e db events → Y e db events) : Works x durable working log L Y := by
  refine Fallible.Ensures.mono h ?_
  rintro r t events ⟨hActive, hDurable, hPost⟩
  refine ⟨hActive, hDurable, ?_⟩
  cases r with
  | ok a => exact hKL a _ _ hPost
  | error e => exact hZY e _ _ hPost

theorem works_bind {x : Tx α} {f : α → Tx β} {L : β → Database → List Event → Prop}
    (h : Works x durable working log (fun a db events => Works (f a) durable db events L Z) Z) :
    Works (x >>= f) durable working log L Z := by
  refine Fallible.ensures_bind.mpr (Fallible.Ensures.mono h ?_)
  rintro r ⟨durable', working', status⟩ events ⟨hActive, hDurable, hPost⟩
  simp only at hActive hDurable
  subst hActive hDurable
  cases r with
  | ok a =>
    refine Fallible.Ensures.mono hPost ?_
    rintro r t events' ⟨hActive, hDurable, hPost⟩
    exact ⟨hActive, hDurable, by simpa [List.append_assoc] using hPost⟩
  | error e => exact ⟨rfl, rfl, hPost⟩

theorem works_tryCatch {x : Tx α} {handler : Exception → Tx α}
    (h : Works x durable working log K (fun e db events => Works (handler e) durable db events K Z)) :
    Works (tryCatch x handler) durable working log K Z := by
  refine Fallible.ensures_tryCatch.mpr (Fallible.Ensures.mono h ?_)
  rintro r ⟨durable', working', status⟩ events ⟨hActive, hDurable, hPost⟩
  simp only at hActive hDurable
  subst hActive hDurable
  cases r with
  | ok a => exact ⟨rfl, rfl, hPost⟩
  | error e =>
    refine Fallible.Ensures.mono hPost ?_
    rintro r t events' ⟨hActive, hDurable, hPost⟩
    exact ⟨hActive, hDurable, by simpa [List.append_assoc] using hPost⟩

theorem works_throwIf {condition : Bool} {e : Exception} {L : Unit → Database → List Event → Prop}
    (hThrow : condition = true → Z e working log) (hGo : condition = false → L () working log) :
    Works (Fallible.throwIf condition e) durable working log L Z := by
  cases condition with
  | true => exact works_throw (hThrow rfl)
  | false => exact works_pure (hGo rfl)

theorem works_consult {body : Surroundings → Except Exception α × List Event}
    (h : ∀ env, match (body env).1 with
      | .ok a => K a working (log ++ Event.writes (body env).2)
      | .error e => Z e working (log ++ Event.writes (body env).2)) :
    Works (consult body : Tx α) durable working log K Z :=
  Fallible.ensures_atomic.mpr (fun env => ⟨rfl, rfl, h env⟩)

theorem works_perform {body : Sql α}
    (h : body.Ensures working (fun r db events => match r with
      | .ok a => K a db (log ++ Event.writes events)
      | .error e => Z e db (log ++ Event.writes events))) :
    Works (perform body) durable working log K Z := by
  refine Fallible.ensures_bind.mpr (Fallible.ensures_atomic.mpr (fun _ => ?_))
  have hZoom : (Fallible.zoom Transaction.working withWorking id body).Ensures
      ⟨durable, working, .active⟩ (fun r t events =>
        t.status = .active ∧ t.durable = durable ∧ match r with
          | .ok a => K a t.working (log ++ Event.writes events)
          | .error e => Z e t.working (log ++ Event.writes events)) := by
    apply Fallible.ensures_zoom
    · exact fun _ _ => rfl
    · exact fun _ _ _ => rfl
    · exact fun _ => rfl
    · exact Fallible.Ensures.mono h (fun r db events hPost => ⟨rfl, rfl, hPost⟩)
  exact hZoom

theorem works_select {error : Int → Exception} {query : Database → α} {events : α → List Event}
    (hFailure : ∀ code, Z (error code) working log)
    (hQuery : K (query working) working (log ++ Event.writes (events (query working)))) :
    Works (perform (Sql.select error query events)) durable working log K Z :=
  works_perform (ensures_select (fun code => by simpa using hFailure code) hQuery)

end works

section settles

variable {Z : Exception → Prop} {E : Except Exception α → Database → List Event → Prop}

theorem settles_throw {e : Exception} (h : Z e) :
    Settles (throw e : Tx α) durable working log Z E :=
  Fallible.ensures_throw.mpr (Or.inl ⟨rfl, rfl, e, rfl, h⟩)

theorem settles_bind {x : Tx β} {f : β → Tx α}
    (h : Works x durable working log (fun b db events => Settles (f b) durable db events Z E)
      (fun e _ _ => Z e)) :
    Settles (x >>= f) durable working log Z E := by
  refine Fallible.ensures_bind.mpr (Fallible.Ensures.mono h ?_)
  rintro r ⟨durable', working', status⟩ events ⟨hActive, hDurable, hPost⟩
  simp only at hActive hDurable
  subst hActive hDurable
  cases r with
  | ok b =>
    refine Fallible.Ensures.mono hPost ?_
    rintro r t events' (hOpen | ⟨hCommitted, hE⟩)
    · exact Or.inl hOpen
    · exact Or.inr ⟨hCommitted, by simpa [List.append_assoc] using hE⟩
  | error e => exact Or.inl ⟨rfl, rfl, e, rfl, hPost⟩

theorem Settles.mono {x : Tx α} {Y : Exception → Prop}
    {F : Except Exception α → Database → List Event → Prop}
    (h : Settles x durable working log Z E) (hZY : ∀ e, Z e → Y e)
    (hEF : ∀ r db events, E r db events → F r db events) : Settles x durable working log Y F := by
  refine Fallible.Ensures.mono h ?_
  rintro r t events (⟨hActive, hDurable, e, hResult, hZ⟩ | ⟨hCommitted, hE⟩)
  · exact Or.inl ⟨hActive, hDurable, e, hResult, hZY e hZ⟩
  · exact Or.inr ⟨hCommitted, hEF _ _ _ hE⟩

theorem settles_commit {rest : Tx α} {r : Except Exception α} (hRest : rest.run = pure r)
    (hFailure : ∀ code, Z (.databaseError "Committing database transaction" code))
    (h : E r working (log ++ [.committed])) :
    Settles (commit >>= fun _ => rest) durable working log Z E := by
  refine Fallible.ensures_bind.mpr (Fallible.ensures_bind.mpr
    (Fallible.ensures_atomic.mpr (fun _ => Fallible.ensures_atomic.mpr (fun env => ?_))))
  cases hEnv : env.failure with
  | some code => exact Or.inl ⟨rfl, rfl, _, rfl, hFailure code⟩
  | none =>
    simp only [Fallible.Ensures, hRest, if_true]
    exact Or.inr ⟨rfl, by simpa using h⟩

theorem settles_tryCatch {x : Tx α} {handler : Exception → Exception}
    (h : Settles x durable working log (fun e => Z (handler e))
      (fun r db events => ∃ a, r = .ok a ∧ E r db events)) :
    Settles (tryCatch x (fun e => throw (handler e))) durable working log Z E := by
  refine Fallible.ensures_tryCatch.mpr (Fallible.Ensures.mono h ?_)
  rintro r t events (⟨hActive, hDurable, e, rfl, hZ⟩ | ⟨hCommitted, a, rfl, hE⟩)
  · exact Fallible.ensures_throw.mpr (Or.inl ⟨hActive, hDurable, _, rfl, hZ⟩)
  · exact Or.inr ⟨hCommitted, hE⟩

/-- How a transaction ends whose body settles. -/
theorem execute_of_settles {x : Tx α} {db : Database} (h : Settles x db db [] Z E)
    (hFailure : ∀ code, Z (.databaseError "Beginning database transaction" code))
    (inputs : Nat → Surroundings) :
    ((execute x inputs db).state = db ∧ (execute x inputs db).events = [] ∧
      ∃ e, (execute x inputs db).result = .error e ∧ Z e) ∨
    E (execute x inputs db).result (execute x inputs db).state
      (Event.writes (execute x inputs db).events) := by
  have hRun : (begin >>= fun _ => x).Ensures (fresh db) (fun r t events =>
      (t.status ≠ .committed ∧ t.durable = db ∧ ∃ e, r = .error e ∧ Z e) ∨
        (t.status = .committed ∧ E r t.durable (Event.writes events))) := by
    refine Fallible.ensures_bind.mpr (Fallible.ensures_atomic.mpr (fun env => ?_))
    cases hEnv : env.failure with
    | some code => exact Or.inl ⟨by simp [fresh], rfl, _, rfl, hFailure code⟩
    | none =>
      refine Fallible.Ensures.mono h ?_
      rintro r t events (⟨hActive, hDurable, hError⟩ | hDone)
      · exact Or.inl ⟨by simp [hActive], hDurable, hError⟩
      · exact Or.inr hDone
  have hEnd := Process.Ensures.run hRun inputs
  unfold execute
  rcases hEnd with ⟨hStatus, hDurable, hError⟩ | ⟨hStatus, hE⟩
  · exact Or.inl ⟨hDurable, by simp only [if_neg hStatus], hError⟩
  · exact Or.inr (by simpa only [if_pos hStatus] using hE)

end settles

end Transaction

end SecureCore
