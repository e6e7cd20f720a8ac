import SecureCore.System.Discipline

/-! # Rules for calls

One rule for each function that a call is made of. `Φ` is what every access must
satisfy, `Z` what holds when the call throws. -/

namespace SecureCore

set_option autoImplicit false

open Interleaving Relational Transaction

/-- `past'` is `past` with accesses on top that saw and changed nothing. -/
structure Extends (past past' : List (Act World Event)) : Prop where
  suffix : past <:+ past'
  observed : observed past' = observed past
  silent : ∀ act ∈ past', act ∈ past ∨ act.after.database = act.before.database

namespace Extends

variable {past past' past'' : List (Act World Event)}

theorem refl (past : List (Act World Event)) : Extends past past :=
  ⟨List.suffix_refl past, rfl, fun _ h => Or.inl h⟩

theorem cons (h : Extends past past') {act : Act World Event} (hEvents : act.events = [])
    (hSame : act.after.database = act.before.database) : Extends past (act :: past') := by
  refine ⟨h.suffix.trans (List.suffix_cons act past'), ?_, ?_⟩
  · rw [observed_cons, hEvents, List.nil_append, h.observed]
  · intro act' hAct
    rcases List.mem_cons.mp hAct with rfl | hAct
    · exact Or.inr hSame
    · exact h.silent act' hAct

theorem trans (h : Extends past past') (h' : Extends past' past'') : Extends past past'' := by
  refine ⟨h.suffix.trans h'.suffix, ?_, ?_⟩
  · rw [h'.observed, h.observed]
  · intro act hAct
    rcases h'.silent act hAct with hAct | hSame
    · exact h.silent act hAct
    · exact Or.inr hSame

theorem mem (h : Extends past past') {act : Act World Event} (hAct : act ∈ past) : act ∈ past' :=
  h.suffix.subset hAct

end Extends

/-- A discipline that lets a call read, and throw the exceptions of a failed access. -/
structure Admissible (Φ : List (Act World Event) → Act World Event → Prop)
    (Z : Exception → List (Act World Event) → Prop) : Prop where
  reads : ∀ past act, act.after.database = act.before.database → Event.writes act.events = [] →
    Φ past act
  fault : ∀ e past, e.isFault = true → Z e past

variable {Φ : List (Act World Event) → Act World Event → Prop}
variable {Z : Exception → List (Act World Event) → Prop} {past : List (Act World Event)}
variable {α β : Type}

theorem leads_discard {x : Call α} {K : Unit → List (Act World Event) → Prop}
    (h : Fallible.Leads Φ x past (fun _ past' => K () past') Z) :
    Fallible.Leads Φ (discard x) past K Z := by
  have hDiscard : (discard x : Call Unit) = x >>= fun _ => pure () := rfl
  rw [hDiscard]
  exact Fallible.leads_bind (Fallible.Leads.mono h (fun _ _ h => h)
    (fun _ _ h => Fallible.leads_pure h) (fun _ _ h => h))

theorem leads_consult {body : Surroundings → Except Exception α × List Event}
    {K : α → List (Act World Event) → Prop} (hΦ : Admissible Φ Z)
    (hEvents : ∀ env, Event.writes (body env).2 = [])
    (h : ∀ env act, act.events = (body env).2 → act.after = act.before → match (body env).1 with
      | .ok a => K a (act :: past)
      | .error e => Z e (act :: past)) :
    Fallible.Leads Φ (consult body : Call α) past K Z := by
  refine Fallible.leads_atomic (fun inputs world => ⟨hΦ.reads _ _ rfl (hEvents _), ?_⟩)
  have hAct := h (inputs 0) ⟨world, (body (inputs 0)).2, world⟩ rfl rfl
  cases hResult : (body (inputs 0)).1 <;> rw [hResult] at hAct <;>
    simpa [HasSurroundings.surroundings, hResult] using hAct

theorem leads_currentUnixTime {K : Int → List (Act World Event) → Prop} (hΦ : Admissible Φ Z)
    (h : ∀ now past', Extends past past' → K now past') :
    Fallible.Leads Φ (currentUnixTime : Call Int) past K Z := by
  refine leads_consult hΦ (fun _ => rfl) ?_
  intro env act hEvents hSame
  exact h env.systemClock _ ((Extends.refl past).cons hEvents (by rw [hSame]))

theorem leads_acquireConnection {K : Unit → List (Act World Event) → Prop} (hΦ : Admissible Φ Z)
    (h : ∀ past', Extends past past' → K () past') :
    Fallible.Leads Φ Database.acquireConnection past K Z := by
  refine leads_consult hΦ (fun env => ?_) ?_
  · cases env.failure <;> rfl
  · intro env act hEvents hSame
    cases hFailure : env.failure with
    | some code => exact hΦ.fault _ _ rfl
    | none =>
      rw [hFailure] at hEvents
      exact h _ ((Extends.refl past).cons hEvents (by rw [hSame]))

theorem leads_withProtector {process : Nat}
    {body : Surroundings → AuthAbuseProtector → α × AuthAbuseProtector}
    {K : α → List (Act World Event) → Prop} (hΦ : Admissible Φ Z)
    (h : ∀ result past', Extends past past' → K result past') :
    Fallible.Leads Φ (withProtector process body) past K Z :=
  Fallible.leads_atomic (fun _ _ =>
    ⟨hΦ.reads _ _ rfl rfl, h _ _ ((Extends.refl past).cons rfl rfl)⟩)

theorem leads_autocommit_bind {x : Sql α} {f : α → Sql β} {K : β → List (Act World Event) → Prop}
    (h : Fallible.Leads Φ (Database.autocommit x) past
      (fun a past' => Fallible.Leads Φ (Database.autocommit (f a)) past' K Z) Z) :
    Fallible.Leads Φ (Database.autocommit (x >>= f)) past K Z := by
  unfold Database.autocommit at h ⊢
  rw [Fallible.zoom_bind]
  exact Fallible.leads_bind h

theorem leads_autocommit {error : Int → Exception}
    {body : Surroundings → Database → Reply Exception Database Event α}
    {K : α → List (Act World Event) → Prop} (hΦ : Admissible Φ Z)
    (hError : ∀ code, (error code).isFault = true)
    (h : ∀ env act, act.events = (body env act.before.database).events →
      act.after.database = (body env act.before.database).state →
      Φ past act ∧ match (body env act.before.database).result with
        | .ok a => K a (act :: past)
        | .error e => Z e (act :: past)) :
    Fallible.Leads Φ (Database.autocommit (Sql.statement error body)) past K Z := by
  unfold Database.autocommit Sql.statement
  rw [Fallible.zoom_atomic]
  refine Fallible.leads_atomic (fun inputs world => ?_)
  cases hFailure : (inputs 0).failure with
  | some code =>
    simp only
    exact ⟨hΦ.reads _ _ rfl rfl, hΦ.fault _ _ (hError code)⟩
  | none =>
    let reply := body (inputs 0) world.database
    have hAct := h (inputs 0) ⟨world, reply.events, world.withDatabase reply.state⟩ rfl rfl
    cases hResult : reply.result <;> simp only [reply] at hResult <;> rw [hResult] at hAct <;>
      simpa only [hResult] using hAct

theorem leads_withLockedHandle {body : Sql α} {K : α → List (Act World Event) → Prop}
    (hΦ : Admissible Φ Z)
    (h : ∀ past', Extends past past' → Fallible.Leads Φ (Database.autocommit body) past' K Z) :
    Fallible.Leads Φ (Database.withLockedHandle body) past K Z :=
  Fallible.leads_bind (leads_acquireConnection hΦ h)

/-- One statement on a connection of its own. -/
theorem leads_statement {error : Int → Exception}
    {body : Surroundings → Database → Reply Exception Database Event α}
    {K : α → List (Act World Event) → Prop} (hΦ : Admissible Φ Z)
    (hError : ∀ code, (error code).isFault = true)
    (h : ∀ env act past', Extends past past' →
      act.events = (body env act.before.database).events →
      act.after.database = (body env act.before.database).state →
      Φ past' act ∧ match (body env act.before.database).result with
        | .ok a => K a (act :: past')
        | .error e => Z e (act :: past')) :
    Fallible.Leads Φ (Database.withLockedHandle (Sql.statement error body)) past K Z :=
  leads_withLockedHandle hΦ (fun past' hPast =>
    leads_autocommit hΦ hError (fun env act => h env act past' hPast))

theorem leads_select {error : Int → Exception} {query : Database → α} {events : α → List Event}
    {K : α → List (Act World Event) → Prop} (hΦ : Admissible Φ Z)
    (hError : ∀ code, (error code).isFault = true)
    (hEvents : ∀ a, Event.writes (events a) = [])
    (h : ∀ act past', Extends past past' → act.events = events (query act.before.database) →
      K (query act.before.database) (act :: past')) :
    Fallible.Leads Φ (Database.withLockedHandle (Sql.select error query events)) past K Z := by
  refine leads_statement hΦ hError ?_
  intro env act past' hPast hActEvents hAfter
  refine ⟨hΦ.reads _ _ hAfter ?_, h act past' hPast hActEvents⟩
  rw [hActEvents]
  exact hEvents _

/-- A transaction that does not commit leaves the database as it is. -/
theorem leads_settled {body : Tx α} {E : Database → Except Exception α → Database → List Event → Prop}
    {Y : Exception → Prop} {K : α → List (Act World Event) → Prop} (hΦ : Admissible Φ Z)
    (hSettles : ∀ db, Settles body db db [] Y (E db))
    (hFault : ∀ e : Exception, e.isFault = true → Y e)
    (hAborted : ∀ e act past', Extends past past' → Y e → act.after.database = act.before.database →
      Event.writes act.events = [] → Z e (act :: past'))
    (h : ∀ r act past', Extends past past' →
      E act.before.database r act.after.database (Event.writes act.events) →
      Φ past' act ∧ match r with
        | .ok a => K a (act :: past')
        | .error e => Z e (act :: past')) :
    Fallible.Leads Φ (Database.transaction body) past K Z := by
  refine Fallible.leads_bind (leads_acquireConnection hΦ ?_)
  intro past' hPast
  refine Fallible.leads_atomic (fun inputs world => ?_)
  rcases execute_of_settles (hSettles world.database) (fun _ => hFault _ rfl) inputs with
    ⟨hState, hEvents, e, hResult, hY⟩ | hDone
  · have hSilent : Event.writes (execute body inputs world.database).events = [] := by
      rw [hEvents, Event.writes_nil]
    simp only [hResult]
    exact ⟨hΦ.reads _ _ hState hSilent, hAborted e _ _ hPast hY hState hSilent⟩
  · have hAct := h (execute body inputs world.database).result
      ⟨world, _, world.withDatabase (execute body inputs world.database).state⟩ past' hPast hDone
    cases hResult : (execute body inputs world.database).result <;> rw [hResult] at hAct <;>
      simpa only [hResult] using hAct

theorem leads_transaction {body : Tx α} {E : Database → Except Exception α → Database → List Event → Prop}
    {Y : Exception → Prop} {K : α → List (Act World Event) → Prop} (hΦ : Admissible Φ Z)
    (hSettles : ∀ db, Settles body db db [] Y (E db))
    (hFault : ∀ e : Exception, e.isFault = true → Y e) (hAborted : ∀ e past', Y e → Z e past')
    (h : ∀ r act past', Extends past past' →
      E act.before.database r act.after.database (Event.writes act.events) →
      Φ past' act ∧ match r with
        | .ok a => K a (act :: past')
        | .error e => Z e (act :: past')) :
    Fallible.Leads Φ (Database.transaction body) past K Z :=
  leads_settled hΦ hSettles hFault (fun e _ _ _ hY _ _ => hAborted e _ hY) h

end SecureCore
