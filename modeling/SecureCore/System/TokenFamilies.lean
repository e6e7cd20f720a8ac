import SecureCore.Database.Migration
import SecureCore.System.Sessions
import SecureCore.System.Sample

/-! # Token families

Every family is a chain of sessions of one user, and a family in which a revoked
refresh token was presented stays dead. -/

namespace SecureCore

set_option autoImplicit false

open Interleaving Relational Lineage Transaction

variable {τ : Type}

/-! ## Fresh family ids -/

/-- The family ids that a run has drawn. -/
def drawnFamilies (history : List (Entry τ World Event)) : List String :=
  (history.flatMap (fun e => e.events)).filterMap Event.generatedFamily

@[simp] theorem drawnFamilies_cons (e : Entry τ World Event) (older : List (Entry τ World Event)) :
    drawnFamilies (e :: older) = e.events.filterMap Event.generatedFamily ++ drawnFamilies older := by
  unfold drawnFamilies
  rw [List.flatMap_cons, List.filterMap_append]

/-- Family ids are drawn at most once and are not in the database already. -/
structure FreshFamilies (start : Database) (history : List (Entry τ World Event)) : Prop where
  distinct : (drawnFamilies history).Nodup
  unused : ∀ s ∈ start.authSessions.rows, s.tokenFamilyId ∉ drawnFamilies history

instance (start : Database) (history : List (Entry τ World Event)) :
    Decidable (FreshFamilies start history) :=
  decidable_of_iff ((drawnFamilies history).Nodup ∧
      ∀ s ∈ start.authSessions.rows, s.tokenFamilyId ∉ drawnFamilies history)
    ⟨fun h => ⟨h.1, h.2⟩, fun h => ⟨h.distinct, h.unused⟩⟩

theorem FreshFamilies.tail {start : Database} {e : Entry τ World Event}
    {older : List (Entry τ World Event)} (h : FreshFamilies start (e :: older)) :
    FreshFamilies start older := by
  have hDistinct := h.distinct
  rw [drawnFamilies_cons, List.nodup_append] at hDistinct
  refine ⟨hDistinct.2.1, ?_⟩
  intro s hs hDrawn
  apply h.unused s hs
  rw [drawnFamilies_cons]
  exact List.mem_append_right _ hDrawn

theorem FreshFamilies.of_append {start : Database} {newer older : List (Entry τ World Event)}
    (h : FreshFamilies start (newer ++ older)) : FreshFamilies start older := by
  induction newer with
  | nil => exact h
  | cons e newer ih => exact ih h.tail

/-- The family has, or once had, a session. -/
def Used (start : Database) (history : List (Entry τ World Event)) (familyId : String) : Prop :=
  (∃ s ∈ start.authSessions.rows, s.tokenFamilyId = familyId) ∨
    ∃ e ∈ history, ∃ row ∈ inserted e.events,
      row.parentSessionId = none ∧ row.tokenFamilyId = familyId

theorem Used.cons {start : Database} {history : List (Entry τ World Event)} {familyId : String}
    (h : Used start history familyId) (e : Entry τ World Event) :
    Used start (e :: history) familyId :=
  h.imp id (fun ⟨e', hMem, hRow⟩ => ⟨e', List.mem_cons_of_mem _ hMem, hRow⟩)

theorem used_append {start : Database} {older : List (Entry τ World Event)} {familyId : String}
    (h : Used start older familyId) (newer : List (Entry τ World Event)) :
    Used start (newer ++ older) familyId := by
  induction newer with
  | nil => exact h
  | cons e newer ih => exact ih.cons e

/-! ## Chains -/

/-- What the sessions of every reachable database satisfy. -/
structure ChainInvariant (start db : Database) (history : List (Entry τ World Event)) : Prop where
  linear : Linear (nodes db.authSessions)
  named : ∀ s ∈ db.authSessions.rows, s.tokenFamilyId.isEmpty = false
  used : ∀ s ∈ db.authSessions.rows, Used start history s.tokenFamilyId

/-- Migration 4 makes every session that exists a family of its own. -/
def Migrated (db : Database) : Prop :=
  ∀ s ∈ db.authSessions.rows, s.parentSessionId = none ∧ s.tokenFamilyId = "legacy-" ++ toString s.id

theorem migrated_addRefreshTokenFamilies {db : Database} {authSessions : Table AuthSession}
    (h : db.authSessions = Migration.addRefreshTokenFamilies authSessions) : Migrated db := by
  intro s hs
  rw [h] at hs
  obtain ⟨added, hAdded, rfl⟩ := Table.mem_update.mp hs
  obtain ⟨old, -, rfl⟩ := Table.mem_update.mp hAdded
  exact ⟨rfl, rfl⟩

theorem toString_injective_of_pos {m n : Int} (hm : 0 < m) (hn : 0 < n) (h : toString m = toString n) :
    m = n := by
  rw [Int.toString_eq_repr, Int.toString_eq_repr, Int.repr_eq_if, Int.repr_eq_if,
    if_pos (by omega), if_pos (by omega)] at h
  have hDigits : Nat.toDigits 10 m.toNat = Nat.toDigits 10 n.toNat := by
    rw [← Nat.toList_repr, ← Nat.toList_repr, h]
  have hNat : m.toNat = n.toNat := by
    calc
      m.toNat = Nat.ofDigitChars 10 (Nat.toDigits 10 m.toNat) 0 := Nat.ofDigitChars_ten_toDigits.symm
      _ = n.toNat := by rw [hDigits, Nat.ofDigitChars_ten_toDigits]
  omega

theorem chainInvariant_of_migrated {db : Database} (h : Migrated db) :
    ChainInvariant db db ([] : List (Entry τ World Event)) := by
  have hNoParent : ∀ n ∈ nodes db.authSessions, n.parent = none := by
    rintro _ ⟨s, hs, rfl⟩
    exact (h s hs).1
  have hAlone : ∀ m ∈ nodes db.authSessions, ∀ n ∈ nodes db.authSessions, m.family = n.family →
      m = n := by
    rintro _ ⟨s, hs, rfl⟩ _ ⟨t, ht, rfl⟩ hFamily
    have hEq : s.tokenFamilyId = t.tokenFamilyId := hFamily
    rw [(h s hs).2, (h t ht).2, String.append_right_inj] at hEq
    have hId := toString_injective_of_pos (Database.session_positive hs)
      (Database.session_positive ht) hEq
    rw [Database.session_eq_of_id hs ht hId]
  refine ⟨⟨?_, ?_, ?_, ?_, ?_, ?_⟩, ?_, ?_⟩
  · rintro _ ⟨s, hs, rfl⟩ _ ⟨t, ht, rfl⟩ hId
    rw [Database.session_eq_of_id hs ht hId]
  · intro m hm n hn hFamily
    rw [hAlone m hm n hn hFamily]
  · intro m hm i hi
    rw [hNoParent m hm] at hi
    cases hi
  · intro m hm n hn hi
    rw [hNoParent m hm] at hi
    cases hi
  · intro m hm n hn i hi
    rw [hNoParent m hm] at hi
    cases hi
  · intro m hm _ n hn hFamily
    rw [hAlone n hn m hm hFamily]
  · intro s hs
    rw [(h s hs).2]
    simp
  · intro s hs
    exact Or.inl ⟨s, hs, rfl⟩

/-! ## Runs -/

variable [DecidableEq τ] {d : Deployment} {calls : τ → Operation} {world : World}

theorem generatedFamilies_cons (act : Act World Event) (past : List (Act World Event)) :
    generatedFamilies (act :: past) =
      act.events.filterMap Event.generatedFamily ++ generatedFamilies past := by
  unfold generatedFamilies
  rw [observed_cons, List.filterMap_append]

theorem generatedFamilies_append (newer older : List (Act World Event)) :
    generatedFamilies (newer ++ older) = generatedFamilies newer ++ generatedFamilies older := by
  unfold generatedFamilies observed
  rw [List.flatMap_append, List.filterMap_append]

theorem mem_insertedSessions {act : Act World Event} {past : List (Act World Event)}
    {row : AuthSession} (hMem : act ∈ past) (hRow : row ∈ inserted act.events) :
    row ∈ insertedSessions past := by
  obtain ⟨e, he, hRow⟩ := List.mem_filterMap.mp hRow
  exact List.mem_filterMap.mpr ⟨e, List.mem_flatMap.mpr ⟨act, hMem, he⟩, hRow⟩

theorem mem_drawnFamilies {t : τ} {familyId : String} {history : List (Entry τ World Event)}
    (h : familyId ∈ generatedFamilies (own t history)) : familyId ∈ drawnFamilies history := by
  induction history with
  | nil => exact h
  | cons e older ih =>
    rw [drawnFamilies_cons, List.mem_append]
    by_cases hThread : e.thread = t
    · subst hThread
      rw [own_cons_self, generatedFamilies_cons, List.mem_append] at h
      exact h.imp id ih
    · rw [own_cons_of_ne hThread] at h
      exact Or.inr (ih h)

/-- Two threads never draw the same family id. -/
theorem thread_of_drawn {t t' : τ} {familyId : String} {history : List (Entry τ World Event)}
    (hDistinct : (drawnFamilies history).Nodup) (h : familyId ∈ generatedFamilies (own t history))
    (h' : familyId ∈ generatedFamilies (own t' history)) : t = t' := by
  induction history with
  | nil => cases h
  | cons e older ih =>
    rw [drawnFamilies_cons, List.nodup_append] at hDistinct
    obtain ⟨-, hRest, hDisjoint⟩ := hDistinct
    by_contra hNe
    by_cases hThread : e.thread = t
    · subst hThread
      rw [own_cons_of_ne hNe] at h'
      rw [own_cons_self, generatedFamilies_cons, List.mem_append] at h
      rcases h with hHere | hOlder
      · exact hDisjoint _ hHere _ (mem_drawnFamilies h') rfl
      · exact hNe (ih hRest hOlder h')
    · rw [own_cons_of_ne hThread] at h
      by_cases hThread' : e.thread = t'
      · subst hThread'
        rw [own_cons_self, generatedFamilies_cons, List.mem_append] at h'
        rcases h' with hHere | hOlder
        · exact hDisjoint _ hHere _ (mem_drawnFamilies h) rfl
        · exact hNe (ih hRest h hOlder)
      · rw [own_cons_of_ne hThread'] at h'
        exact hNe (ih hRest h h')

/-- A login opens a family that has never been in use. -/
theorem root_family_unused {e : Entry τ World Event} {older : List (Entry τ World Event)}
    (h : Histories d calls world (e :: older)) (hFresh : FreshFamilies world.database (e :: older))
    {row : AuthSession} (hRow : row ∈ inserted e.events) (hRoot : row.parentSessionId = none) :
    ¬ Used world.database older row.tokenFamilyId := by
  have hLogin : ∀ {t : τ} {past : List (Act World Event)} {act : Act World Event}
      {row : AuthSession}, Obeys d (calls t) past act → row ∈ inserted act.events →
      row.parentSessionId = none → generatedFamilies past = [row.tokenFamilyId] ∧
        insertedSessions past = [] := by
    intro t past act row hObeys hRow hRoot
    rcases hObeys.inserted hRow with ⟨user, hInsert⟩ | ⟨session, hInsert⟩
    · obtain ⟨process, login, password, clientIp, -, hReady⟩ := hInsert.login
      exact ⟨hInsert.family, hReady.first⟩
    · rw [hInsert.new.parent] at hRoot
      cases hRoot
  cases h with
  | cons hOlder hBefore hDiscipline =>
    obtain ⟨hFamily, hFirst⟩ := hLogin hDiscipline hRow hRoot
    have hDrawn : row.tokenFamilyId ∈ generatedFamilies (own e.thread older) := by
      rw [hFamily]
      exact List.mem_singleton_self _
    rintro (⟨s, hs, hSame⟩ | ⟨e', hMem, row', hRow', hRoot', hSame⟩)
    · apply hFresh.tail.unused s hs
      rw [hSame]
      exact mem_drawnFamilies hDrawn
    · have hFamily' : row.tokenFamilyId ∈ generatedFamilies (own e'.thread older) := by
        obtain ⟨newer, before, rfl⟩ := List.append_of_mem hMem
        have hBefore' := (hLogin hOlder.at_entry.2 hRow' hRoot').1
        rw [own_append, own_cons_self, generatedFamilies_append, generatedFamilies_cons, hBefore', hSame]
        simp
      have hThread := thread_of_drawn hFresh.tail.distinct hDrawn hFamily'
      -- the thread of the older root has inserted already
      have hInserted : row' ∈ insertedSessions (own e.thread older) := by
        rw [hThread]
        exact mem_insertedSessions (mem_own.mpr ⟨e', hMem, rfl, rfl⟩) hRow'
      rw [hFirst] at hInserted
      cases hInserted

theorem ChainInvariant.step {e : Entry τ World Event} {older : List (Entry τ World Event)}
    (h : Histories d calls world (e :: older)) (hFresh : FreshFamilies world.database (e :: older))
    (hInvariant : ChainInvariant world.database e.before.database older) :
    ChainInvariant world.database e.after.database (e :: older) := by
  have hUnused : ∀ row ∈ inserted e.events, row.parentSessionId = none →
      ¬ Used world.database older row.tokenFamilyId :=
    fun row => root_family_unused h hFresh
  cases h with
  | cons hOlder hBefore hDiscipline =>
    have hChange := hDiscipline.sessionChange
    refine ⟨?_, ?_, ?_⟩
    · apply hInvariant.linear.step
      apply hChange.step hInvariant.named
      intro row hRow hRoot s hs hSame
      apply hUnused row hRow hRoot
      rw [← hSame]
      exact hInvariant.used s hs
    · intro s hs
      rcases hChange.mem hs with ⟨old, hOld, hContinues⟩ | hRow
      · rw [hContinues.tokenFamilyId]
        exact hInvariant.named old hOld
      · rcases hDiscipline.inserted hRow with ⟨user, hInsert⟩ | ⟨session, hInsert⟩
        · exact hInsert.new.family
        · exact hInsert.new.family
    · intro s hs
      rcases hChange.mem hs with ⟨old, hOld, hContinues⟩ | hRow
      · rw [hContinues.tokenFamilyId]
        exact (hInvariant.used old hOld).cons e
      · rcases hDiscipline.inserted hRow with ⟨user, hInsert⟩ | ⟨session, hInsert⟩
        · exact Or.inr ⟨e, List.mem_cons_self, s, hRow, hInsert.new.parent, rfl⟩
        · rw [hInsert.family (hInvariant.named session hInsert.mem)]
          exact (hInvariant.used session hInsert.mem).cons e

theorem chainInvariant_of_run {history : List (Entry τ World Event)} (hMigrated : Migrated world.database)
    (h : Histories d calls world history) (hFresh : FreshFamilies world.database history) :
    ChainInvariant world.database (stateAfter world history).database history := by
  have hRule := Execution.invariant (Φ := fun t => Obeys d (calls t)) (s := world)
    (I := fun w history => FreshFamilies world.database history →
      ChainInvariant world.database w.database history)
  apply hRule _ _ h hFresh
  · exact fun _ => chainInvariant_of_migrated hMigrated
  · intro e older hRun hBefore hFresh
    exact ChainInvariant.step hRun hFresh (hBefore hFresh.tail)

/-- The sessions of a database as one chain for every family. -/
structure LinearFamilies (db : Database) : Prop where
  user : ∀ s ∈ db.authSessions.rows, ∀ t ∈ db.authSessions.rows,
    s.tokenFamilyId = t.tokenFamilyId → s.userId = t.userId
  parent : ∀ s ∈ db.authSessions.rows, ∀ p ∈ db.authSessions.rows, s.parentSessionId = some p.id →
    p.tokenFamilyId = s.tokenFamilyId ∧ p.id < s.id ∧ p.revoked = true
  child : ∀ s ∈ db.authSessions.rows, ∀ t ∈ db.authSessions.rows, ∀ p,
    s.parentSessionId = some p → t.parentSessionId = some p → s = t
  unrevoked : ∀ s ∈ db.authSessions.rows, ∀ t ∈ db.authSessions.rows,
    s.tokenFamilyId = t.tokenFamilyId → s.revoked = false → t.revoked = false → s = t
  newest : ∀ s ∈ db.authSessions.rows, s.revoked = false → ∀ t ∈ db.authSessions.rows,
    t.tokenFamilyId = s.tokenFamilyId → t.id ≤ s.id

theorem linearFamilies_of_linear {db : Database} (h : Linear (nodes db.authSessions)) :
    LinearFamilies db where
  user s hs t ht hFamily := h.owner _ (mem_nodes hs) _ (mem_nodes ht) hFamily
  parent s hs p hp hParent := by
    obtain ⟨hFamily, hDead⟩ := h.parent _ (mem_nodes hs) _ (mem_nodes hp) hParent
    exact ⟨hFamily, h.older _ (mem_nodes hs) p.id hParent, by simpa [AuthSession.toNode] using hDead⟩
  child s hs t ht p hsp htp := by
    have hNode := h.child _ (mem_nodes hs) _ (mem_nodes ht) p hsp htp
    exact Database.session_eq_of_id hs ht (congrArg Node.id hNode)
  unrevoked s hs t ht hFamily hsLive htLive := by
    have hNode := h.live_unique (mem_nodes hs) (mem_nodes ht) hFamily hsLive htLive
    exact Database.session_eq_of_id hs ht (congrArg Node.id hNode)
  newest s hs hLive t ht hFamily := h.newest _ (mem_nodes hs) hLive _ (mem_nodes ht) hFamily

/-- In every state that any calls reach from a migrated database, every token family
is a linear chain of sessions of one user. -/
theorem families_linear (d : Deployment) (calls : τ → Operation) (world : World)
    (hMigrated : Migrated world.database) (schedule : List (τ × (Nat → Surroundings)))
    (hFresh : FreshFamilies world.database ((d.pool calls world).run schedule).history) :
    LinearFamilies ((d.pool calls world).run schedule).state.database := by
  have hRun := running_pool d calls world schedule
  rw [hRun.state]
  exact linearFamilies_of_linear (chainInvariant_of_run hMigrated hRun.execution hFresh).linear

namespace Sample

theorem migrated : Migrated Sample.world.database := by
  unfold Migrated
  decide +kernel

def familyCalls : Bool → Operation
  | false => .login 0 "alice" "old-password" "10.0.0.1"
  | true => .refresh 0 "sc_rt_alice"

def loginAroundRefresh : List (Bool × (Nat → Surroundings)) :=
  turns false 9 "a" ++ turns true 3 "b" ++ turns false 6 "a"

end Sample

theorem families_linear_sample :
    LinearFamilies ((Sample.deployment.pool Sample.familyCalls Sample.world).run
      Sample.loginAroundRefresh).state.database :=
  families_linear Sample.deployment Sample.familyCalls Sample.world Sample.migrated
    Sample.loginAroundRefresh (by decide +kernel)

/-! ## Reuse -/

/-- Every session of the family is revoked. -/
def FamilyDead (db : Database) (familyId : String) : Prop :=
  ∀ s ∈ db.authSessions.rows, s.tokenFamilyId = familyId → s.revoked = true

theorem familyDead_iff {db : Database} {familyId : String} :
    FamilyDead db familyId ↔ Dead familyId (nodes db.authSessions) := by
  constructor
  · rintro h _ ⟨s, hs, rfl⟩ hFamily hLive
    have hRevoked := h s hs hFamily
    rw [show s.revoked = false from hLive] at hRevoked
    cases hRevoked
  · intro h s hs hFamily
    have hDead := h s.toNode (mem_nodes hs) hFamily
    simpa [AuthSession.toNode] using hDead

theorem familyDead_revokeSessions (db : Database) (familyId : String)
    (revokedAt : Option String → String) :
    FamilyDead (db.revokeSessions (fun s => s.tokenFamilyId == familyId) revokedAt) familyId := by
  intro s hs hFamily
  obtain ⟨old, -, rfl⟩ := Database.mem_revokeSessions.mp hs
  rw [Database.revokedRow_tokenFamilyId] at hFamily
  simp [hFamily]

/-- A family that has been in use and is dead at some point is dead ever after. -/
theorem familyDead_from (hMigrated : Migrated world.database)
    {newer older : List (Entry τ World Event)} (h : Histories d calls world (newer ++ older))
    (hFresh : FreshFamilies world.database (newer ++ older)) {familyId : String}
    (hUsed : Used world.database older familyId)
    (hDead : FamilyDead (stateAfter world older).database familyId) :
    FamilyDead (stateAfter world (newer ++ older)).database familyId := by
  induction newer with
  | nil => exact hDead
  | cons e newer ih =>
    have hUnused : ∀ row ∈ inserted e.events, row.parentSessionId = none →
        ¬ Used world.database (newer ++ older) row.tokenFamilyId :=
      fun row => root_family_unused h hFresh
    rw [List.cons_append] at h
    obtain ⟨hOlder, hBefore, hDiscipline⟩ := h.uncons
    have hBeforeDead := ih hOlder hFresh.tail
    have hInvariant := chainInvariant_of_run hMigrated hOlder hFresh.tail
    rw [← hBefore] at hBeforeDead hInvariant
    have hChange := hDiscipline.sessionChange
    rw [List.cons_append, stateAfter_cons]
    rw [familyDead_iff] at hBeforeDead ⊢
    apply hBeforeDead.step (hChange.step hInvariant.named ?_)
    · rintro _ ⟨s, hs, rfl⟩ hNew hRoot hFamily
      rcases hChange.mem hs with ⟨old, hOld, hContinues⟩ | hRow
      · exact hNew old.toNode (mem_nodes hOld) hContinues.id.symm
      · apply hUnused s hRow hRoot
        have hSame : s.tokenFamilyId = familyId := hFamily
        rw [hSame]
        exact used_append hUsed newer
    · intro row hRow hRoot s hs hSame
      apply hUnused row hRow hRoot
      rw [← hSame]
      exact hInvariant.used s hs

/-- Without failures the transaction of refresh ends with the reuse of a revoked token. -/
theorem execute_refreshIn_of_revoked (service : AuthService) {db : Database} {tokenHash : String}
    (hHash : tokenHash.isEmpty = false) {session : AuthSession}
    (hFound : db.findSessionByRefreshTokenHash tokenHash = some session)
    (hRevoked : session.revoked = true) (hFamily : session.tokenFamilyId.isEmpty = false) (now : Int)
    {inputs : Nat → Surroundings} (hCalm : ∀ n, (inputs n).failure = none) :
    (execute (service.refreshIn tokenHash now) inputs db).result =
      .error AuthService.refreshTokenReused := by
  have hFind : AuthSessionRepository.findByRefreshTokenHashIn tokenHash = perform (Sql.select
      (.authSessionRepositoryError "Reading auth session")
      (fun db => db.findSessionByRefreshTokenHash tokenHash) (fun row => [.sessionSelected row])) := by
    unfold AuthSessionRepository.findByRefreshTokenHashIn
    rw [hHash, if_neg Bool.false_ne_true]
  have hReuse : AuthService.revokeReused session = (do
      let _ ← perform (AuthSessionRepository.revokeFamilyLocked session.tokenFamilyId)
      commit
      throw AuthService.refreshTokenReused) := by
    unfold AuthService.revokeReused AuthSessionRepository.revokeFamilyIn
    rw [hFamily, if_neg Bool.false_ne_true, if_neg Bool.false_ne_true]
  unfold execute AuthService.refreshIn
  rw [hFind]
  simp only [begin, perform, handle, Sql.select, Sql.statement, Fallible.zoom_atomic, bind_assoc,
    Fallible.run_atomic_bind, fresh, hCalm, hFound, hRevoked, hReuse, withWorking, if_true, id_eq,
    AuthSessionRepository.revokeFamilyLocked, AuthSessionRepository.revokeLocked, commit,
    Fallible.run_throw]

theorem refresh_run (service : AuthService) {refreshToken : String}
    (hToken : refreshToken.isEmpty = false) {inputs : Nat → Nat → Surroundings}
    (hCalm : ∀ m n, (inputs m n).failure = none) (world : World) :
    let reply := execute (service.refreshIn (TokenService.hashToken service.sodium refreshToken)
      (inputs 0 0).systemClock) (inputs 2) world.database
    Process.run (service.refresh refreshToken).run inputs world =
      ⟨reply.result, world.withDatabase reply.state, reply.events, 3⟩ := by
  unfold AuthService.refresh
  rw [hToken]
  simp only [Fallible.throwIf, currentUnixTime, consult, Database.transaction,
    Database.acquireConnection, pure_bind, if_false, Bool.false_eq_true, Fallible.run_atomic_bind,
    Fallible.run_atomic, HasSurroundings.surroundings, hCalm, List.nil_append]

theorem AuthService.RefreshOutcome.reused {db db' : Database} {tokenHash : String} {now : Int}
    {events : List Event}
    (h : RefreshOutcome db tokenHash now (.error refreshTokenReused) db' events) :
    ∃ session, db.findSessionByRefreshTokenHash tokenHash = some session ∧ session.revoked = true ∧
      events = [.committed] ∧ (session.tokenFamilyId.isEmpty = false →
        FamilyDead db' session.tokenFamilyId) := by
  cases h with
  | @reusedFamily session revokedAt hFound hRevoked hFamily =>
    exact ⟨session, hFound, hRevoked, rfl, fun _ => familyDead_revokeSessions _ _ _⟩
  | @reusedUser session revokedAt hFound hRevoked hFamily =>
    refine ⟨session, hFound, hRevoked, rfl, fun h => ?_⟩
    rw [hFamily] at h
    cases h
  | refused revokedAt hFound hUnrevoked hReason =>
    rcases hReason with ⟨-, h⟩ | ⟨-, h⟩ | ⟨-, h⟩ <;> cases h

theorem refresh_of_revoked (service : AuthService) {refreshToken : String}
    (hToken : refreshToken.isEmpty = false)
    (hHash : (TokenService.hashToken service.sodium refreshToken).isEmpty = false)
    {inputs : Nat → Nat → Surroundings} (hCalm : ∀ m n, (inputs m n).failure = none) {world : World}
    {session : AuthSession}
    (hFound : world.database.findSessionByRefreshTokenHash
      (TokenService.hashToken service.sodium refreshToken) = some session)
    (hRevoked : session.revoked = true) (hFamily : session.tokenFamilyId.isEmpty = false) :
    let ran := Process.run (service.refresh refreshToken).run inputs world
    ran.result = .error AuthService.refreshTokenReused ∧ .committed ∈ ran.events ∧
      FamilyDead ran.state.database session.tokenFamilyId := by
  rw [refresh_run service hToken hCalm]
  have hResult := execute_refreshIn_of_revoked service hHash hFound hRevoked hFamily
    (inputs 0 0).systemClock (hCalm 2)
  refine ⟨hResult, ?_⟩
  rcases execute_of_settles AuthService.settles_refreshIn
    (fun _ => AuthService.refreshAborted_of_isFault _ rfl) (inputs 2) with
    ⟨-, -, e, hError, hAborted⟩ | hOutcome
  · rw [hResult] at hError
    cases hError
    exact absurd rfl hAborted
  · rw [hResult] at hOutcome
    obtain ⟨session', hFound', -, hEvents, hDead⟩ := hOutcome.reused
    rw [hFound] at hFound'
    cases hFound'
    refine ⟨(Event.mem_writes.mp ?_).1, hDead hFamily⟩
    rw [hEvents]
    exact List.mem_singleton_self _

/-- From this access on the family is dead: no row of it is unrevoked, no row joins it
and no access reads an unrevoked row of it. -/
structure DeadFrom (newer : List (Entry τ World Event)) (e : Entry τ World Event)
    (familyId : String) : Prop where
  now : FamilyDead e.after.database familyId
  later : ∀ e' ∈ newer, FamilyDead e'.after.database familyId
  inserts : ∀ e' ∈ newer, ∀ row ∈ inserted e'.events, row.tokenFamilyId ≠ familyId
  reads : ∀ e' ∈ newer, ∀ s, SessionRead e'.toAct s → s.tokenFamilyId = familyId → s.revoked = true

theorem deadFrom_of_dead (hMigrated : Migrated world.database)
    {newer older : List (Entry τ World Event)} {e : Entry τ World Event}
    (h : Histories d calls world (newer ++ e :: older))
    (hFresh : FreshFamilies world.database (newer ++ e :: older)) {familyId : String}
    (hUsed : Used world.database (e :: older) familyId) (hDead : FamilyDead e.after.database familyId) :
    DeadFrom newer e familyId := by
  have hAt : ∀ e' ∈ newer, FamilyDead e'.before.database familyId ∧
      FamilyDead e'.after.database familyId ∧
      ∀ row ∈ inserted e'.events, row.tokenFamilyId ≠ familyId := by
    intro e' hMem
    obtain ⟨last, first, rfl⟩ := List.append_of_mem hMem
    rw [List.append_assoc] at h hFresh
    have hRun : Histories d calls world ((e' :: first) ++ e :: older) := h.of_append
    have hRunFresh : FreshFamilies world.database ((e' :: first) ++ e :: older) := hFresh.of_append
    have hAfter := familyDead_from hMigrated hRun hRunFresh hUsed hDead
    rw [List.cons_append] at hRun hRunFresh
    obtain ⟨hOlder, hBefore, hDiscipline⟩ := hRun.uncons
    have hBeforeDead := familyDead_from hMigrated hOlder hRunFresh.tail hUsed hDead
    have hInvariant := chainInvariant_of_run hMigrated hOlder hRunFresh.tail
    rw [← hBefore] at hBeforeDead hInvariant
    refine ⟨hBeforeDead, hAfter, ?_⟩
    intro row hRow hSame
    rcases hDiscipline.inserted hRow with ⟨user, hInsert⟩ | ⟨session, hInsert⟩
    · apply root_family_unused hRun hRunFresh hRow hInsert.new.parent
      rw [hSame]
      exact used_append hUsed first
    · have hFamily := hInsert.family (hInvariant.named session hInsert.mem)
      have hRevoked := hBeforeDead session hInsert.mem (hFamily.symm.trans hSame)
      rw [hInsert.unrevoked] at hRevoked
      cases hRevoked
  exact ⟨hDead, fun e' hMem => (hAt e' hMem).2.1, fun e' hMem => (hAt e' hMem).2.2,
    fun e' hMem s hRead hFamily => (hAt e' hMem).1 s hRead.stored hFamily⟩

/-- A thread whose refresh has ended with the reuse of a token committed the end of
the family first. -/
theorem reuse_committed (hMigrated : Migrated world.database)
    {schedule : List (τ × (Nat → Surroundings))}
    (hFresh : FreshFamilies world.database ((d.pool calls world).run schedule).history)
    {t : τ} {process : Nat} {refreshToken : String} (hCall : calls t = .refresh process refreshToken)
    (hThrown : ((d.pool calls world).run schedule).threads t =
      .done (.error AuthService.refreshTokenReused)) :
    ∃ newer e older session, ((d.pool calls world).run schedule).history = newer ++ e :: older ∧
      e.thread = t ∧ .committed ∈ e.events ∧
      e.before.database.findSessionByRefreshTokenHash
        (TokenService.hashToken d.sodium refreshToken) = some session ∧
      session.revoked = true ∧ DeadFrom newer e session.tokenFamilyId := by
  have hRun := running_pool d calls world schedule
  have hReturned := hRun.returned hThrown
  rw [hCall] at hReturned
  obtain ⟨act, past, now, hOwn, hOutcome⟩ := hReturned rfl
  obtain ⟨session, hFound, hRevoked, hEvents, hDead⟩ := hOutcome.reused
  have hMem : act ∈ own t ((d.pool calls world).run schedule).history := by
    rw [hOwn]
    exact List.mem_cons_self
  obtain ⟨e, hEntry, hThread, rfl⟩ := mem_own.mp hMem
  obtain ⟨newer, older, hSplit⟩ := List.append_of_mem hEntry
  have hExecution := hRun.execution
  rw [hSplit] at hExecution hFresh
  have hOlder := hExecution.of_append
  obtain ⟨hBeforeRun, hBefore, -⟩ := hOlder.uncons
  have hInvariant := chainInvariant_of_run hMigrated hBeforeRun hFresh.of_append.tail
  rw [← hBefore] at hInvariant
  have hStored := (Table.mem_of_first hFound).1
  refine ⟨newer, e, older, session, hSplit, hThread, ?_, hFound, hRevoked, ?_⟩
  · have hCommitted : Event.committed ∈ Event.writes e.events := by
      rw [hEvents]
      exact List.mem_singleton_self _
    exact (Event.mem_writes.mp hCommitted).1
  · exact deadFrom_of_dead hMigrated hExecution hFresh ((hInvariant.used session hStored).cons e)
      (hDead (hInvariant.named session hStored))

/-- Presenting a revoked refresh token kills its family for good. -/
theorem reuse_kills_family (d : Deployment) (hHash : ∀ token, (d.sodium.generichash token).isEmpty = false)
    (calls : τ → Operation) (world : World) (hMigrated : Migrated world.database)
    (schedule : List (τ × (Nat → Surroundings)))
    (hFresh : FreshFamilies world.database ((d.pool calls world).run schedule).history) :
    (∀ process refreshToken inputs session, refreshToken.isEmpty = false →
      (∀ m n, (inputs m n).failure = none) →
      ((d.pool calls world).run schedule).state.database.findSessionByRefreshTokenHash
        (TokenService.hashToken d.sodium refreshToken) = some session → session.revoked = true →
      let ran := Process.run ((d.service process).refresh refreshToken).run inputs
        ((d.pool calls world).run schedule).state
      ran.result = .error AuthService.refreshTokenReused ∧ .committed ∈ ran.events ∧
        FamilyDead ran.state.database session.tokenFamilyId) ∧
    ∀ t process refreshToken, calls t = .refresh process refreshToken →
      ((d.pool calls world).run schedule).threads t = .done (.error AuthService.refreshTokenReused) →
      ∃ newer e older session, ((d.pool calls world).run schedule).history = newer ++ e :: older ∧
        e.thread = t ∧ .committed ∈ e.events ∧
        e.before.database.findSessionByRefreshTokenHash
          (TokenService.hashToken d.sodium refreshToken) = some session ∧
        session.revoked = true ∧ DeadFrom newer e session.tokenFamilyId := by
  constructor
  · intro process refreshToken inputs session hToken hCalm hFound hRevoked
    have hRun := running_pool d calls world schedule
    have hInvariant := chainInvariant_of_run hMigrated hRun.execution hFresh
    rw [← hRun.state] at hInvariant
    have hFamily := hInvariant.named session (Table.mem_of_first hFound).1
    rw [← d.shared process] at hFound
    exact refresh_of_revoked (d.service process) hToken (by rw [d.shared process]; exact hHash _) hCalm
      hFound hRevoked hFamily
  · intro t process refreshToken hCall hThrown
    exact reuse_committed hMigrated hFresh hCall hThrown

namespace Sample

theorem generichash_nonempty (token : String) :
    (deployment.sodium.generichash token).isEmpty = false := by
  simp [deployment, sodium]

/-- The thief and the victim present one refresh token. -/
def reuseCalls (_ : Bool) : Operation := .refresh 0 "sc_rt_alice"

def victimFirst : List (Bool × (Nat → Surroundings)) :=
  turns false 2 "a" ++ turns true 2 "b" ++ turns false 1 "a" ++ turns true 1 "b"

end Sample

theorem reuse_kills_family_sample :
    ∃ newer e older session, ((Sample.deployment.pool Sample.reuseCalls Sample.world).run
        Sample.victimFirst).history = newer ++ e :: older ∧
      e.thread = true ∧ .committed ∈ e.events ∧
      e.before.database.findSessionByRefreshTokenHash
        (TokenService.hashToken Sample.deployment.sodium "sc_rt_alice") = some session ∧
      session.revoked = true ∧ DeadFrom newer e session.tokenFamilyId :=
  (reuse_kills_family Sample.deployment Sample.generichash_nonempty Sample.reuseCalls Sample.world
    Sample.migrated Sample.victimFirst (by decide +kernel)).2 true 0 "sc_rt_alice" rfl
    (Process.eq_done_of_result? (by decide +kernel))

end SecureCore
