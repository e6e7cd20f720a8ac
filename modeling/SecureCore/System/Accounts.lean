import SecureCore.System.Sessions
import SecureCore.System.Sample

/-! # Accounts under all operations

An access keeps every account as it is, registers a new one or makes a change that
an administrator asked for. Disabled accounts and their sessions are followed
through whole runs. -/

namespace SecureCore

set_option autoImplicit false

open Interleaving Relational

/-! ## What one access makes of the accounts -/

/-- The columns of a user that decide about access. -/
def User.account (u : User) : Int × Bool := (u.id, u.enabled)

structure KeepsAccounts (db db' : Database) : Prop where
  accounts : db'.users.rows.map User.account = db.users.rows.map User.account
  userRoles : db'.userRoles = db.userRoles
  roles : db'.roles = db.roles

namespace KeepsAccounts

variable {db db' db'' : Database}

theorem refl (db : Database) : KeepsAccounts db db := ⟨rfl, rfl, rfl⟩

theorem of_eq (hUsers : db'.users = db.users) (hUserRoles : db'.userRoles = db.userRoles)
    (hRoles : db'.roles = db.roles) : KeepsAccounts db db' :=
  ⟨by rw [hUsers], hUserRoles, hRoles⟩

theorem user (h : KeepsAccounts db db') {u : User} (hu : u ∈ db'.users.rows) :
    ∃ old ∈ db.users.rows, old.id = u.id ∧ old.enabled = u.enabled := by
  have hMem : u.account ∈ db.users.rows.map User.account := by
    rw [← h.accounts]
    exact List.mem_map_of_mem hu
  obtain ⟨old, hOld, hAccount⟩ := List.mem_map.mp hMem
  exact ⟨old, hOld, congrArg Prod.fst hAccount, congrArg Prod.snd hAccount⟩

theorem symm (h : KeepsAccounts db db') : KeepsAccounts db' db :=
  ⟨h.accounts.symm, h.userRoles.symm, h.roles.symm⟩

end KeepsAccounts

theorem keepsAccounts_setPasswordHash (db : Database) (userId : Int) (passwordHash now : String) :
    KeepsAccounts db (db.setPasswordHash userId passwordHash now) :=
  ⟨Table.map_update db.users _ (fun _ => rfl), rfl, rfl⟩

theorem accounts_setLegacyRole (db : Database) (userId : Int) (role now : String) :
    (db.setLegacyRole userId role now).users.rows.map User.account =
      db.users.rows.map User.account :=
  Table.map_update db.users _ (fun _ => rfl)

theorem AuthService.RefreshOutcome.keepsAccounts {db db' : Database} {tokenHash : String} {now : Int}
    {r : Except Exception LoginResult} {events : List Event}
    (h : RefreshOutcome db tokenHash now r db' events) : KeepsAccounts db db' := by
  cases h with
  | reusedUser revokedAt hFound hRevoked hFamily =>
    split
    · exact KeepsAccounts.refl db
    · exact .of_eq rfl rfl rfl
  | _ => exact .of_eq rfl rfl rfl

inductive AccountChange (db db' : Database) : Prop
  | kept (hKept : KeepsAccounts db db')
  | registered {input : CreateUser} {now : String} (hAfter : db' = db.insertUser input now)
  | administered {userId : Int} {action : AdminAction} (hChange : AdminChange db userId action db')

theorem Obeys.accountChange {d : Deployment} {op : Operation} {past : List (Act World Event)}
    {act : Act World Event} (h : Obeys d op past act) :
    AccountChange act.before.database act.after.database := by
  cases h with
  | reads hSame hEvents =>
    rw [hSame]
    exact .kept (.refl _)
  | register now hUnused hAfter hEvents => exact .registered hAfter
  | upgradeHash salt now hReady hAfter hEvents =>
    rw [hAfter]
    exact .kept (keepsAccounts_setPasswordHash _ _ _ _)
  | refresh hOutcome => exact .kept hOutcome.keepsAccounts
  | changePassword salt now revokedAt hReady hAfter hEvents =>
    rw [hAfter]
    exact .kept ⟨(keepsAccounts_setPasswordHash _ _ _ _).accounts, rfl, rfl⟩
  | administer hRequest hAuthorised hChange hEvents => exact .administered hChange
  | secureAdmin hAction hChange hEvents => exact .administered hChange
  | openSession _ _ _ hAfter | logout _ _ _ hAfter | logoutAll _ _ _ hAfter
  | revokeSession _ _ _ hAfter | expire hAfter =>
    rw [hAfter]
    exact .kept (.of_eq rfl rfl rfl)

/-! ## Disabled users -/

/-- A disabled user has no unrevoked session. -/
def DisabledLockedOut (db : Database) : Prop :=
  ∀ u ∈ db.users.rows, u.enabled = false →
    ∀ s ∈ db.authSessions.rows, s.userId = u.id → s.revoked = true

/-- A user that is disabled now was disabled before, or has just been disabled with
all its sessions revoked. -/
theorem AccountChange.disabled {db db' : Database} (h : AccountChange db db') {u : User}
    (hu : u ∈ db'.users.rows) (hDisabled : u.enabled = false) :
    (∃ old ∈ db.users.rows, old.id = u.id ∧ old.enabled = false) ∨
      ∀ s ∈ db'.authSessions.rows, s.userId = u.id → s.revoked = true := by
  have hKept : ∀ {users : Table User}, users.rows.map User.account = db.users.rows.map User.account →
      u ∈ users.rows → ∃ old ∈ db.users.rows, old.id = u.id ∧ old.enabled = false := by
    intro users hAccounts hu
    obtain ⟨old, hOld, hAccount⟩ := List.mem_map.mp (hAccounts ▸ List.mem_map_of_mem hu)
    exact ⟨old, hOld, congrArg Prod.fst hAccount, (congrArg Prod.snd hAccount).trans hDisabled⟩
  cases h with
  | kept hKeeps => exact Or.inl (hKept hKeeps.accounts hu)
  | registered hAfter =>
    subst hAfter
    rcases Table.mem_insert.mp hu with hu | rfl
    · exact Or.inl ⟨u, hu, rfl, hDisabled⟩
    · cases hDisabled
  | @administered userId action hChange =>
    cases hChange with
    | enabled now =>
      obtain ⟨old, hOld, rfl⟩ := Table.mem_update.mp hu
      unfold Table.updated at hDisabled ⊢
      split at hDisabled
      · cases hDisabled
      · rename_i hOther
        rw [if_neg hOther]
        exact Or.inl ⟨old, hOld, rfl, hDisabled⟩
    | disabled now revokedAt hUser hGuard =>
      obtain ⟨old, hOld, rfl⟩ := Table.mem_update.mp hu
      have hId : (Table.updated (fun u => u.id == userId)
          (fun u => { u with enabled := false, updatedAt := now }) old).id = old.id :=
        Table.key_updated _ _ old
      by_cases hTarget : old.id = userId
      · right
        intro s hs hOwner
        obtain ⟨s', -, rfl⟩ := Database.mem_revokeSessions.mp hs
        rw [Database.revokedRow_userId, hId, hTarget] at hOwner
        simp [hOwner]
      · left
        refine ⟨old, hOld, hId.symm, ?_⟩
        simpa [Table.updated, hTarget] using hDisabled
    | alreadyEnabled | alreadyDisabled => exact Or.inl ⟨u, hu, rfl, hDisabled⟩
    | granted now now' hUser hRole =>
      refine Or.inl (hKept ?_ hu)
      simp only [Database.grantRole, Database.insertUserRole]
      split <;> split <;> first | rfl | exact accounts_setLegacyRole _ _ _ _
    | removed now hUser hRole hGuard =>
      refine Or.inl (hKept ?_ hu)
      simp only [Database.removeRole]
      split
      · exact accounts_setLegacyRole _ _ _ _
      · rfl

/-! ## Runs -/

section runs

variable {τ : Type} [DecidableEq τ] {d : Deployment} {calls : τ → Operation} {world : World}

theorem names_of_run {newer older : List (Entry τ World Event)}
    (h : Histories d calls world (newer ++ older)) {i : Int} {P : AuthSession → Prop}
    (hP : ∀ old new, Continues old new → P old → P new)
    (hNames : Names i P (stateAfter world older).database.authSessions) :
    Names i P (stateAfter world (newer ++ older)).database.authSessions := by
  apply Execution.invariant_from (I := fun w _ => Names i P w.database.authSessions) hNames _ h
  intro e mid hRun hBefore
  exact hRun.uncons.2.2.sessionChange.names hP hBefore

/-- In every state of the run. -/
def AlwaysLockedOut (start : World) (history : List (Entry τ World Event)) : Prop :=
  ∀ newer older, history = newer ++ older → DisabledLockedOut (stateAfter start older).database

/-- A session issued before its user was seen disabled is revoked ever after. -/
def NeverRevived (start : World) (history : List (Entry τ World Event)) : Prop :=
  ∀ newer mid older, history = newer ++ (mid ++ older) →
    ∀ u ∈ (stateAfter start (mid ++ older)).database.users.rows, u.enabled = false →
    ∀ s ∈ (stateAfter start older).database.authSessions.rows, s.userId = u.id →
    ∀ s' ∈ (stateAfter start history).database.authSessions.rows, s'.id = s.id → s'.revoked = true

/-- Every login that inserts its session still finds the user enabled. -/
def OpensEnabled (history : List (Entry τ World Event)) : Prop :=
  Always (fun e _ => ∀ row ∈ inserted e.events, row.parentSessionId = none →
    ∀ u ∈ e.before.database.users.rows, u.id = row.userId → u.enabled = true) history

instance (history : List (Entry τ World Event)) : Decidable (OpensEnabled history) :=
  decidableAlways _ history

theorem DisabledLockedOut.step {op : Operation} {past : List (Act World Event)}
    {act : Act World Event} (h : Obeys d op past act) (hBefore : DisabledLockedOut act.before.database)
    (hOpens : ∀ row ∈ inserted act.events, row.parentSessionId = none →
      ∀ u ∈ act.before.database.users.rows, u.id = row.userId → u.enabled = true) :
    DisabledLockedOut act.after.database := by
  intro u hu hDisabled s hs hOwner
  rcases h.accountChange.disabled hu hDisabled with ⟨old, hOld, hId, hWasDisabled⟩ | hRevoked
  · rcases h.sessionChange.mem hs with ⟨before, hMem, hContinues⟩ | hRow
    · apply hContinues.revoked
      apply hBefore old hOld hWasDisabled before hMem
      rw [← hContinues.userId, hOwner, hId]
    · have hEnabled : old.enabled = true := by
        rcases h.inserted hRow with ⟨user, hInsert⟩ | ⟨session, hInsert⟩
        · exact hOpens s hRow hInsert.new.parent old hOld (hId.trans hOwner.symm)
        · obtain ⟨user, hUser, hEnabled⟩ := hInsert.user
          obtain ⟨hMem, hUserId⟩ := Database.findUserById_eq_some hUser
          have hSame : old.id = user.id := by
            rw [hId, ← hOwner, hInsert.new.userId, hUserId]
          rw [Table.eq_of_key hOld hMem hSame]
          exact hEnabled
      rw [hWasDisabled] at hEnabled
      cases hEnabled
  · exact hRevoked s hs hOwner

theorem lockedOut_of_opensEnabled (hStart : DisabledLockedOut world.database)
    {history : List (Entry τ World Event)} (h : Histories d calls world history)
    (hOpens : OpensEnabled history) : DisabledLockedOut (stateAfter world history).database := by
  induction history with
  | nil => exact hStart
  | cons e older ih =>
    obtain ⟨hOlder, hBefore, hDiscipline⟩ := h.uncons
    have hLocked := ih hOlder hOpens.2
    rw [← hBefore] at hLocked
    exact hLocked.step hDiscipline hOpens.1

theorem neverRevived_of_alwaysLockedOut {history : List (Entry τ World Event)}
    (h : Histories d calls world history) (hLocked : AlwaysLockedOut world history) :
    NeverRevived world history := by
  rintro newer mid older rfl u hu hDisabled s hs hOwner s' hs' hId
  have hRun : Histories d calls world (mid ++ older) := h.of_append
  have hOwned : Names s.id (fun row => row.userId = u.id)
      (stateAfter world (mid ++ older)).database.authSessions :=
    names_of_run hRun (fun old new hContinues hOld => hContinues.userId.trans hOld)
      (names_of_mem hs hOwner)
  have hDead : Names s.id (fun row => row.revoked = true)
      (stateAfter world (mid ++ older)).database.authSessions := by
    refine ⟨hOwned.issued, ?_⟩
    intro row hRow hRowId
    exact hLocked newer (mid ++ older) rfl u hu hDisabled row hRow (hOwned.rows row hRow hRowId)
  have hForGood := names_of_run h (fun old new hContinues hOld => hContinues.revoked hOld) hDead
  exact hForGood.rows s' hs' hId

/-- A login that inserts a session of a disabled user unlocks the user. -/
theorem opensEnabled_of_alwaysLockedOut {history : List (Entry τ World Event)}
    (h : Histories d calls world history) (hLocked : AlwaysLockedOut world history) :
    OpensEnabled history := by
  induction history with
  | nil => trivial
  | cons e older ih =>
    obtain ⟨hOlder, hBefore, hDiscipline⟩ := h.uncons
    refine ⟨?_, ih hOlder (fun newer suffix hSplit => hLocked (e :: newer) suffix (by rw [hSplit]; rfl))⟩
    intro row hRow hRoot u hu hOwner
    rcases hDiscipline.inserted hRow with ⟨user, hInsert⟩ | ⟨session, hInsert⟩
    · by_contra hDisabled
      have hAfter := hLocked [] (e :: older) rfl u
      rw [stateAfter_cons, hInsert.after] at hAfter
      have hRevoked := hAfter hu (by simpa using hDisabled) row
        ((Database.mem_insertSession hInsert.new.id).mpr (Or.inr rfl)) hOwner.symm
      rw [hInsert.new.unrevoked] at hRevoked
      cases hRevoked
    · rw [hInsert.new.parent] at hRoot
      cases hRoot

/-- Disabled users stay locked out, and for good, exactly in the runs in which every
login that inserts its session still finds the user enabled. -/
theorem disabled_stay_locked_out_iff (d : Deployment) (calls : τ → Operation) (world : World)
    (hStart : DisabledLockedOut world.database) (schedule : List (τ × (Nat → Surroundings))) :
    let history := ((d.pool calls world).run schedule).history
    (AlwaysLockedOut world history ∧ NeverRevived world history) ↔ OpensEnabled history := by
  have hRun := (running_pool d calls world schedule).execution
  constructor
  · rintro ⟨hLocked, -⟩
    exact opensEnabled_of_alwaysLockedOut hRun hLocked
  · intro hOpens
    have hLocked : AlwaysLockedOut world ((d.pool calls world).run schedule).history := by
      intro newer older hSplit
      rw [hSplit] at hRun hOpens
      exact lockedOut_of_opensEnabled hStart hRun.of_append hOpens.of_append
    exact ⟨hLocked, neverRevived_of_alwaysLockedOut hRun hLocked⟩

end runs

/-! ## A login that overtakes the disabling of its user -/

namespace Sample

def disablingCalls : Bool → Operation
  | false => .login 0 "alice" "old-password" "10.0.0.1"
  | true => .secureAdmin .disable "alice"

theorem disabledLockedOut : DisabledLockedOut world.database := by
  unfold DisabledLockedOut
  decide +kernel

def loginBeforeDisabling : List (Bool × (Nat → Surroundings)) :=
  turns false 15 "a" ++ turns true 10 "b"

/-- The login has found the user enabled and not yet inserted the session. -/
def loginAroundDisabling : List (Bool × (Nat → Surroundings)) :=
  turns false 5 "a" ++ turns true 10 "b" ++ turns false 10 "a"

end Sample

theorem disabled_stay_locked_out_sample :
    let history := ((Sample.deployment.pool Sample.disablingCalls Sample.world).run
      Sample.loginBeforeDisabling).history
    AlwaysLockedOut Sample.world history ∧ NeverRevived Sample.world history :=
  (disabled_stay_locked_out_iff Sample.deployment Sample.disablingCalls Sample.world
    Sample.disabledLockedOut Sample.loginBeforeDisabling).mpr (by decide +kernel)

/-- The user is disabled and has a session that is not revoked. -/
theorem disabled_user_logged_in :
    DisabledLockedOut Sample.world.database ∧
    ¬ DisabledLockedOut ((Sample.deployment.pool Sample.disablingCalls Sample.world).run
      Sample.loginAroundDisabling).state.database := by
  refine ⟨Sample.disabledLockedOut, ?_⟩
  unfold DisabledLockedOut
  decide +kernel

end SecureCore
