import SecureCore.System.Accounts
import SecureCore.System.TokenFamilies

/-! # Calls of one user leave the others alone

An access of a call that presents the credentials of one user changes no row of any
other user, among whatever calls it is made. -/

set_option autoImplicit false

namespace SecureCore

open Interleaving Relational

/-! ## The rows of one user -/

/-- The rows of users and auth_sessions that belong to a user are the same. -/
structure SameRows (userId : Int) (db db' : Database) : Prop where
  users : db'.users.rows.filter (fun u => u.id == userId) =
    db.users.rows.filter (fun u => u.id == userId)
  sessions : db'.authSessions.rows.filter (fun s => s.userId == userId) =
    db.authSessions.rows.filter (fun s => s.userId == userId)

namespace SameRows

variable {userId : Int} {db db' db'' : Database}

theorem of_eq (hUsers : db'.users = db.users) (hSessions : db'.authSessions = db.authSessions) :
    SameRows userId db db' :=
  ⟨by rw [hUsers], by rw [hSessions]⟩

theorem trans (h : SameRows userId db db') (h' : SameRows userId db' db'') :
    SameRows userId db db'' :=
  ⟨h'.users.trans h.users, h'.sessions.trans h.sessions⟩

theorem user_mem (h : SameRows userId db db') {u : User} (hu : u ∈ db'.users.rows)
    (hId : u.id = userId) : u ∈ db.users.rows := by
  have hMem : u ∈ db'.users.rows.filter (fun u => u.id == userId) :=
    List.mem_filter.mpr ⟨hu, beq_iff_eq.mpr hId⟩
  rw [h.users] at hMem
  exact (List.mem_filter.mp hMem).1

theorem session_mem (h : SameRows userId db db') {s : AuthSession}
    (hs : s ∈ db'.authSessions.rows) (hOwner : s.userId = userId) : s ∈ db.authSessions.rows := by
  have hMem : s ∈ db'.authSessions.rows.filter (fun s => s.userId == userId) :=
    List.mem_filter.mpr ⟨hs, beq_iff_eq.mpr hOwner⟩
  rw [h.sessions] at hMem
  exact (List.mem_filter.mp hMem).1

end SameRows

section statements

variable {userId : Int} {db : Database}

theorem sameRows_setPasswordHash {target : Int} (hOther : target ≠ userId)
    (passwordHash now : String) : SameRows userId db (db.setPasswordHash target passwordHash now) := by
  constructor
  · apply Table.filter_update
    intro u _ hTarget
    have hId : u.id = target := beq_iff_eq.mp hTarget
    simpa [Keyed.withKey, Keyed.key, hId] using hOther
  · rfl

theorem sameRows_revokeSessions {condition : AuthSession → Bool}
    (h : ∀ s ∈ db.authSessions.rows, condition s = true → s.userId ≠ userId)
    (revokedAt : Option String → String) : SameRows userId db (db.revokeSessions condition revokedAt) := by
  constructor
  · rfl
  · apply Table.filter_update
    intro s hs hCondition
    rw [Bool.and_eq_true] at hCondition
    simpa [Keyed.withKey, Keyed.key] using h s hs hCondition.1

theorem sameRows_insertSession {row : AuthSession} (hOther : row.userId ≠ userId) :
    SameRows userId db (db.insertSession row) := by
  constructor
  · rfl
  · apply Table.filter_insert
    simpa [Keyed.withKey] using hOther

theorem sameRows_changePassword {target : Int} (hOther : target ≠ userId) (sessionId : Int)
    (passwordHash now revokedAt : String) :
    SameRows userId db (db.changePassword target sessionId passwordHash now revokedAt) := by
  apply (sameRows_setPasswordHash hOther passwordHash now).trans
  apply sameRows_revokeSessions
  intro s _ hCondition
  simp only [Bool.and_eq_true, beq_iff_eq] at hCondition
  rw [hCondition.1]
  exact hOther

end statements

/-! ## Whose credentials a call presents -/

inductive Credential where
  | loginName (name : String)
  | refreshToken (token : String)
  | accessToken (token : String)
  deriving DecidableEq, Repr

/-- The credential of the operations that a user calls for itself. -/
def Operation.credential : Operation → Option Credential
  | .login _ name _ _ => some (.loginName name)
  | .refresh _ refreshToken => some (.refreshToken refreshToken)
  | .authenticate _ accessToken | .logout _ accessToken | .logoutAll _ accessToken
  | .revokeSession _ accessToken _ | .changePassword _ accessToken _ _ =>
    some (.accessToken accessToken)
  | .registerUser _ _ _ | .setUserEnabled _ _ _ _ | .assignRole _ _ _ _ | .revokeRole _ _ _ _
  | .secureAdmin _ _ | .deleteExpired _ => none

theorem adminRequest_of_credential {op : Operation} {credential : Credential}
    (h : op.credential = some credential) : op.adminRequest = none := by
  cases op <;> first | rfl | cases h

/-- In this database the credential is one of this user. -/
def Credential.BelongsTo (d : Deployment) (db : Database) (userId : Int) : Credential → Prop
  | loginName name => ∃ u ∈ db.users.rows, u.id = userId ∧
      Database.matchesLogin (trimCopy name) u = true
  | refreshToken token => ∃ s ∈ db.authSessions.rows, s.userId = userId ∧
      s.refreshTokenHash = TokenService.hashToken d.sodium token
  | accessToken token => ∃ s ∈ db.authSessions.rows, s.userId = userId ∧
      s.accessTokenHash = TokenService.hashToken d.sodium token

theorem Credential.BelongsTo.of_sameRows {d : Deployment} {db db' : Database} {userId : Int}
    {credential : Credential} (h : credential.BelongsTo d db' userId)
    (hSame : SameRows userId db db') : credential.BelongsTo d db userId := by
  cases credential with
  | loginName name =>
    obtain ⟨u, hu, hId, hMatches⟩ := h
    exact ⟨u, hSame.user_mem hu hId, hId, hMatches⟩
  | refreshToken token | accessToken token =>
    obtain ⟨s, hs, hOwner, hHash⟩ := h
    exact ⟨s, hSame.session_mem hs hOwner, hOwner, hHash⟩

/-! ## One access -/

section access

variable {d : Deployment} {userId : Int}

/-- A refresh stays within the rows of the user whose token it presents. -/
theorem AuthService.RefreshOutcome.sameRows {db db' : Database} {token : String} {now : Int}
    {r : Except Exception LoginResult} {events : List Event}
    (h : RefreshOutcome db (TokenService.hashToken d.sodium token) now r db' events)
    (hFamilies : LinearFamilies db)
    (hOther : ¬ (Credential.refreshToken token).BelongsTo d db userId) : SameRows userId db db' := by
  have hOwner : ∀ session, db.findSessionByRefreshTokenHash
      (TokenService.hashToken d.sodium token) = some session →
      session ∈ db.authSessions.rows ∧ session.userId ≠ userId := by
    intro session hFound
    obtain ⟨hMem, hHash⟩ := Table.mem_of_first hFound
    exact ⟨hMem, fun hUser => hOther ⟨session, hMem, hUser, beq_iff_eq.mp hHash⟩⟩
  cases h with
  | @reusedFamily session revokedAt hFound hRevoked hFamily =>
    obtain ⟨hMem, hNot⟩ := hOwner session hFound
    apply sameRows_revokeSessions
    intro s hs hSame
    rw [hFamilies.user s hs session hMem (beq_iff_eq.mp hSame)]
    exact hNot
  | @reusedUser session revokedAt hFound hRevoked hFamily =>
    obtain ⟨-, hNot⟩ := hOwner session hFound
    split
    · exact .of_eq rfl rfl
    · apply sameRows_revokeSessions
      intro s _ hSame
      rw [beq_iff_eq.mp hSame]
      exact hNot
  | @refused session e revokedAt hFound hUnrevoked hReason =>
    obtain ⟨hMem, hNot⟩ := hOwner session hFound
    apply sameRows_revokeSessions
    intro s hs hId
    rw [Database.session_eq_of_id hs hMem (beq_iff_eq.mp hId)]
    exact hNot
  | @rotated session child user tokens revokedAt hFound hUnrevoked hUnexpired hUser hEnabled hNew
      hFamily =>
    obtain ⟨hMem, hNot⟩ := hOwner session hFound
    have hRevoked : SameRows userId db
        (db.revokeSessions (fun s => s.id == session.id) (fun _ => revokedAt)) := by
      apply sameRows_revokeSessions
      intro s hs hId
      rw [Database.session_eq_of_id hs hMem (beq_iff_eq.mp hId)]
      exact hNot
    apply hRevoked.trans
    apply sameRows_insertSession
    rw [hNew.userId, (Database.findUserById_eq_some hUser).2]
    exact hNot

/-- An access of a call that has presented this credential, and met no state in which
it belongs to the user. -/
theorem Obeys.sameRows {op : Operation} {past : List (Act World Event)} {act : Act World Event}
    (h : Obeys d op past act) {credential : Credential} (hCredential : op.credential = some credential)
    (hFamilies : LinearFamilies act.before.database)
    (hIds : ∀ read ∈ past, ∀ session, SessionRead read session →
      ∀ s ∈ act.before.database.authSessions.rows, s.id = session.id → s.userId = session.userId)
    (hOther : ∀ a ∈ act :: past, ¬ credential.BelongsTo d a.before.database userId) :
    SameRows userId act.before.database act.after.database := by
  have hUser : ∀ {name : String} {user : User}, credential = .loginName name →
      (∃ read ∈ past, UserRead read user) → Database.matchesLogin (trimCopy name) user = true →
      user.id ≠ userId := by
    rintro name user rfl ⟨read, hRead, hStored⟩ hNamed hId
    exact hOther read (List.mem_cons_of_mem _ hRead) ⟨user, hStored.stored, hId, hNamed⟩
  have hSession : ∀ {token : String} {session : AuthSession} {read : Act World Event},
      credential = .accessToken token → read ∈ past → SessionRead read session →
      session.accessTokenHash = TokenService.hashToken d.sodium token → session.userId ≠ userId := by
    rintro token session read rfl hRead hStored hToken hOwner
    exact hOther read (List.mem_cons_of_mem _ hRead) ⟨session, hStored.stored, hOwner, hToken⟩
  cases h with
  | reads hSame hEvents =>
    rw [hSame]
    exact .of_eq rfl rfl
  | upgradeHash salt now hReady hAfter hEvents =>
    cases hCredential
    rw [hAfter]
    exact sameRows_setPasswordHash (hUser rfl hReady.read hReady.named) _ _
  | openSession hReady hFamily hNew hAfter hEvents =>
    cases hCredential
    rw [hAfter]
    apply sameRows_insertSession
    rw [hNew.userId]
    exact hUser rfl hReady.read hReady.named
  | refresh hOutcome =>
    cases hCredential
    exact hOutcome.sameRows hFamilies (hOther act List.mem_cons_self)
  | logout revokedAt hRead hToken hAfter hEvents =>
    cases hCredential
    obtain ⟨read, hMem, hStored⟩ := hRead
    have hNot := hSession rfl hMem hStored hToken
    rw [hAfter]
    apply sameRows_revokeSessions
    intro s hs hId
    rw [hIds read hMem _ hStored s hs (beq_iff_eq.mp hId)]
    exact hNot
  | logoutAll revokedAt hPast hAuthenticated hAfter hEvents =>
    cases hCredential
    have hNot := hSession rfl (hPast.subset (by simp)) hAuthenticated.readSession
      hAuthenticated.token
    rw [hAfter]
    apply sameRows_revokeSessions
    intro s _ hOwner
    rw [beq_iff_eq.mp hOwner, hAuthenticated.owner]
    exact hNot
  | revokeSession revokedAt hPast hAuthenticated hAfter hEvents =>
    cases hCredential
    have hNot := hSession rfl (hPast.subset (by simp)) hAuthenticated.readSession
      hAuthenticated.token
    rw [hAfter]
    apply sameRows_revokeSessions
    intro s _ hNamed
    simp only [Bool.and_eq_true, beq_iff_eq] at hNamed
    rw [hNamed.2, hAuthenticated.owner]
    exact hNot
  | changePassword salt now revokedAt hReady hAfter hEvents =>
    cases hCredential
    obtain ⟨read, hMem, hStored⟩ := hReady.readSession
    have hNot := hSession rfl hMem hStored hReady.token
    rw [hReady.owner] at hNot
    rw [hAfter]
    exact sameRows_changePassword hNot _ _ _ _
  | administer hRequest hAuthorised hChange hEvents =>
    rw [adminRequest_of_credential hCredential] at hRequest
    cases hRequest
  | register | secureAdmin | expire => cases hCredential

end access

/-! ## Runs -/

section runs

variable {τ : Type} [DecidableEq τ] {d : Deployment} {calls : τ → Operation} {world : World}

/-- A session that a thread has read is still of the same user, if it is still there. -/
theorem owner_of_read {older : List (Entry τ World Event)} (h : Histories d calls world older) {t : τ}
    {read : Act World Event} (hRead : read ∈ own t older) {session : AuthSession}
    (hStored : SessionRead read session) :
    ∀ s ∈ (stateAfter world older).database.authSessions.rows, s.id = session.id →
      s.userId = session.userId := by
  obtain ⟨e, hEntry, -, rfl⟩ := mem_own.mp hRead
  obtain ⟨last, first, rfl⟩ := List.append_of_mem hEntry
  have hBefore := h.at_entry.1
  have hSplit : last ++ e :: first = (last ++ [e]) ++ first := by simp
  have hMem := hStored.stored
  rw [hBefore] at hMem
  rw [hSplit] at h ⊢
  have hNames := names_of_run h (P := fun s => s.userId = session.userId)
    (fun _ _ hContinues hOld => hContinues.userId.trans hOld) (names_of_mem hMem rfl)
  exact hNames.rows

theorem sameRows_of_access (hMigrated : Migrated world.database) {e : Entry τ World Event}
    {older : List (Entry τ World Event)} (h : Histories d calls world (e :: older))
    (hFresh : FreshFamilies world.database (e :: older)) {credential : Credential}
    (hCredential : (calls e.thread).credential = some credential) {userId : Int}
    (hOther : ∀ a ∈ own e.thread (e :: older), ¬ credential.BelongsTo d a.before.database userId) :
    SameRows userId e.before.database e.after.database := by
  obtain ⟨hOlder, hBefore, hObeys⟩ := h.uncons
  have hInvariant := chainInvariant_of_run hMigrated hOlder hFresh.tail
  rw [← hBefore] at hInvariant
  rw [own_cons_self] at hOther
  apply hObeys.sameRows hCredential (linearFamilies_of_linear hInvariant.linear) _ hOther
  intro read hRead session hStored
  rw [hBefore]
  exact owner_of_read hOlder hRead hStored

/-- A call that runs alone from some state on. -/
theorem sameRows_of_call (hMigrated : Migrated world.database) {newer older : List (Entry τ World Event)}
    (h : Histories d calls world (newer ++ older))
    (hFresh : FreshFamilies world.database (newer ++ older)) {t : τ} (hAlone : ∀ e ∈ newer, e.thread = t)
    (hBegins : own t older = []) {credential : Credential}
    (hCredential : (calls t).credential = some credential) {userId : Int}
    (hOther : ¬ credential.BelongsTo d (stateAfter world older).database userId) :
    SameRows userId (stateAfter world older).database (stateAfter world (newer ++ older)).database ∧
      ∀ a ∈ own t (newer ++ older), ¬ credential.BelongsTo d a.before.database userId := by
  induction newer with
  | nil =>
    refine ⟨.of_eq rfl rfl, ?_⟩
    rw [List.nil_append, hBegins]
    intro a ha
    cases ha
  | cons e newer ih =>
    rw [List.cons_append] at h hFresh ⊢
    obtain ⟨hOlder, hBefore, -⟩ := h.uncons
    obtain ⟨hSame, hPast⟩ := ih hOlder hFresh.tail (fun e' he' => hAlone e' (List.mem_cons_of_mem e he'))
    have hThread : e.thread = t := hAlone e List.mem_cons_self
    subst hThread
    have hOwn : ∀ a ∈ own e.thread (e :: (newer ++ older)),
        ¬ credential.BelongsTo d a.before.database userId := by
      intro a ha
      rw [own_cons_self] at ha
      obtain rfl | ha := List.mem_cons.mp ha
      · intro hBelongs
        apply hOther
        apply hBelongs.of_sameRows
        rw [hBefore]
        exact hSame
      · exact hPast a ha
    refine ⟨?_, hOwn⟩
    apply hSame.trans
    rw [← hBefore]
    exact sameRows_of_access hMigrated h hFresh hCredential hOwn

/-- From a migrated database and with family ids that are drawn only once: whatever
other calls are under way, no access of a call of a user changes a row of a user whose
credential it does not present. So a call that runs alone, from any state that is
reached, leaves all rows of every other user as they are. -/
theorem other_users_untouched (d : Deployment) (calls : τ → Operation) (world : World)
    (hMigrated : Migrated world.database) (schedule : List (τ × (Nat → Surroundings)))
    (hFresh : FreshFamilies world.database ((d.pool calls world).run schedule).history) :
    (∀ newer e older credential userId,
      ((d.pool calls world).run schedule).history = newer ++ e :: older →
      (calls e.thread).credential = some credential →
      (∀ a ∈ own e.thread (e :: older), ¬ credential.BelongsTo d a.before.database userId) →
      SameRows userId e.before.database e.after.database) ∧
    ∀ newer older t credential userId,
      ((d.pool calls world).run schedule).history = newer ++ older →
      own t older = [] → (∀ e ∈ newer, e.thread = t) → (calls t).credential = some credential →
      ¬ credential.BelongsTo d (stateAfter world older).database userId →
      SameRows userId (stateAfter world older).database
        ((d.pool calls world).run schedule).state.database := by
  have hRun := running_pool d calls world schedule
  have hExecution := hRun.execution
  constructor
  · intro newer e older credential userId hSplit hCredential hOther
    rw [hSplit] at hExecution hFresh
    exact sameRows_of_access hMigrated hExecution.of_append hFresh.of_append hCredential hOther
  · intro newer older t credential userId hSplit hBegins hAlone hCredential hOther
    rw [hSplit] at hExecution hFresh
    rw [hRun.state, hSplit]
    exact (sameRows_of_call hMigrated hExecution hFresh hAlone hBegins hCredential hOther).1

namespace Sample

def untouchedCalls (_ : Unit) : Operation := .changePassword 0 "sc_at_alice" "old-password" "new-password"

def changeAlone : List (Unit × (Nat → Surroundings)) := turns () 20 "a"

end Sample

/-- The change of Alice's password leaves Rita (3) alone. -/
theorem other_users_untouched_sample :
    SameRows 3 Sample.world.database ((Sample.deployment.pool Sample.untouchedCalls Sample.world).run
      Sample.changeAlone).state.database :=
  (other_users_untouched Sample.deployment Sample.untouchedCalls Sample.world Sample.migrated
    Sample.changeAlone (by decide +kernel)).2 _ [] () (.accessToken "sc_at_alice") 3
    (List.append_nil _).symm rfl (fun _ _ => rfl) rfl (by
      rintro ⟨s, hs, hOwner, hToken⟩
      revert s
      decide +kernel)

end runs

end SecureCore
