import Mathlib.Logic.Relation
import SecureCore.System.Passwords
import SecureCore.System.Sessions

/-! # Sessions after a change of password

Where the unrevoked sessions of a user come from once a change of password has
committed: from the session that changed it or from later logins. -/

namespace SecureCore

set_option autoImplicit false

open Interleaving Relational

variable {τ : Type}

/-! ## Descent -/

/-- A refresh in this history replaced session `old` by session `new`. -/
def Refreshed (history : List (Entry τ World Event)) (old new : Int) : Prop :=
  ∃ e ∈ history, ∃ row ∈ inserted e.events, row.parentSessionId = some old ∧ row.id = new

def Descends (history : List (Entry τ World Event)) : Int → Int → Prop :=
  Relation.ReflTransGen (Refreshed history)

theorem Refreshed.cons {history : List (Entry τ World Event)} {old new : Int}
    (h : Refreshed history old new) (e : Entry τ World Event) : Refreshed (e :: history) old new := by
  obtain ⟨e', hMem, hRow⟩ := h
  exact ⟨e', List.mem_cons_of_mem _ hMem, hRow⟩

theorem Descends.cons {history : List (Entry τ World Event)} {old new : Int}
    (h : Descends history old new) (e : Entry τ World Event) : Descends (e :: history) old new :=
  Relation.ReflTransGen.mono (fun _ _ hRefreshed => Refreshed.cons hRefreshed e) _ _ h

theorem Descends.refreshed {history : List (Entry τ World Event)} {root old : Int}
    (h : Descends history root old) {e : Entry τ World Event} {row : AuthSession}
    (hRow : row ∈ inserted e.events) (hParent : row.parentSessionId = some old) :
    Descends (e :: history) root row.id :=
  Relation.ReflTransGen.tail (h.cons e) ⟨e, List.mem_cons_self, row, hRow, hParent, rfl⟩

/-! ## Hashes stored since a point -/

/-- The hashes that a history writes for this user. -/
def hashesSince (userId : Int) (history : List (Entry τ World Event)) : List String :=
  (history.flatMap (fun e => updatedHashes e.events)).filterMap
    (fun update => if update.1 = userId then some update.2 else none)

theorem hashesSince_append (userId : Int) (newer older : List (Entry τ World Event)) :
    hashesSince userId (newer ++ older) = hashesSince userId newer ++ hashesSince userId older := by
  unfold hashesSince
  rw [List.flatMap_append, List.filterMap_append]

theorem mem_hashesSince_singleton {userId : Int} {e : Entry τ World Event} {passwordHash : String} :
    passwordHash ∈ hashesSince userId [e] ↔ (userId, passwordHash) ∈ updatedHashes e.events := by
  unfold hashesSince
  rw [List.flatMap_singleton, List.mem_filterMap]
  constructor
  · rintro ⟨⟨target, written⟩, hMem, hUpdate⟩
    by_cases hTarget : target = userId
    · rw [if_pos hTarget, Option.some.injEq] at hUpdate
      rw [← hTarget, ← hUpdate]
      exact hMem
    · rw [if_neg hTarget] at hUpdate
      cases hUpdate
  · intro hMem
    exact ⟨_, hMem, if_pos rfl⟩

/-! ## Runs -/

variable [DecidableEq τ] {d : Deployment} {calls : τ → Operation} {world : World}

/-- Users are never deleted. -/
theorem storedHash_persists {newer older : List (Entry τ World Event)}
    (h : Histories d calls world (newer ++ older)) {userId : Int} {stored : String}
    (hStored : (stateAfter world older).database.storedHash userId = some stored) :
    ∃ now, (stateAfter world (newer ++ older)).database.storedHash userId = some now := by
  apply Execution.invariant_from
    (I := fun w _ => ∃ now, w.database.storedHash userId = some now) ⟨stored, hStored⟩ _ h
  rintro e mid hRun ⟨before, hBefore⟩
  rcases hRun.uncons.2.2.hashWrite with ⟨-, hKeeps⟩ | ⟨user, _, written, salt, -, -, hAfter⟩
  · exact ⟨before, hKeeps _ _ hBefore⟩
  · rw [hAfter, hBefore]
    exact ⟨_, rfl⟩

theorem storedHash_of_read {history : List (Entry τ World Event)} (h : Histories d calls world history)
    {t : τ} {act : Act World Event} {user : User} (hMem : act ∈ own t history)
    (hRead : UserRead act user) :
    ∃ stored, (stateAfter world history).database.storedHash user.id = some stored := by
  obtain ⟨e, hEntry, -, rfl⟩ := mem_own.mp hMem
  obtain ⟨newer, older, rfl⟩ := List.append_of_mem hEntry
  have hStored := Database.storedHash_of_mem hRead.stored
  rw [h.at_entry.1] at hStored
  rw [List.append_cons] at h ⊢
  exact storedHash_persists h hStored

/-- After an access that writes the hash of a user, the stored hash is one written by
this access or a later one. -/
theorem storedHash_mem_since {newer older : List (Entry τ World Event)} {e : Entry τ World Event}
    (h : Histories d calls world (newer ++ e :: older)) {userId : Int}
    (hWrites : userId ∈ updatedUsers e.events) :
    ∃ stored ∈ hashesSince userId (newer ++ [e]),
      (stateAfter world (newer ++ e :: older)).database.storedHash userId = some stored := by
  induction newer with
  | nil =>
    obtain ⟨hOlder, hBefore, hDiscipline⟩ := h.uncons
    rcases hDiscipline.hashWrite with ⟨hNone, -⟩ | ⟨user, _, written, salt, hWrite, hUpdate, hAfter⟩
    · rw [updatedUsers_eq_of_hashes hNone] at hWrites
      cases hWrites
    · rw [updatedUsers_eq_of_hashes hUpdate, List.map_singleton, List.mem_singleton] at hWrites
      subst hWrites
      obtain ⟨act, hMem, hRead⟩ := hWrite.read
      obtain ⟨old, hOld⟩ := storedHash_of_read hOlder hMem hRead
      refine ⟨d.sodium.pwhashStr salt written, ?_, ?_⟩
      · rw [List.nil_append, mem_hashesSince_singleton, hUpdate]
        exact List.mem_singleton_self _
      · rw [List.nil_append, stateAfter_cons, hAfter, hBefore, hOld, Option.map_some, if_pos rfl]
  | cons e' newer ih =>
    rw [List.cons_append] at h
    obtain ⟨hOlder, hBefore, hDiscipline⟩ := h.uncons
    obtain ⟨stored, hMem, hStored⟩ := ih hOlder
    rw [← hBefore] at hStored
    have hSplit : hashesSince userId (e' :: newer ++ [e]) =
        hashesSince userId [e'] ++ hashesSince userId (newer ++ [e]) :=
      hashesSince_append userId [e'] (newer ++ [e])
    rw [hSplit, List.cons_append, stateAfter_cons]
    rcases hDiscipline.hashWrite with ⟨-, hKeeps⟩ | ⟨user, _, written, salt, -, hUpdate, hAfter⟩
    · exact ⟨stored, List.mem_append_right _ hMem, hKeeps _ _ hStored⟩
    · by_cases hUser : userId = user.id
      · refine ⟨d.sodium.pwhashStr salt written, List.mem_append_left _ ?_, ?_⟩
        · rw [mem_hashesSince_singleton, hUpdate, hUser]
          exact List.mem_singleton_self _
        · rw [hAfter, hStored, Option.map_some, if_pos hUser]
      · refine ⟨stored, List.mem_append_right _ hMem, ?_⟩
        rw [hAfter, hStored, Option.map_some, if_neg hUser]

/-- The thread read the row of this user in this history. -/
def ReadsUser (t : τ) (userId : Int) (history : List (Entry τ World Event)) : Prop :=
  ∃ user ∈ selectedUsers (own t history), user.id = userId

/-- A login with a password that was right for one of these hashes. -/
def LoggedInWith (d : Deployment) (op : Operation) (past : List (Act World Event))
    (hashes : List String) : Prop :=
  ∃ process login password clientIp passwordHash, op = .login process login password clientIp ∧
    verifiedHashes past = [passwordHash] ∧ passwordHash ∈ hashes ∧
    PasswordHasher.matchesHash d.sodium password passwordHash = true

/-- A login inserted session `root` after the change `e`; if it read the user's row
after the change too, its password was right for a hash stored by the change or later. -/
def OpenedSince (d : Deployment) (calls : τ → Operation) (userId : Int)
    (newer : List (Entry τ World Event)) (e : Entry τ World Event)
    (older : List (Entry τ World Event)) (root : Int) : Prop :=
  ∃ last login first row, newer = last ++ login :: first ∧
    (∃ process name password clientIp, calls login.thread = .login process name password clientIp) ∧
    row ∈ inserted login.events ∧ row.parentSessionId = none ∧ row.userId = userId ∧ row.id = root ∧
    (ReadsUser login.thread userId first →
      LoggedInWith d (calls login.thread) (own login.thread (first ++ e :: older))
        (hashesSince userId (first ++ [e])))

theorem OpenedSince.cons {userId root : Int} {newer older : List (Entry τ World Event)}
    {e : Entry τ World Event} (h : OpenedSince d calls userId newer e older root)
    (e' : Entry τ World Event) : OpenedSince d calls userId (e' :: newer) e older root := by
  obtain ⟨last, login, first, row, rfl, hLogin⟩ := h
  exact ⟨e' :: last, login, first, row, rfl, hLogin⟩

/-- A login that reads the user's row after a write of the hash has verified a hash
stored since. -/
theorem loggedInWith_of_readsUser {login e : Entry τ World Event}
    {first older : List (Entry τ World Event)}
    (h : Histories d calls world (login :: (first ++ e :: older))) {userId : Int}
    (hWrites : userId ∈ updatedUsers e.events) {user : User} {row : AuthSession}
    (hInsert : LoginInsert d (calls login.thread) (own login.thread (first ++ e :: older)) login.toAct
      user row)
    (hReads : ReadsUser login.thread userId first) :
    LoggedInWith d (calls login.thread) (own login.thread (first ++ e :: older))
      (hashesSince userId (first ++ [e])) := by
  obtain ⟨process, name, password, clientIp, hOperation, hReady⟩ := hInsert.login
  refine ⟨process, name, password, clientIp, user.passwordHash, hOperation, hReady.verified, ?_,
    hReady.right⟩
  have hSelected := hReady.selected
  rw [own_append, selectedUsers_append] at hSelected
  obtain ⟨read, hRead, hId⟩ := hReads
  -- the one read of the login is the one after the change
  have hOnly : selectedUsers (own login.thread first) = [user] ∧
      selectedUsers (own login.thread (e :: older)) = [] := by
    cases hFirst : selectedUsers (own login.thread first) with
    | nil =>
      rw [hFirst] at hRead
      cases hRead
    | cons u rest =>
      rw [hFirst, List.cons_append, List.cons.injEq, List.append_eq_nil_iff] at hSelected
      obtain ⟨rfl, rfl, hNone⟩ := hSelected
      exact ⟨rfl, hNone⟩
  rw [hOnly.1, List.mem_singleton] at hRead
  subst hRead hId
  obtain ⟨act, hMem, hUserRead⟩ := hReady.read
  rw [own_append, List.mem_append] at hMem
  rcases hMem with hMem | hMem
  · obtain ⟨r, hEntry, -, rfl⟩ := mem_own.mp hMem
    obtain ⟨after, before, rfl⟩ := List.append_of_mem hEntry
    have hRun : Histories d calls world (after ++ r :: (before ++ e :: older)) := by
      have hOlder := h.uncons.1
      rw [List.append_assoc, List.cons_append] at hOlder
      exact hOlder
    have hStored := Database.storedHash_of_mem hUserRead.stored
    rw [hRun.at_entry.1] at hStored
    obtain ⟨stored, hSince, hSame⟩ := storedHash_mem_since (hRun.of_append.uncons.1) hWrites
    rw [hStored, Option.some.injEq] at hSame
    rw [List.append_assoc, List.cons_append, List.append_cons, hashesSince_append, hSame]
    exact List.mem_append_right _ hSince
  · have hNone := mem_selectedUsers hMem hUserRead
    rw [hOnly.2] at hNone
    cases hNone

/-- Where a session comes from that is unrevoked after the change `e`. -/
def Origin (d : Deployment) (calls : τ → Operation) (userId sessionId : Int)
    (newer : List (Entry τ World Event)) (e : Entry τ World Event)
    (older : List (Entry τ World Event)) (i : Int) : Prop :=
  Descends newer sessionId i ∨
    ∃ root, OpenedSince d calls userId newer e older root ∧ Descends newer root i

theorem Origin.cons {userId sessionId i : Int} {newer older : List (Entry τ World Event)}
    {e : Entry τ World Event} (h : Origin d calls userId sessionId newer e older i)
    (e' : Entry τ World Event) : Origin d calls userId sessionId (e' :: newer) e older i := by
  rcases h with hDescends | ⟨root, hOpened, hDescends⟩
  · exact Or.inl (hDescends.cons e')
  · exact Or.inr ⟨root, hOpened.cons e', hDescends.cons e'⟩

theorem Origin.refreshed {userId sessionId i : Int} {newer older : List (Entry τ World Event)}
    {e : Entry τ World Event} (h : Origin d calls userId sessionId newer e older i)
    {e' : Entry τ World Event} {row : AuthSession} (hRow : row ∈ inserted e'.events)
    (hParent : row.parentSessionId = some i) :
    Origin d calls userId sessionId (e' :: newer) e older row.id := by
  rcases h with hDescends | ⟨root, hOpened, hDescends⟩
  · exact Or.inl (hDescends.refreshed hRow hParent)
  · exact Or.inr ⟨root, hOpened.cons e', hDescends.refreshed hRow hParent⟩

/-- The one access that logs the revocation of a user's other sessions. -/
theorem Obeys.otherSessionsRevoked {op : Operation} {past : List (Act World Event)}
    {act : Act World Event} (h : Obeys d op past act) {userId sessionId : Int}
    (hEvent : .otherSessionsRevoked userId sessionId ∈ act.events) :
    userId ∈ updatedUsers act.events ∧
      ∀ s ∈ act.after.database.authSessions.rows, s.userId = userId → s.revoked = false →
        s.id = sessionId := by
  have hWrite : Event.otherSessionsRevoked userId sessionId ∈ Event.writes act.events :=
    Event.mem_writes.mpr ⟨hEvent, rfl⟩
  rw [updatedUsers, ← updatedHashes_writes]
  cases h with
  | @changePassword _ _ _ _ _ _ session user salt now revokedAt hReady hAfter hEvents =>
    rw [hEvents] at hWrite ⊢
    have hSame : userId = user.id ∧ sessionId = session.id := by simpa using hWrite
    obtain ⟨rfl, rfl⟩ := hSame
    refine ⟨List.mem_singleton_self _, ?_⟩
    intro s hs hOwner hLive
    rw [hAfter] at hs
    obtain ⟨old, -, rfl⟩ := Database.mem_revokeSessions.mp hs
    rw [Database.revokedRow_userId] at hOwner
    by_contra hOther
    rw [Database.revokedRow_id] at hOther
    simp [hOwner, hOther] at hLive
  | refresh hOutcome =>
    exfalso
    generalize Event.writes act.events = events at hWrite hOutcome
    generalize act.after.database = db' at hOutcome
    cases hOutcome <;> simp at hWrite
  | reads _ hEvents | register _ _ _ hEvents | upgradeHash _ _ _ _ hEvents
  | openSession _ _ _ _ hEvents | logout _ _ _ _ hEvents | logoutAll _ _ _ _ hEvents
  | revokeSession _ _ _ _ hEvents | administer _ _ _ hEvents | secureAdmin _ _ hEvents
  | expire _ hEvents =>
    rw [hEvents] at hWrite
    simp at hWrite

theorem origin_of_unrevoked {newer older : List (Entry τ World Event)} {e : Entry τ World Event}
    (h : Histories d calls world (newer ++ e :: older)) {userId sessionId : Int}
    (hChange : .otherSessionsRevoked userId sessionId ∈ e.events) :
    ∀ s ∈ (stateAfter world (newer ++ e :: older)).database.authSessions.rows, s.userId = userId →
      s.revoked = false → Origin d calls userId sessionId newer e older s.id := by
  induction newer with
  | nil =>
    intro s hs hOwner hLive
    obtain ⟨-, hOnly⟩ := h.uncons.2.2.otherSessionsRevoked hChange
    rw [hOnly s hs hOwner hLive]
    exact Or.inl Relation.ReflTransGen.refl
  | cons e' newer ih =>
    rw [List.cons_append] at h
    obtain ⟨hOlder, hBefore, hDiscipline⟩ := h.uncons
    have hOrigin := ih hOlder
    rw [← hBefore] at hOrigin
    intro s hs hOwner hLive
    rcases hDiscipline.sessionChange.mem hs with ⟨old, hOld, hContinues⟩ | hRow
    · have hOldLive : old.revoked = false := by
        by_contra hRevoked
        rw [hContinues.revoked (by simpa using hRevoked)] at hLive
        cases hLive
      rw [hContinues.id]
      exact (hOrigin old hOld (hContinues.userId.symm.trans hOwner) hOldLive).cons e'
    · rcases hDiscipline.inserted hRow with ⟨user, hInsert⟩ | ⟨session, hInsert⟩
      · refine Or.inr ⟨s.id, ?_, Relation.ReflTransGen.refl⟩
        obtain ⟨process, name, password, clientIp, hLogin, -⟩ := hInsert.login
        refine ⟨[], e', newer, s, rfl, ⟨process, name, password, clientIp, hLogin⟩, hRow, hInsert.new.parent,
          hOwner, rfl, ?_⟩
        have hWrites := (hOlder.at_entry.2.otherSessionsRevoked hChange).1
        exact loggedInWith_of_readsUser h hWrites hInsert
      · have hSessionOwner : session.userId = userId := hInsert.new.userId.symm.trans hOwner
        exact (hOrigin session hInsert.mem hSessionOwner hInsert.unrevoked).refreshed hRow
          hInsert.new.parent

/-- In every state after a change of password from session `sessionId` has committed,
an unrevoked session of the user descends from that session or from a login that
inserted its session after the change. -/
theorem unrevoked_after_change (d : Deployment) (calls : τ → Operation) (world : World)
    (schedule : List (τ × (Nat → Surroundings))) (newer : List (Entry τ World Event))
    (e : Entry τ World Event) (older : List (Entry τ World Event))
    (hSplit : ((d.pool calls world).run schedule).history = newer ++ e :: older)
    (userId sessionId : Int) (hChange : .otherSessionsRevoked userId sessionId ∈ e.events) :
    ∀ s ∈ ((d.pool calls world).run schedule).state.database.authSessions.rows, s.userId = userId →
      s.revoked = false → Origin d calls userId sessionId newer e older s.id := by
  have hRun := running_pool d calls world schedule
  have hExecution := hRun.execution
  rw [hRun.state, hSplit]
  rw [hSplit] at hExecution
  exact origin_of_unrevoked hExecution hChange

/-! ## A refresh and a login around the change -/

namespace Sample

/-- The session of thread 1 is the one that thread 2 refreshes. -/
def changeCalls : Fin 3 → Operation
  | 0 => .login 0 "alice" "old-password" "10.0.0.1"
  | 1 => .changePassword 0 "sc_at_alice" "old-password" "new-password"
  | 2 => .refresh 0 "sc_rt_alice"

/-- The login has found the old password right and not yet inserted its session. -/
def changeDuringLogin : List (Fin 3 × (Nat → Surroundings)) :=
  turns 0 10 "a" ++ turns 1 12 "b" ++ turns 2 3 "c" ++ turns 0 8 "d"

end Sample

theorem unrevoked_after_change_sample :
    let ran := (Sample.deployment.pool Sample.changeCalls Sample.world).run Sample.changeDuringLogin
    ∀ s ∈ ran.state.database.authSessions.rows, s.userId = 1 → s.revoked = false →
      Origin Sample.deployment Sample.changeCalls 1 1 (ran.history.take 8)
        (ran.history.get ⟨8, by decide +kernel⟩) (ran.history.drop 9) s.id :=
  unrevoked_after_change Sample.deployment Sample.changeCalls Sample.world Sample.changeDuringLogin
    _ _ _ (by rw [List.get_eq_getElem, List.getElem_cons_drop, List.take_append_drop]) 1 1
    (by decide +kernel)

/-- Every unrevoked session of the user but `sessionId` descends from a login that
verified a hash stored `since`. -/
def OnlyNewLogins (userId sessionId : Int) (history since : List (Entry τ World Event))
    (db : Database) : Prop :=
  ∀ s ∈ db.authSessions.rows, s.userId = userId → s.id ≠ sessionId → s.revoked = false →
    ∃ last login first row, history = last ++ login :: first ∧ row ∈ inserted login.events ∧
      row.parentSessionId = none ∧ Descends history row.id s.id ∧
      ∃ passwordHash ∈ verifiedHashes (own login.thread first),
        passwordHash ∈ hashesSince userId since

/-- Both the successor of the session that changed the password and the session of the
login are unrevoked, and no login of the run has verified the new hash. -/
theorem old_logins_outlive_change :
    let ran := (Sample.deployment.pool Sample.changeCalls Sample.world).run Sample.changeDuringLogin
    let since := ran.history.take 9
    since.getLast?.map (fun e => Event.writes e.events) = some [.passwordHashUpdated 1 "$new-password",
      .otherSessionsRevoked 1 1, .committed] ∧
    (∃ s ∈ ran.state.database.authSessions.rows, s.userId = 1 ∧ s.revoked = false ∧
      s.parentSessionId = some 1) ∧
    (∃ s ∈ ran.state.database.authSessions.rows, s.userId = 1 ∧ s.id ≠ 1 ∧ s.revoked = false ∧
      s.parentSessionId = none) ∧
    ¬ OnlyNewLogins 1 1 ran.history since ran.state.database := by
  intro ran since
  refine ⟨by decide +kernel, by decide +kernel, by decide +kernel, ?_⟩
  intro hOnly
  have hNone : Always (fun login first => ∀ row ∈ inserted login.events, row.parentSessionId = none →
      ∀ passwordHash ∈ verifiedHashes (own login.thread first),
        passwordHash ∉ hashesSince 1 since) ran.history := by
    decide +kernel
  have hUnrevoked : ∃ s ∈ ran.state.database.authSessions.rows, s.userId = 1 ∧ s.id ≠ 1 ∧
      s.revoked = false := by
    decide +kernel
  obtain ⟨s, hs, hOwner, hOther, hLive⟩ := hUnrevoked
  obtain ⟨last, login, first, row, hSplit, hRow, hRoot, -, passwordHash, hVerified, hSince⟩ :=
    hOnly s hs hOwner hOther hLive
  rw [hSplit] at hNone
  exact hNone.at_entry row hRow hRoot passwordHash hVerified hSince

end SecureCore
