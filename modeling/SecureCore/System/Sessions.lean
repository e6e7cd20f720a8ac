import SecureCore.Lineage.Chains
import SecureCore.System.Obedience

/-! # The table of sessions under all operations

Every access leaves auth_sessions alone, revokes, expires, opens a root or rotates,
and so is a step of a store of succeeding nodes. -/

namespace SecureCore

set_option autoImplicit false

open Interleaving Relational

/-- The sessions that an access inserts. -/
def inserted (events : List Event) : List AuthSession := events.filterMap Event.insertedSession

theorem inserted_writes (events : List Event) : inserted (Event.writes events) = inserted events := by
  apply Event.filterMap_writes
  intro e hRead
  cases e <;> first | rfl | cases hRead

/-- What one access makes of auth_sessions, with the rows it inserts. -/
inductive SessionChange (db : Database) : List AuthSession → Table AuthSession → Prop
  | same : SessionChange db [] db.authSessions
  | revoked (condition : AuthSession → Bool) (revokedAt : Option String → String) :
      SessionChange db [] (db.revokeSessions condition revokedAt).authSessions
  | expired (currentTime : Int) :
      SessionChange db [] (db.deleteExpiredSessions currentTime).authSessions
  | opened {userId : Int} {row : AuthSession} (hNew : NewSession db userId none row) :
      SessionChange db [row] (db.insertSession row).authSessions
  | rotated {session child : AuthSession} (revokedAt : String)
      (hMem : session ∈ db.authSessions.rows) (hUnrevoked : session.revoked = false)
      (hNew : NewSession db session.userId (some session.id) child)
      (hFamily : session.tokenFamilyId.isEmpty = false →
        child.tokenFamilyId = session.tokenFamilyId) :
      SessionChange db [child] (db.rotateSession session child revokedAt).authSessions

theorem AdminChange.sessionChange {db db' : Database} {userId : Int} {action : AdminAction}
    (h : AdminChange db userId action db') : SessionChange db [] db'.authSessions := by
  cases h with
  | enabled now => exact .same
  | disabled now revokedAt hUser hGuard =>
    exact .revoked (fun s => s.userId == userId) (fun _ => revokedAt)
  | alreadyEnabled | alreadyDisabled => exact .same
  | @granted roleName _ _ _ _ _ _ =>
    have hSame : ∀ row now, (db.grantRole row roleName now).authSessions = db.authSessions := by
      intro row now
      simp only [Database.grantRole, Database.insertUserRole]
      split <;> split <;> rfl
    rw [hSame]
    exact .same
  | @removed _ roleName roleId now _ _ _ =>
    have hSame : (db.removeRole userId roleId roleName now).authSessions = db.authSessions := by
      simp only [Database.removeRole]
      split <;> rfl
    rw [hSame]
    exact .same

theorem AuthService.RefreshOutcome.sessionChange {db db' : Database} {tokenHash : String} {now : Int}
    {r : Except Exception LoginResult} {events : List Event}
    (h : RefreshOutcome db tokenHash now r db' events) :
    SessionChange db (inserted events) db'.authSessions := by
  cases h with
  | reusedFamily revokedAt hFound hRevoked hFamily => exact .revoked _ _
  | reusedUser revokedAt hFound hRevoked hFamily =>
    split
    · exact .same
    · exact .revoked _ _
  | refused revokedAt hFound hUnrevoked hReason => exact .revoked _ _
  | rotated revokedAt hFound hUnrevoked hUnexpired hUser hEnabled hNew hFamily =>
    have hMem := (Table.mem_of_first hFound).1
    rw [(Database.findUserById_eq_some hUser).2] at hNew
    exact .rotated revokedAt hMem hUnrevoked hNew hFamily

theorem Obeys.sessionChange {d : Deployment} {op : Operation} {past : List (Act World Event)}
    {act : Act World Event} (h : Obeys d op past act) :
    SessionChange act.before.database (inserted act.events) act.after.database.authSessions := by
  rw [← inserted_writes]
  cases h with
  | reads hSame hEvents =>
    rw [hSame, hEvents]
    exact .same
  | register now hUnused hAfter hEvents =>
    rw [hAfter, hEvents]
    exact .same
  | upgradeHash salt now hReady hAfter hEvents =>
    rw [hAfter, hEvents]
    exact .same
  | openSession hReady hFamily hNew hAfter hEvents =>
    rw [hAfter, hEvents]
    exact .opened hNew
  | refresh hOutcome => exact hOutcome.sessionChange
  | logout revokedAt _ _ hAfter hEvents | logoutAll revokedAt _ _ hAfter hEvents
  | revokeSession revokedAt _ _ hAfter hEvents =>
    rw [hAfter, hEvents]
    exact .revoked _ _
  | changePassword salt now revokedAt hReady hAfter hEvents =>
    rw [hAfter, hEvents]
    exact .revoked _ (fun _ => revokedAt)
  | administer hRequest hAuthorised hChange hEvents | secureAdmin hAction hChange hEvents =>
    rw [hEvents]
    exact hChange.sessionChange
  | expire hAfter hEvents =>
    rw [hAfter, hEvents]
    exact .expired _

/-- The row is the same but that it may have been revoked. -/
structure Continues (old new : AuthSession) : Prop where
  id : new.id = old.id
  userId : new.userId = old.userId
  accessTokenHash : new.accessTokenHash = old.accessTokenHash
  refreshTokenHash : new.refreshTokenHash = old.refreshTokenHash
  tokenFamilyId : new.tokenFamilyId = old.tokenFamilyId
  parentSessionId : new.parentSessionId = old.parentSessionId
  revoked : old.revoked = true → new.revoked = true

theorem Continues.refl (s : AuthSession) : Continues s s := ⟨rfl, rfl, rfl, rfl, rfl, rfl, fun h => h⟩

theorem continues_revokedRow (condition : AuthSession → Bool) (revokedAt : Option String → String)
    (s : AuthSession) : Continues s (Database.revokedRow condition revokedAt s) := by
  refine ⟨by simp, by simp, by simp, by simp, by simp, by simp, ?_⟩
  intro hRevoked
  simp [hRevoked]

/-- Where a row of the table after an access comes from. -/
theorem SessionChange.mem {db : Database} {rows : List AuthSession} {t : Table AuthSession}
    (h : SessionChange db rows t) {s : AuthSession} (hs : s ∈ t.rows) :
    (∃ old ∈ db.authSessions.rows, Continues old s) ∨ s ∈ rows := by
  cases h with
  | same => exact Or.inl ⟨s, hs, Continues.refl s⟩
  | revoked condition revokedAt =>
    obtain ⟨old, hOld, rfl⟩ := Database.mem_revokeSessions.mp hs
    exact Or.inl ⟨old, hOld, continues_revokedRow _ _ _⟩
  | expired currentTime => exact Or.inl ⟨s, (Table.mem_delete.mp hs).1, Continues.refl s⟩
  | opened hNew =>
    rcases (Database.mem_insertSession hNew.id).mp hs with hs | rfl
    · exact Or.inl ⟨s, hs, Continues.refl s⟩
    · exact Or.inr (List.mem_singleton_self _)
  | rotated revokedAt hMem hUnrevoked hNew hFamily =>
    rcases (@Database.mem_insertSession (db.revokeSessions _ _) _ hNew.id _).mp hs with hs | rfl
    · obtain ⟨old, hOld, rfl⟩ := Database.mem_revokeSessions.mp hs
      exact Or.inl ⟨old, hOld, continues_revokedRow _ _ _⟩
    · exact Or.inr (List.mem_singleton_self _)

theorem SessionChange.id_of_inserted {db : Database} {rows : List AuthSession} {t : Table AuthSession}
    (h : SessionChange db rows t) {row : AuthSession} (hRow : row ∈ rows) :
    row.id = db.authSessions.nextKey := by
  cases h with
  | same | revoked | expired => cases hRow
  | opened hNew | rotated _ _ _ hNew =>
    rw [List.mem_singleton.mp hRow]
    exact hNew.id

theorem SessionChange.nextKey_le {db : Database} {rows : List AuthSession} {t : Table AuthSession}
    (h : SessionChange db rows t) : db.authSessions.nextKey ≤ t.nextKey := by
  cases h with
  | same | revoked | expired => exact Int.le_refl _
  | opened | rotated => exact Int.le_of_lt (Int.lt_succ _)

/-- The id has been handed out, and what it names has the property. -/
structure Names (i : Int) (P : AuthSession → Prop) (t : Table AuthSession) : Prop where
  issued : i < t.nextKey
  rows : ∀ s ∈ t.rows, s.id = i → P s

theorem names_of_mem {t : Table AuthSession} {s : AuthSession} (hs : s ∈ t.rows)
    {P : AuthSession → Prop} (hP : P s) : Names s.id P t := by
  refine ⟨Table.lt_nextKey hs, ?_⟩
  intro s' hs' hId
  rw [Table.eq_of_key hs' hs hId]
  exact hP

/-- Ids are never used again, so what holds of a session as long as it is kept holds
under its id for good. -/
theorem SessionChange.names {db : Database} {rows : List AuthSession} {t : Table AuthSession}
    (h : SessionChange db rows t) {i : Int} {P : AuthSession → Prop}
    (hP : ∀ old new, Continues old new → P old → P new) (hNames : Names i P db.authSessions) :
    Names i P t := by
  refine ⟨Int.lt_of_lt_of_le hNames.issued h.nextKey_le, ?_⟩
  intro s hs hId
  rcases h.mem hs with ⟨old, hOld, hContinues⟩ | hRow
  · exact hP old s hContinues (hNames.rows old hOld (hContinues.id.symm.trans hId))
  · have hNew := h.id_of_inserted hRow
    have hIssued := hNames.issued
    omega

/-- A root comes from a login. -/
structure LoginInsert (d : Deployment) (op : Operation) (past : List (Act World Event))
    (act : Act World Event) (user : User) (row : AuthSession) : Prop where
  login : ∃ process login password clientIp, op = .login process login password clientIp ∧
    LoginReady d login password user past
  family : generatedFamilies past = [row.tokenFamilyId]
  new : NewSession act.before.database user.id none row
  after : act.after.database = act.before.database.insertSession row

/-- Every other row comes from the rotation of an unrevoked session of an enabled user. -/
structure RefreshInsert (op : Operation) (act : Act World Event) (session child : AuthSession) :
    Prop where
  refresh : ∃ process refreshToken, op = .refresh process refreshToken
  mem : session ∈ act.before.database.authSessions.rows
  unrevoked : session.revoked = false
  user : ∃ user, act.before.database.findUserById session.userId = some user ∧ user.enabled = true
  new : NewSession act.before.database session.userId (some session.id) child
  family : session.tokenFamilyId.isEmpty = false → child.tokenFamilyId = session.tokenFamilyId

theorem AuthService.RefreshOutcome.inserted {db db' : Database} {tokenHash : String} {now : Int}
    {r : Except Exception LoginResult} {events : List Event} {row : AuthSession}
    (h : RefreshOutcome db tokenHash now r db' events) (hRow : row ∈ inserted events) :
    ∃ session ∈ db.authSessions.rows, session.revoked = false ∧
      (∃ user, db.findUserById session.userId = some user ∧ user.enabled = true) ∧
      NewSession db session.userId (some session.id) row ∧
      (session.tokenFamilyId.isEmpty = false → row.tokenFamilyId = session.tokenFamilyId) := by
  cases h with
  | @rotated session child user tokens revokedAt hFound hUnrevoked hUnexpired hUser hEnabled hNew
      hFamily =>
    have hChild : row = child := List.mem_singleton.mp hRow
    subst hChild
    have hMem := (Table.mem_of_first hFound).1
    refine ⟨session, hMem, hUnrevoked, ⟨user, hUser, hEnabled⟩, ?_, hFamily⟩
    rw [← (Database.findUserById_eq_some hUser).2]
    exact hNew
  | _ => cases hRow

theorem Obeys.inserted {d : Deployment} {op : Operation} {past : List (Act World Event)}
    {act : Act World Event} (h : Obeys d op past act) {row : AuthSession}
    (hRow : row ∈ inserted act.events) :
    (∃ user, LoginInsert d op past act user row) ∨ ∃ session, RefreshInsert op act session row := by
  rw [← inserted_writes] at hRow
  cases h with
  | openSession hReady hFamily hNew hAfter hEvents =>
    rw [hEvents] at hRow
    cases List.mem_singleton.mp hRow
    exact Or.inl ⟨_, ⟨_, _, _, _, rfl, hReady⟩, hFamily, hNew, hAfter⟩
  | refresh hOutcome =>
    obtain ⟨session, hMem, hUnrevoked, hUser, hNew, hFamily⟩ := hOutcome.inserted hRow
    exact Or.inr ⟨session, ⟨_, _, rfl⟩, hMem, hUnrevoked, hUser, hNew, hFamily⟩
  | reads _ hEvents | register _ _ _ hEvents | upgradeHash _ _ _ _ hEvents
  | logout _ _ _ _ hEvents | logoutAll _ _ _ _ hEvents | revokeSession _ _ _ _ hEvents
  | changePassword _ _ _ _ _ hEvents | administer _ _ _ hEvents | secureAdmin _ _ hEvents
  | expire _ hEvents =>
    rw [hEvents] at hRow
    cases hRow

/-! ## Rows as nodes -/

open Lineage

namespace AuthSession

def toNode (s : AuthSession) : Node Int Int String :=
  ⟨s.id, s.userId, s.tokenFamilyId, s.parentSessionId, s.revoked = false⟩

end AuthSession

/-- The sessions of a table as a store of succeeding nodes. -/
def nodes (t : Table AuthSession) : Set (Node Int Int String) :=
  AuthSession.toNode '' {s | s ∈ t.rows}

theorem mem_nodes {t : Table AuthSession} {s : AuthSession} (h : s ∈ t.rows) : s.toNode ∈ nodes t :=
  ⟨s, h, rfl⟩

namespace Database

variable {db : Database}

theorem session_eq_of_id {s t : AuthSession} (hs : s ∈ db.authSessions.rows)
    (ht : t ∈ db.authSessions.rows) (h : s.id = t.id) : s = t :=
  Table.eq_of_key hs ht h

theorem session_lt_nextKey {s : AuthSession} (h : s ∈ db.authSessions.rows) :
    s.id < db.authSessions.nextKey :=
  Table.lt_nextKey h

theorem nodes_revokeSessions (condition : AuthSession → Bool) (revokedAt : Option String → String) :
    nodes (db.revokeSessions condition revokedAt).authSessions =
      Node.kill (fun n => ∃ s ∈ db.authSessions.rows, s.id = n.id ∧ condition s = true) ''
        nodes db.authSessions := by
  have hRow : ∀ s ∈ db.authSessions.rows, (revokedRow condition revokedAt s).toNode =
      s.toNode.kill (fun n => ∃ s ∈ db.authSessions.rows, s.id = n.id ∧ condition s = true) := by
    intro s hs
    unfold AuthSession.toNode
    ext1
    · simp
    · simp
    · simp
    · simp
    · simp only [revokedRow_revoked, Bool.or_eq_false_iff, eq_iff_iff, Node.kill_live]
      constructor
      · rintro ⟨hLive, hCondition⟩
        refine ⟨hLive, ?_⟩
        rintro ⟨t, ht, hId, hTrue⟩
        rw [session_eq_of_id ht hs hId, hCondition] at hTrue
        cases hTrue
      · rintro ⟨hLive, hNone⟩
        refine ⟨hLive, ?_⟩
        by_contra hTrue
        exact hNone ⟨s, hs, rfl, by simpa using hTrue⟩
  ext n
  constructor
  · rintro ⟨t, ht, rfl⟩
    obtain ⟨s, hs, rfl⟩ := mem_revokeSessions.mp ht
    exact ⟨s.toNode, mem_nodes hs, (hRow s hs).symm⟩
  · rintro ⟨_, ⟨s, hs, rfl⟩, rfl⟩
    exact ⟨revokedRow condition revokedAt s, mem_revokeSessions.mpr ⟨s, hs, rfl⟩, hRow s hs⟩

theorem nodes_insertSession {row : AuthSession} (hId : row.id = db.authSessions.nextKey) :
    nodes (db.insertSession row).authSessions = insert row.toNode (nodes db.authSessions) := by
  ext n
  constructor
  · rintro ⟨s, hs, rfl⟩
    rcases (mem_insertSession hId).mp hs with hs | rfl
    · exact Or.inr (mem_nodes hs)
    · exact Or.inl rfl
  · rintro (rfl | ⟨s, hs, rfl⟩)
    · exact mem_nodes ((mem_insertSession hId).mpr (Or.inr rfl))
    · exact mem_nodes ((mem_insertSession hId).mpr (Or.inl hs))

theorem nodes_deleteExpiredSessions (currentTime : Int) :
    nodes (db.deleteExpiredSessions currentTime).authSessions ⊆ nodes db.authSessions := by
  rintro _ ⟨s, hs, rfl⟩
  exact mem_nodes (Table.mem_delete.mp hs).1

theorem nodes_rotateSession {session child : AuthSession} (revokedAt : String)
    (hMem : session ∈ db.authSessions.rows) (hId : child.id = db.authSessions.nextKey) :
    nodes (db.rotateSession session child revokedAt).authSessions = insert child.toNode
      (Node.kill (fun n => n.id = session.id) '' nodes db.authSessions) := by
  have hCondition : (fun n : Node Int Int String =>
      ∃ s ∈ db.authSessions.rows, s.id = n.id ∧ (s.id == session.id) = true) =
      fun n => n.id = session.id := by
    funext n
    rw [eq_iff_iff]
    constructor
    · rintro ⟨s, -, hId, hSession⟩
      rw [← hId]
      exact beq_iff_eq.mp hSession
    · intro hId
      exact ⟨session, hMem, hId.symm, beq_self_eq_true _⟩
  unfold rotateSession
  rw [nodes_insertSession (by simpa using hId), nodes_revokeSessions, hCondition]

end Database

/-- The families of a table have names, and a new root takes none of them. -/
theorem SessionChange.step {db : Database} {rows : List AuthSession} {t : Table AuthSession}
    (h : SessionChange db rows t) (hNamed : ∀ s ∈ db.authSessions.rows, s.tokenFamilyId.isEmpty = false)
    (hFresh : ∀ row ∈ rows, row.parentSessionId = none →
      ∀ s ∈ db.authSessions.rows, s.tokenFamilyId ≠ row.tokenFamilyId) :
    Step (nodes db.authSessions) (nodes t) := by
  cases h with
  | same => exact .forget (Set.Subset.refl _)
  | revoked condition revokedAt =>
    rw [Database.nodes_revokeSessions]
    exact .kill _
  | expired currentTime => exact .forget (Database.nodes_deleteExpiredSessions currentTime)
  | @opened userId row hNew =>
    rw [Database.nodes_insertSession hNew.id]
    apply Step.opened
    · rintro _ ⟨s, hs, rfl⟩
      exact lt_of_lt_of_eq (Database.session_lt_nextKey hs) hNew.id.symm
    · exact hNew.parent
    · rintro _ ⟨s, hs, rfl⟩
      exact hFresh row (List.mem_singleton_self row) hNew.parent s hs
  | @rotated session child revokedAt hMem hUnrevoked hNew hFamily =>
    rw [Database.nodes_rotateSession revokedAt hMem hNew.id]
    apply Step.succeeded (mem_nodes hMem)
    · exact hUnrevoked
    · rintro _ ⟨s, hs, rfl⟩
      exact lt_of_lt_of_eq (Database.session_lt_nextKey hs) hNew.id.symm
    · exact hNew.parent
    · exact hFamily (hNamed session hMem)
    · exact hNew.userId

end SecureCore
