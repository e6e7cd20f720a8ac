import Mathlib.Data.List.Forall2
import SecureCore.Service.TransactionRules

/-! # What a refresh leaves behind

A refresh alone, with a failure at any of its accesses: it rotates the presented
session, or revokes and answers with one of four errors, or changes nothing. -/

set_option autoImplicit false

namespace SecureCore

open Interleaving Relational Transaction

/-! ## Changes of the sessions -/

/-- The row has been revoked, and nothing else about it has changed. -/
def NewlyRevoked (s s' : AuthSession) : Prop :=
  s.revoked = false ∧ ∃ revokedAt, s' = { s with revoked := true, revokedAt := some revokedAt }

/-- Nothing has changed, except that some unrevoked sessions with `p` have been revoked. -/
structure OnlyRevokes (p : AuthSession → Prop) (db db' : Database) : Prop where
  sessions : List.Forall₂ (fun s s' => s' = s ∨ p s ∧ NewlyRevoked s s') db.authSessions.rows
    db'.authSessions.rows
  sequence : db'.authSessions.sequence = db.authSessions.sequence
  others : db' = { db with authSessions := db'.authSessions }

variable {db : Database}

theorem onlyRevokes_refl (p : AuthSession → Prop) (db : Database) : OnlyRevokes p db db := by
  constructor
  · apply List.forall₂_same.mpr
    intro s _
    exact Or.inl rfl
  · rfl
  · rfl

theorem revokedRow_cases (condition : AuthSession → Bool) (revokedAt : Option String → String)
    (s : AuthSession) :
    Database.revokedRow condition revokedAt s = s ∨
      condition s = true ∧ NewlyRevoked s (Database.revokedRow condition revokedAt s) := by
  unfold Database.revokedRow
  split
  · rename_i h
    simp only [Bool.and_eq_true, Bool.not_eq_true'] at h
    obtain ⟨hCondition, hUnrevoked⟩ := h
    exact Or.inr ⟨hCondition, hUnrevoked, _, rfl⟩
  · exact Or.inl rfl

theorem revokeSessions_rows (condition : AuthSession → Bool) (revokedAt : Option String → String) :
    (db.revokeSessions condition revokedAt).authSessions.rows =
      db.authSessions.rows.map (Database.revokedRow condition revokedAt) := rfl

theorem onlyRevokes_revokeSessions {p : AuthSession → Prop} {condition : AuthSession → Bool}
    (h : ∀ s ∈ db.authSessions.rows, condition s = true → p s)
    (revokedAt : Option String → String) :
    OnlyRevokes p db (db.revokeSessions condition revokedAt) := by
  constructor
  · rw [revokeSessions_rows]
    apply List.forall₂_map_right_iff.mpr
    apply List.forall₂_same.mpr
    intro s hs
    obtain hSame | ⟨hCondition, hRevoked⟩ := revokedRow_cases condition revokedAt s
    · exact Or.inl hSame
    · exact Or.inr ⟨h s hs hCondition, hRevoked⟩
  · rfl
  · rfl

namespace AuthService

/-! ## The three ways in which refresh ends -/

/-- The errors before which refresh may have revoked sessions. -/
def refreshErrors : List Exception :=
  [refreshTokenReused, refreshTokenExpired, invalidRefreshToken, accountDisabled]

/-- The sessions that the holder of a refresh token answers for: those of its family,
for a session without a family those of its user. -/
def AnswersFor (session s : AuthSession) : Prop :=
  if session.tokenFamilyId.isEmpty then s.userId = session.userId
  else s.tokenFamilyId = session.tokenFamilyId

/-- The presented session has been revoked, and `child` is the one new session. -/
structure Rotates (service : AuthService) (db : Database) (session child : AuthSession)
    (tokens : AuthTokenPair) (db' : Database) : Prop where
  presented : ∃ revokedAt, { session with revoked := true, revokedAt := some revokedAt } ∈
    db'.authSessions.rows
  sessions : ∃ earlier, db'.authSessions.rows = earlier ++ [child] ∧
    List.Forall₂ (fun s s' => if s.id = session.id then NewlyRevoked s s' else s' = s)
      db.authSessions.rows earlier
  others : db' = { db with authSessions := db'.authSessions }
  id : child.id = db.authSessions.nextKey
  unrevoked : child.revoked = false
  parent : child.parentSessionId = some session.id
  userId : child.userId = session.userId
  family : session.tokenFamilyId.isEmpty = false → child.tokenFamilyId = session.tokenFamilyId
  holds : service.SessionOf tokens child
  /-- No session but the new one answers to either of the tokens. -/
  only : ∀ s ∈ db'.authSessions.rows, s.accessTokenHash = child.accessTokenHash ∨
    s.refreshTokenHash = child.refreshTokenHash → s = child

/-- What may have become of the database after refresh has returned or thrown. -/
def RefreshLeaves (service : AuthService) (refreshToken : String) (db : Database)
    (r : Except Exception LoginResult) (db' : Database) : Prop :=
  let presented := db.findSessionByRefreshTokenHash
    (TokenService.hashToken service.sodium refreshToken)
  match r with
  | .ok answer => ∃ session child, presented = some session ∧
    service.Rotates db session child answer.tokens db'
  | .error e =>
    (e ∈ refreshErrors →
      OnlyRevokes (fun s => ∃ session, presented = some session ∧ AnswersFor session s) db db') ∧
    (e ∉ refreshErrors → db' = db)

variable {service : AuthService} {refreshToken : String}

theorem refreshLeaves_unchanged (e : Exception) (db : Database) :
    service.RefreshLeaves refreshToken db (.error e) db :=
  ⟨fun _ => onlyRevokes_refl _ db, fun _ => rfl⟩

theorem refreshLeaves_revoked {session : AuthSession} {e : Exception}
    {condition : AuthSession → Bool} (he : e ∈ refreshErrors)
    (hFound : db.findSessionByRefreshTokenHash
      (TokenService.hashToken service.sodium refreshToken) = some session)
    (h : ∀ s ∈ db.authSessions.rows, condition s = true → AnswersFor session s)
    (revokedAt : Option String → String) :
    service.RefreshLeaves refreshToken db (.error e) (db.revokeSessions condition revokedAt) := by
  constructor
  · intro _
    apply onlyRevokes_revokeSessions
    intro s hs hCondition
    exact ⟨session, hFound, h s hs hCondition⟩
  · intro hOther
    exact absurd he hOther

theorem answersFor_self (session : AuthSession) : AnswersFor session session := by
  unfold AnswersFor
  split <;> rfl

theorem rotates_rotateSession {session child : AuthSession} {tokens : AuthTokenPair} {userId : Int}
    (hMem : session ∈ db.authSessions.rows) (hUnrevoked : session.revoked = false)
    (hUser : userId = session.userId) (hNew : NewSession db userId (some session.id) child)
    (hFamily : session.tokenFamilyId.isEmpty = false →
      child.tokenFamilyId = session.tokenFamilyId)
    (hTokens : service.SessionOf tokens child) (revokedAt : String) :
    service.Rotates db session child tokens (db.rotateSession session child revokedAt) := by
  have hRows : (db.rotateSession session child revokedAt).authSessions.rows =
      db.authSessions.rows.map (Database.revokedRow (fun s => s.id == session.id)
        (fun _ => revokedAt)) ++ [child] := by
    have hChild : Keyed.withKey db.authSessions.nextKey child = child := by
      rw [← hNew.id]
      rfl
    change _ ++ [Keyed.withKey db.authSessions.nextKey child] = _
    rw [hChild, revokeSessions_rows]
  have hRow : ∀ s : AuthSession, s.id = session.id → s.revoked = false →
      Database.revokedRow (fun s => s.id == session.id) (fun _ => revokedAt) s =
        { s with revoked := true, revokedAt := some revokedAt } := by
    intro s hs hOpen
    simp [Database.revokedRow, hs, hOpen]
  constructor
  · refine ⟨revokedAt, ?_⟩
    rw [hRows, ← hRow session rfl hUnrevoked]
    exact List.mem_append_left _ (List.mem_map_of_mem hMem)
  · refine ⟨_, hRows, ?_⟩
    apply List.forall₂_map_right_iff.mpr
    apply List.forall₂_same.mpr
    intro s hs
    split
    · rename_i hId
      obtain rfl := Table.eq_of_key hs hMem hId
      exact ⟨hUnrevoked, revokedAt, hRow s rfl hUnrevoked⟩
    · rename_i hId
      simp [Database.revokedRow, hId]
  · rfl
  · exact hNew.id
  · exact hNew.unrevoked
  · exact hNew.parent
  · exact hNew.userId.trans hUser
  · exact hFamily
  · exact hTokens
  · intro s hs hSame
    rw [hRows] at hs
    obtain hOld | hChild := List.mem_append.mp hs
    · obtain ⟨s', hs', rfl⟩ := List.mem_map.mp hOld
      simp only [Database.revokedRow_accessTokenHash, Database.revokedRow_refreshTokenHash] at hSame
      have hUnused := hNew.unused s' hs'
      obtain hAccess | hRefresh := hSame
      · exact absurd hAccess hUnused.1
      · exact absurd hRefresh hUnused.2
    · exact List.mem_singleton.mp hChild

/-- Each way to commit is one of those that the three cases allow. -/
theorem refreshLeaves_of_outcome {now : Int} {r : Except Exception LoginResult} {db' : Database}
    {events : List Event}
    (h : RefreshOutcome db (TokenService.hashToken service.sodium refreshToken) now r db' events)
    (hDelivered : service.Delivered r events) : service.RefreshLeaves refreshToken db r db' := by
  cases h with
  | reusedFamily revokedAt hFound hRevoked hFamily =>
    apply refreshLeaves_revoked (by simp [refreshErrors]) hFound
    intro s _ hSame
    simpa [AnswersFor, hFamily] using hSame
  | reusedUser revokedAt hFound hRevoked hFamily =>
    split
    · exact refreshLeaves_unchanged _ _
    · apply refreshLeaves_revoked (by simp [refreshErrors]) hFound
      intro s _ hSame
      simpa [AnswersFor, hFamily] using hSame
  | @refused session e revokedAt hFound hUnrevoked hReason =>
    have hError : e ∈ refreshErrors := by
      obtain ⟨_, rfl⟩ | ⟨_, rfl⟩ | ⟨_, rfl⟩ := hReason <;> simp [refreshErrors]
    apply refreshLeaves_revoked hError hFound
    intro s hs hId
    have hMem := (Table.mem_of_first hFound).1
    obtain rfl : s = session := Table.eq_of_key hs hMem (of_decide_eq_true hId)
    exact answersFor_self s
  | @rotated session child user tokens revokedAt hFound hUnrevoked hUnexpired hUser hEnabled hNew
      hFamily =>
    refine ⟨session, child, hFound, ?_⟩
    have hMem := (Table.mem_of_first hFound).1
    have hOwner := (Database.findUserById_eq_some hUser).2
    have hTokens := hDelivered _ rfl child List.mem_cons_self
    exact rotates_rotateSession hMem hUnrevoked hOwner hNew hFamily hTokens revokedAt

/-- Wherever it fails, refresh rotates the presented session as a whole, or revokes
sessions of its family and says so, or changes nothing. -/
theorem refresh_leaves (service : AuthService) (refreshToken : String)
    (inputs : Nat → Nat → Surroundings) (w : World) :
    let ran := Process.run (service.refresh refreshToken).run inputs w
    service.RefreshLeaves refreshToken w.database ran.result ran.state.database := by
  have hEnsures : (service.refresh refreshToken).Ensures w
      (fun r w' _ => service.RefreshLeaves refreshToken w.database r w'.database) := by
    apply Fallible.ensures_bind.mpr
    apply Fallible.ensures_throwIf.mpr
    refine ⟨fun _ => refreshLeaves_unchanged _ _, fun _ => ?_⟩
    apply Fallible.ensures_bind.mpr
    apply Fallible.ensures_atomic.mpr
    intro env
    apply Fallible.ensures_bind.mpr
    apply Fallible.ensures_atomic.mpr
    intro acquired
    cases hFailure : (acquired 0).failure with
    | some code =>
      simp only [HasSurroundings.surroundings, hFailure]
      exact refreshLeaves_unchanged _ _
    | none =>
      simp only [HasSurroundings.surroundings, hFailure]
      apply Fallible.ensures_atomic.mpr
      intro statements
      have hSettles : Settles (service.refreshIn (TokenService.hashToken service.sodium refreshToken)
          (env 0).systemClock) w.database w.database [] RefreshAborted
          (fun r db' events => RefreshOutcome w.database
            (TokenService.hashToken service.sodium refreshToken) (env 0).systemClock r db' events ∧
            service.Delivered r events) := settles_refreshIn_delivered
      have hEnd := execute_of_settles hSettles (fun _ => refreshAborted_of_isFault _ rfl) statements
      obtain ⟨hState, -, e, hError, -⟩ | ⟨hOutcome, hDelivered⟩ := hEnd
      · change service.RefreshLeaves refreshToken w.database (execute _ statements w.database).result
          (execute _ statements w.database).state
        rw [hState, hError]
        exact refreshLeaves_unchanged _ _
      · exact refreshLeaves_of_outcome hOutcome hDelivered
  exact Process.Ensures.run hEnsures inputs

end AuthService

end SecureCore
