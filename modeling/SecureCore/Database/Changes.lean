import SecureCore.Database.Access

/-! # What a whole transaction changes

The statements of a transaction one after another, as functions of the database
in which it begins, and what it logs besides what it reads. -/

namespace SecureCore

set_option autoImplicit false

open Relational

namespace Event

/-- The events of a list that stand for a write or a COMMIT. -/
def writes (events : List Event) : List Event := events.filter (fun e => !e.isRead)

@[simp] theorem writes_nil : writes [] = [] := rfl

@[simp] theorem writes_append (a b : List Event) : writes (a ++ b) = writes a ++ writes b :=
  List.filter_append a b

@[simp] theorem writes_cons (e : Event) (events : List Event) :
    writes (e :: events) = if e.isRead then writes events else e :: writes events := by
  unfold writes
  rw [List.filter_cons]
  cases e.isRead <;> rfl

theorem mem_writes {e : Event} {events : List Event} :
    e ∈ writes events ↔ e ∈ events ∧ e.isRead = false := by
  simp [writes]

/-- What an observation of writes only sees of a list of events. -/
theorem filterMap_writes {β : Type} {f : Event → Option β} (hReads : ∀ e, e.isRead = true → f e = none)
    (events : List Event) : (writes events).filterMap f = events.filterMap f := by
  induction events with
  | nil => rfl
  | cons e events ih =>
    rw [writes_cons]
    split
    · rename_i hRead
      rw [ih, List.filterMap_cons_none (hReads e hRead)]
    · rw [List.filterMap_cons, List.filterMap_cons, ih]

end Event

namespace Database

def changePassword (db : Database) (userId sessionId : Int) (passwordHash now revokedAt : String) :
    Database :=
  (db.setPasswordHash userId passwordHash now).revokeSessions
    (fun s => s.userId == userId && s.id != sessionId) (fun _ => revokedAt)

def disableUser (db : Database) (userId : Int) (now revokedAt : String) : Database :=
  (db.setEnabled userId false now).revokeSessions (fun s => s.userId == userId) (fun _ => revokedAt)

/-- Revoke the presented session and insert its successor. -/
def rotateSession (db : Database) (session child : AuthSession) (revokedAt : String) : Database :=
  (db.revokeSessions (fun s => s.id == session.id) (fun _ => revokedAt)).insertSession child

def grantRole (db : Database) (row : UserRoleRow) (roleName now : String) : Database :=
  let granted := db.insertUserRole row
  if roleName = "super_admin" then granted.setLegacyRole row.userId "admin" now else granted

def removeRole (db : Database) (userId roleId : Int) (roleName now : String) : Database :=
  let removed := db.deleteUserRole userId roleId
  if roleName = "super_admin" ∧ removed.hasRole userId "super_admin" = false then
    removed.setLegacyRole userId "user" now
  else removed

/-- The condition under which no operation may disable this user or take
super_admin away. -/
def isLastSuperAdmin (db : Database) (user : User) : Bool :=
  user.enabled && db.hasRole user.id "super_admin" &&
    decide (db.countEnabledUsersWithRole "super_admin" ≤ 1)

variable {db : Database}

/-! ## Users -/

theorem setPasswordHash_of_missing {userId : Int} (hMissing : db.userExists userId = false)
    (passwordHash now : String) : db.setPasswordHash userId passwordHash now = db := by
  have hNone : db.users.first (fun u => u.id == userId) = none := by
    simpa [userExists, findUserById] using hMissing
  unfold setPasswordHash
  rw [Table.update_of_none (Table.first_eq_none.mp hNone)]

/-! ## Sessions -/

/-- What a revocation makes of one row. -/
def revokedRow (condition : AuthSession → Bool) (revokedAt : Option String → String)
    (s : AuthSession) : AuthSession :=
  if condition s && !s.revoked then { s with revoked := true, revokedAt := some (revokedAt s.revokedAt) }
  else s

section revokedRow

variable (condition : AuthSession → Bool) (revokedAt : Option String → String) (s : AuthSession)

@[simp] theorem revokedRow_id : (revokedRow condition revokedAt s).id = s.id := by
  unfold revokedRow
  split <;> rfl

@[simp] theorem revokedRow_userId : (revokedRow condition revokedAt s).userId = s.userId := by
  unfold revokedRow
  split <;> rfl

@[simp] theorem revokedRow_accessTokenHash :
    (revokedRow condition revokedAt s).accessTokenHash = s.accessTokenHash := by
  unfold revokedRow
  split <;> rfl

@[simp] theorem revokedRow_refreshTokenHash :
    (revokedRow condition revokedAt s).refreshTokenHash = s.refreshTokenHash := by
  unfold revokedRow
  split <;> rfl

@[simp] theorem revokedRow_tokenFamilyId :
    (revokedRow condition revokedAt s).tokenFamilyId = s.tokenFamilyId := by
  unfold revokedRow
  split <;> rfl

@[simp] theorem revokedRow_parentSessionId :
    (revokedRow condition revokedAt s).parentSessionId = s.parentSessionId := by
  unfold revokedRow
  split <;> rfl

@[simp] theorem revokedRow_revoked :
    (revokedRow condition revokedAt s).revoked = (s.revoked || condition s) := by
  unfold revokedRow
  cases hRevoked : s.revoked <;> cases hCondition : condition s <;> simp [hRevoked]

end revokedRow

@[simp] theorem mem_revokeSessions {condition : AuthSession → Bool}
    {revokedAt : Option String → String} {s : AuthSession} :
    s ∈ (db.revokeSessions condition revokedAt).authSessions.rows ↔
      ∃ s' ∈ db.authSessions.rows, revokedRow condition revokedAt s' = s := by
  have hRow : Table.updated (fun s => condition s && !s.revoked)
      (fun s : AuthSession => { s with revoked := true, revokedAt := some (revokedAt s.revokedAt) }) =
      revokedRow condition revokedAt := rfl
  rw [← hRow]
  exact Table.mem_update

@[simp] theorem revokeSessions_nextKey (condition : AuthSession → Bool)
    (revokedAt : Option String → String) :
    (db.revokeSessions condition revokedAt).authSessions.nextKey = db.authSessions.nextKey := rfl

@[simp] theorem revokeSessions_users (condition : AuthSession → Bool)
    (revokedAt : Option String → String) : (db.revokeSessions condition revokedAt).users = db.users := rfl

@[simp] theorem revokeSessions_userRoles (condition : AuthSession → Bool)
    (revokedAt : Option String → String) :
    (db.revokeSessions condition revokedAt).userRoles = db.userRoles := rfl

theorem mem_insertSession {row : AuthSession} (hId : row.id = db.authSessions.nextKey)
    {s : AuthSession} :
    s ∈ (db.insertSession row).authSessions.rows ↔ s ∈ db.authSessions.rows ∨ s = row := by
  have hRow : Keyed.withKey db.authSessions.nextKey row = row := by
    rw [← hId]
    rfl
  unfold insertSession
  rw [Table.mem_insert, hRow]

end Database

end SecureCore
