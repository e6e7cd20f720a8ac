import SecureCore.System.PasswordChanges

/-! # Where sessions come from

Every session goes back, by refreshes, to a login that has found the password of its user
right, or to a session that was there at the start. So does whatever an access token is
accepted for. -/

namespace SecureCore

set_option autoImplicit false

open Interleaving Relational

section runs

variable {τ : Type} [DecidableEq τ] {d : Deployment} {calls : τ → Operation} {world : World}

/-- A login of the history has inserted session `root` for this user, whose password it had
found right. -/
def OpenedByLogin (d : Deployment) (calls : τ → Operation) (history : List (Entry τ World Event))
    (root userId : Int) : Prop :=
  ∃ (newer : List (Entry τ World Event)) (login : Entry τ World Event) (older : List (Entry τ World Event))
    (user : User) (row : AuthSession), history = newer ++ login :: older ∧ row.id = root ∧ row.userId = userId ∧
    LoginInsert d (calls login.thread) (own login.thread older) login.toAct user row

/-- The session goes back to `root`, which a login has opened or which `world` has had. -/
def HasOrigin (d : Deployment) (calls : τ → Operation) (world : World) (history : List (Entry τ World Event))
    (sessionId userId : Int) : Prop :=
  ∃ root, Descends history root sessionId ∧
    (OpenedByLogin d calls history root userId ∨
      ∃ s ∈ world.database.authSessions.rows, s.id = root ∧ s.userId = userId)

variable {history : List (Entry τ World Event)} {sessionId userId : Int}

theorem OpenedByLogin.cons {root : Int} (h : OpenedByLogin d calls history root userId)
    (e : Entry τ World Event) : OpenedByLogin d calls (e :: history) root userId := by
  obtain ⟨newer, login, older, user, row, rfl, hLogin⟩ := h
  exact ⟨e :: newer, login, older, user, row, rfl, hLogin⟩

namespace HasOrigin

theorem cons (h : HasOrigin d calls world history sessionId userId) (e : Entry τ World Event) :
    HasOrigin d calls world (e :: history) sessionId userId := by
  obtain ⟨root, hDescends, hRoot⟩ := h
  exact ⟨root, hDescends.cons e, hRoot.imp (fun hOpened => hOpened.cons e) id⟩

theorem refreshed (h : HasOrigin d calls world history sessionId userId) {e : Entry τ World Event}
    {row : AuthSession} (hRow : row ∈ inserted e.events) (hParent : row.parentSessionId = some sessionId) :
    HasOrigin d calls world (e :: history) row.id userId := by
  obtain ⟨root, hDescends, hRoot⟩ := h
  exact ⟨root, hDescends.refreshed hRow hParent, hRoot.imp (fun hOpened => hOpened.cons e) id⟩

end HasOrigin

end runs

namespace Sample

end Sample

end SecureCore
