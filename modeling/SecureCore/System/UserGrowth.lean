import SecureCore.Interleaving.Growth
import SecureCore.System.Accounts
import SecureCore.System.LegacyRoles

/-! # The users only become more

No operation deletes a user or changes an id: the ids in the table of users are only
added to, at the end. -/

namespace SecureCore

set_option autoImplicit false

open Interleaving Relational

def userIds (db : Database) : List Int := db.users.rows.map User.id

theorem mem_userIds {db : Database} {userId : Int} :
    userId ∈ userIds db ↔ db.userExists userId = true := by
  rw [Database.userExists, Database.findUserById, Table.first, List.find?_isSome, userIds, List.mem_map]
  simp only [beq_iff_eq]

/-- The users of `world` are the oldest of `world'`. -/
def KeepsUserIds (world world' : World) : Prop := userIds world.database <+: userIds world'.database

namespace KeepsUserIds

theorem refl (world : World) : KeepsUserIds world world := List.prefix_rfl

theorem trans (first second third : World) (h : KeepsUserIds first second)
    (h' : KeepsUserIds second third) : KeepsUserIds first third := List.IsPrefix.trans h h'

theorem userExists {world world' : World} (h : KeepsUserIds world world') {userId : Int}
    (hUser : world.database.userExists userId = true) : world'.database.userExists userId = true := by
  rw [← mem_userIds] at hUser ⊢
  exact h.subset hUser

end KeepsUserIds

section ids

variable {db db' : Database}

theorem KeepsAccounts.userIds (h : KeepsAccounts db db') : userIds db' = userIds db := by
  have hIds : User.id = Prod.fst ∘ User.account := rfl
  rw [SecureCore.userIds, SecureCore.userIds, hIds, ← List.map_map, ← List.map_map, h.accounts]

theorem userIds_insertUser (db : Database) (input : CreateUser) (now : String) :
    userIds (db.insertUser input now) = userIds db ++ [db.users.nextKey] := by
  simp [userIds, Database.insertUser, Table.insert, Keyed.withKey]

theorem userIds_setLegacyRole (db : Database) (userId : Int) (role now : String) :
    userIds (db.setLegacyRole userId role now) = userIds db :=
  Table.map_update db.users _ (fun _ => rfl)

theorem AdminChange.userIds {userId : Int} {action : AdminAction}
    (h : AdminChange db userId action db') : userIds db' = userIds db := by
  cases h with
  | enabled now => exact Table.map_update db.users _ (fun _ => rfl)
  | disabled now revokedAt hUser hGuard => exact Table.map_update db.users _ (fun _ => rfl)
  | alreadyEnabled | alreadyDisabled => rfl
  | granted now now' hUser hRole =>
    unfold Database.grantRole
    simp only
    split
    · rw [userIds_setLegacyRole, SecureCore.userIds, Database.insertUserRole_users]
      rfl
    · rw [SecureCore.userIds, Database.insertUserRole_users]
      rfl
  | removed now hUser hRole hGuard hBase =>
    unfold Database.removeRole
    simp only
    split
    · exact userIds_setLegacyRole _ _ _ _
    · rfl

end ids

theorem Obeys.keepsUserIds {d : Deployment} {op : Operation} {past : List (Act World Event)}
    {act : Act World Event} (h : Obeys d op past act) : KeepsUserIds act.before act.after := by
  unfold KeepsUserIds
  cases h.accountChange with
  | kept hKept =>
    exact ⟨[], by rw [List.append_nil, hKept.userIds]⟩
  | registered hAfter =>
    rw [hAfter, userIds_insertUser]
    exact List.prefix_append _ _
  | administered hChange =>
    exact ⟨[], by rw [List.append_nil, hChange.userIds]⟩

section runs

variable {τ : Type} [DecidableEq τ] {d : Deployment} {calls : τ → Operation} {start : World}

theorem keepsUserIds_forward :
    Execution.Forward (fun t => Obeys d (calls t)) start KeepsUserIds :=
  fun _ _ hEntry => hEntry.uncons.2.2.keepsUserIds

/-- A user that a call has read still exists. -/
theorem userExists_of_read {history : List (Entry τ World Event)}
    (h : Execution (fun t => Obeys d (calls t)) start history) {t : τ} {act : Act World Event}
    (hAct : act ∈ own t history) {user : User} (hRead : UserRead act user) :
    (stateAfter start history).database.userExists user.id = true := by
  have hKept := keepsUserIds_forward.own KeepsUserIds.refl KeepsUserIds.trans h hAct
  apply hKept.userExists
  rw [← mem_userIds]
  exact List.mem_map_of_mem hRead.stored

end runs

end SecureCore
