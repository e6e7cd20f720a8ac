import SecureCore.Relational.Constraints
import SecureCore.System.LoginNames
import SecureCore.System.RoleOrigins

/-! # The constraints of the schema in every reachable state

The statements check the constraints that their tables declare; that all of them
hold together after any run, foreign keys included, needs what the calls have read before. -/

namespace SecureCore

set_option autoImplicit false

open Interleaving Relational

/-! ## The constraints of the five migrations -/

structure UserConstraints (users : Table User) : Prop where
  username : users.Unique (fun u => nocaseKey u.username)
  email : users.Unique (fun u => nocaseKey u.email)
  role : ∀ u ∈ users.rows, u.role = "user" ∨ u.role = "admin"

structure SessionConstraints (authSessions : Table AuthSession) (users : Table User) : Prop where
  accessToken : authSessions.Unique AuthSession.accessTokenHash
  refreshToken : authSessions.Unique AuthSession.refreshTokenHash
  user : References authSessions.rows (fun s => some s.userId) users

/-- Nothing writes these tables after migration 5. -/
structure GrantConstraints (db : Database) : Prop where
  roleName : db.roles.Unique RoleRow.name
  permissionName : db.permissions.Unique Permission.name
  primaryKey : (db.rolePermissions.map (fun rp => (rp.roleId, rp.permissionId))).Nodup
  role : References db.rolePermissions (fun rp => some rp.roleId) db.roles
  permission : References db.rolePermissions (fun rp => some rp.permissionId) db.permissions

def UserRoleRow.primaryKey (ur : UserRoleRow) : Int × Int := (ur.userId, ur.roleId)

structure MemberConstraints (db : Database) : Prop where
  primaryKey : (db.userRoles.map UserRoleRow.primaryKey).Nodup
  user : References db.userRoles (fun ur => some ur.userId) db.users
  role : References db.userRoles (fun ur => some ur.roleId) db.roles
  assignedBy : References db.userRoles UserRoleRow.assignedByUserId db.users

structure MeetsConstraints (db : Database) : Prop where
  users : UserConstraints db.users
  authSessions : SessionConstraints db.authSessions db.users
  grants : GrantConstraints db
  userRoles : MemberConstraints db

/-! ## The tables one by one -/

theorem nodup_flatMap_pairs {α β κ : Type} {f : α → κ} {g : β → κ} {rows : List α} {pick : α → List β}
    (hRows : rows.Pairwise (fun a b => f a ≠ f b))
    (hPick : ∀ a, (pick a).Pairwise (fun b b' => g b ≠ g b')) :
    (rows.flatMap (fun a => (pick a).map (fun b => (f a, g b)))).Nodup := by
  induction hRows with
  | nil => exact List.nodup_nil
  | @cons a rows hFirst _ ih =>
    rw [List.flatMap_cons, List.nodup_append]
    refine ⟨?_, ih, ?_⟩
    · rw [List.nodup_iff_pairwise_ne, List.pairwise_map]
      exact (hPick a).imp (fun hNe hSame => hNe (congrArg Prod.snd hSame))
    · rintro pair hPair other hOther rfl
      obtain ⟨b, -, rfl⟩ := List.mem_map.mp hPair
      obtain ⟨a', ha', hOther⟩ := List.mem_flatMap.mp hOther
      obtain ⟨b', -, hSame⟩ := List.mem_map.mp hOther
      exact hFirst a' ha' (congrArg Prod.fst hSame).symm

theorem exists_of_userExists {db : Database} {userId : Int} (h : db.userExists userId = true) :
    ∃ u ∈ db.users.rows, u.id = userId :=
  List.mem_map.mp (mem_userIds.mpr h)

theorem keysWithin_of_prefix {world world' : World} (h : KeepsUserIds world world') :
    world.database.users.KeysWithin world'.database.users :=
  fun _ hu => List.mem_map.mp (h.subset (List.mem_map_of_mem hu))

namespace UserConstraints

variable {db db' : Database}

theorem insertUser (h : UserConstraints db.users) {input : CreateUser}
    (hUnused : db.duplicatesUser input = false) (hRole : input.role = "user") (now : String) :
    UserConstraints (db.insertUser input now).users := by
  have hFresh : ∀ u ∈ db.users.rows, nocaseKey u.username ≠ nocaseKey input.username ∧
      nocaseKey u.email ≠ nocaseKey input.email := by
    intro u hu
    rw [Database.duplicatesUser, List.any_eq_false] at hUnused
    have hNew := hUnused u hu
    rw [Bool.or_eq_true, nocaseEq_iff, nocaseEq_iff, not_or] at hNew
    exact hNew
  constructor
  · exact h.username.insert (fun u hu => (hFresh u hu).1)
  · exact h.email.insert (fun u hu => (hFresh u hu).2)
  · intro u hu
    rcases Table.mem_insert.mp hu with hu | rfl
    · exact h.role u hu
    · exact .inl hRole

/-- An UPDATE that assigns neither name and no other role than these two. -/
theorem update (h : UserConstraints db.users) {condition : User → Bool} {assign : User → User}
    (hUsername : ∀ u, (assign u).username = u.username) (hEmail : ∀ u, (assign u).email = u.email)
    (hRole : ∀ u, (assign u).role = u.role ∨ (assign u).role = "user" ∨ (assign u).role = "admin") :
    UserConstraints (db.users.update condition assign) := by
  constructor
  · exact h.username.update (fun u => congrArg nocaseKey (hUsername u))
  · exact h.email.update (fun u => congrArg nocaseKey (hEmail u))
  · intro u hu
    obtain ⟨old, hOld, rfl⟩ := Table.mem_update.mp hu
    have hOldRole := h.role old hOld
    unfold Table.updated
    split
    · change (assign old).role = "user" ∨ (assign old).role = "admin"
      rcases hRole old with hKept | hNew
      · rw [hKept]
        exact hOldRole
      · exact hNew
    · exact hOldRole

theorem setPasswordHash (h : UserConstraints db.users) (userId : Int) (passwordHash now : String) :
    UserConstraints (db.setPasswordHash userId passwordHash now).users :=
  h.update (fun _ => rfl) (fun _ => rfl) (fun _ => .inl rfl)

theorem setEnabled (h : UserConstraints db.users) (userId : Int) (enabled : Bool) (now : String) :
    UserConstraints (db.setEnabled userId enabled now).users :=
  h.update (fun _ => rfl) (fun _ => rfl) (fun _ => .inl rfl)

theorem setLegacyRole (h : UserConstraints db.users) {role : String} (hRole : role = "user" ∨ role = "admin")
    (userId : Int) (now : String) : UserConstraints (db.setLegacyRole userId role now).users :=
  h.update (fun _ => rfl) (fun _ => rfl) (fun _ => .inr hRole)

theorem adminChange (h : UserConstraints db.users) {userId : Int} {action : AdminAction}
    (hChange : AdminChange db userId action db') : UserConstraints db'.users := by
  cases hChange with
  | enabled now => exact h.setEnabled userId true now
  | disabled now revokedAt hUser hGuard => exact h.setEnabled userId false now
  | alreadyEnabled | alreadyDisabled => exact h
  | granted now now' hUser hRole =>
    have hInserted : ∀ row, UserConstraints (db.insertUserRole row).users := by
      intro row
      rw [Database.insertUserRole_users]
      exact h
    unfold Database.grantRole
    simp only
    split
    · exact (hInserted _).setLegacyRole (.inr rfl) _ _
    · exact hInserted _
  | removed now hUser hRole hGuard hBase =>
    unfold Database.removeRole
    simp only
    split
    · refine setLegacyRole ?_ (.inl rfl) _ _
      exact h
    · exact h

theorem access {past : List (Act World Event)} (h : UserConstraints db.users)
    (hWrite : TableWrite past db db') : UserConstraints db'.users := by
  cases hWrite with
  | sessions hAfter =>
    rw [hAfter]
    exact h
  | registered hUnused hRole hAfter =>
    rw [hAfter]
    exact h.insertUser hUnused hRole _
  | passwordHash hAfter =>
    rw [hAfter]
    exact h.setPasswordHash _ _ _
  | administered hAssigner hChange => exact h.adminChange hChange

end UserConstraints

namespace SessionConstraints

variable {authSessions : Table AuthSession} {users users' : Table User}

theorem within (h : SessionConstraints authSessions users) (hUsers : users.KeysWithin users') :
    SessionConstraints authSessions users' :=
  ⟨h.accessToken, h.refreshToken, h.user.within hUsers⟩

variable {db : Database}

theorem revokeSessions (h : SessionConstraints db.authSessions users) (condition : AuthSession → Bool)
    (revokedAt : Option String → String) :
    SessionConstraints (db.revokeSessions condition revokedAt).authSessions users := by
  refine ⟨h.accessToken.update (fun _ => rfl), h.refreshToken.update (fun _ => rfl), h.user.of_rows ?_⟩
  intro s hs
  obtain ⟨old, hOld, rfl⟩ := Database.mem_revokeSessions.mp hs
  exact ⟨old, hOld, by simp⟩

theorem insertSession (h : SessionConstraints db.authSessions users) {row : AuthSession}
    (hId : row.id = db.authSessions.nextKey)
    (hUnused : ∀ s ∈ db.authSessions.rows,
      s.accessTokenHash ≠ row.accessTokenHash ∧ s.refreshTokenHash ≠ row.refreshTokenHash)
    (hUser : ∃ u ∈ users.rows, u.id = row.userId) :
    SessionConstraints (db.insertSession row).authSessions users := by
  have hRow : Keyed.withKey db.authSessions.nextKey row = row := by
    rw [← hId]
    rfl
  refine ⟨h.accessToken.insert ?_, h.refreshToken.insert ?_, ?_⟩
  · intro s hs
    rw [hRow]
    exact (hUnused s hs).1
  · intro s hs
    rw [hRow]
    exact (hUnused s hs).2
  · intro s hs n hOwner
    rcases (Database.mem_insertSession hId).mp hs with hs | rfl
    · exact h.user s hs n hOwner
    · obtain rfl := Option.some.inj hOwner
      exact hUser

/-- The foreign key of a session that a login opens holds since the login has read the user. -/
theorem access (h : SessionConstraints db.authSessions db.users) {rows : List AuthSession}
    {t : Table AuthSession} (hChange : SessionChange db rows t)
    (hOwner : ∀ row ∈ rows, ∃ u ∈ db.users.rows, u.id = row.userId) : SessionConstraints t db.users := by
  cases hChange with
  | same => exact h
  | revoked condition revokedAt => exact h.revokeSessions condition revokedAt
  | expired currentTime =>
    exact ⟨h.accessToken.delete _, h.refreshToken.delete _, h.user.subset (List.filter_subset_self _)⟩
  | @opened userId row hNew =>
    exact h.insertSession hNew.id hNew.unused (hOwner row (List.mem_singleton_self row))
  | @rotated session child revokedAt hMem hUnrevoked hNew hFamily =>
    refine (h.revokeSessions _ _).insertSession hNew.id ?_ (hOwner child (List.mem_singleton_self child))
    intro s hs
    obtain ⟨old, hOld, rfl⟩ := Database.mem_revokeSessions.mp hs
    simpa using hNew.unused old hOld

end SessionConstraints

namespace GrantConstraints

variable {db db' : Database}

theorem kept (h : GrantConstraints db) (hKept : KeepsGrants db db') : GrantConstraints db' := by
  obtain ⟨⟨hRoles, hPermissions⟩, hGrants⟩ := hKept
  constructor
  · rw [hRoles]
    exact h.roleName
  · rw [hPermissions]
    exact h.permissionName
  · rw [hGrants]
    exact h.primaryKey
  · rw [hGrants, hRoles]
    exact h.role
  · rw [hGrants, hPermissions]
    exact h.permission

end GrantConstraints

namespace MemberConstraints

variable {db db' : Database}

theorem kept (h : MemberConstraints db) (hUserRoles : db'.userRoles = db.userRoles)
    (hRoles : db'.roles = db.roles) (hUsers : db.users.KeysWithin db'.users) : MemberConstraints db' := by
  constructor
  · rw [hUserRoles]
    exact h.primaryKey
  · rw [hUserRoles]
    exact h.user.within hUsers
  · rw [hUserRoles, hRoles]
    exact h.role
  · rw [hUserRoles]
    exact h.assignedBy.within hUsers

/-- The trigger adds rows of a user that no earlier row can have named. -/
theorem insertUser (h : MemberConstraints db) (input : CreateUser) (now : String) :
    MemberConstraints (db.insertUser input now) := by
  have hUsers : db.users.KeysWithin (db.insertUser input now).users := Table.KeysWithin.insert _ _
  have hNew : ∃ u ∈ (db.insertUser input now).users.rows, u.id = db.users.nextKey :=
    ⟨_, Table.mem_insert.mpr (.inr rfl), rfl⟩
  constructor
  · change ((db.userRoles ++ _).map UserRoleRow.primaryKey).Nodup
    rw [List.map_append, List.nodup_append]
    refine ⟨h.primaryKey, ?_, ?_⟩
    · rw [List.map_map]
      have hIds : ((db.roles.rows.filter (fun r => r.name == "user")).map RoleRow.id).Nodup := by
        rw [List.nodup_iff_pairwise_ne, List.pairwise_map]
        exact (db.roles.ordered.filter _).imp (fun hLess hEq => Int.ne_of_lt hLess hEq)
      have hPair : UserRoleRow.primaryKey ∘ (fun r : RoleRow => ⟨db.users.nextKey, r.id, none, now⟩) =
          Prod.mk db.users.nextKey ∘ RoleRow.id := rfl
      rw [hPair, ← List.map_map]
      exact hIds.map (Prod.mk_right_injective _)
    · intro old hOld added hAdded hSame
      obtain ⟨ur, hMem, rfl⟩ := List.mem_map.mp hOld
      obtain ⟨ur', hMem', rfl⟩ := List.mem_map.mp hAdded
      obtain ⟨r, -, rfl⟩ := List.mem_map.mp hMem'
      obtain ⟨u, hu, hId⟩ := h.user ur hMem ur.userId rfl
      have hOlder : u.id < db.users.nextKey := Table.lt_nextKey hu
      have hUser : ur.userId = db.users.nextKey := congrArg Prod.fst hSame
      have hKey : u.id = ur.userId := hId
      omega
  · refine (h.user.within hUsers).append ?_
    intro ur hMem n hColumn
    obtain ⟨r, -, rfl⟩ := List.mem_map.mp hMem
    obtain rfl := Option.some.inj hColumn
    exact hNew
  · refine h.role.append ?_
    intro ur hMem n hColumn
    obtain ⟨r, hr, rfl⟩ := List.mem_map.mp hMem
    obtain rfl := Option.some.inj hColumn
    exact ⟨r, (List.mem_filter.mp hr).1, rfl⟩
  · refine (h.assignedBy.within hUsers).append ?_
    intro ur hMem n hColumn
    obtain ⟨r, -, rfl⟩ := List.mem_map.mp hMem
    cases hColumn

theorem insertUserRole (h : MemberConstraints db) {row : UserRoleRow}
    (hReferences : References [row] (fun ur => some ur.userId) db.users ∧
      References [row] (fun ur => some ur.roleId) db.roles ∧
      References [row] UserRoleRow.assignedByUserId db.users) : MemberConstraints (db.insertUserRole row) := by
  obtain ⟨hUser, hRole, hAssignedBy⟩ := hReferences
  unfold Database.insertUserRole
  split
  · exact h
  · rename_i hFresh
    refine ⟨?_, h.user.append hUser, h.role.append hRole, h.assignedBy.append hAssignedBy⟩
    change ((db.userRoles ++ [row]).map UserRoleRow.primaryKey).Nodup
    rw [List.map_append, List.nodup_append]
    refine ⟨h.primaryKey, List.nodup_singleton _, ?_⟩
    rintro old hOld added hAdded rfl
    obtain ⟨ur, hMem, hSame⟩ := List.mem_map.mp hOld
    have hRow := List.mem_singleton.mp hAdded
    rw [hRow] at hSame
    apply hFresh
    refine List.any_eq_true.mpr ⟨ur, hMem, ?_⟩
    have hUserId : ur.userId = row.userId := congrArg Prod.fst hSame
    have hRoleId : ur.roleId = row.roleId := congrArg Prod.snd hSame
    simp [hUserId, hRoleId]

theorem deleteUserRole (h : MemberConstraints db) (userId roleId : Int) :
    MemberConstraints (db.deleteUserRole userId roleId) :=
  ⟨h.primaryKey.sublist (List.filter_sublist.map _), h.user.subset (List.filter_subset_self _),
    h.role.subset (List.filter_subset_self _), h.assignedBy.subset (List.filter_subset_self _)⟩

theorem adminChange (h : MemberConstraints db) {userId : Int} {action : AdminAction}
    (hChange : AdminChange db userId action db')
    (hAssigner : ∀ roleName assignedBy, action = .grant roleName (some assignedBy) →
      db.userExists assignedBy = true) : MemberConstraints db' := by
  cases hChange with
  | enabled now => exact h.kept rfl rfl (Table.KeysWithin.update _ _ _)
  | disabled now revokedAt hUser hGuard => exact h.kept rfl rfl (Table.KeysWithin.update _ _ _)
  | alreadyEnabled | alreadyDisabled => exact h
  | @granted roleName assignedBy roleId now now' hUser hRole =>
    have hInserted : MemberConstraints (db.insertUserRole ⟨userId, roleId, assignedBy, now⟩) := by
      refine h.insertUserRole ⟨?_, ?_, ?_⟩
      · exact references_singleton (fun n hn => by cases hn; exact exists_of_userExists hUser)
      · refine references_singleton (fun n hn => ?_)
        cases hn
        obtain ⟨r, hr, hId, -⟩ := Database.namesRole_of_roleId hRole
        exact ⟨r, hr, hId⟩
      · refine references_singleton (fun n hn => ?_)
        change assignedBy = some n at hn
        subst hn
        exact exists_of_userExists (hAssigner roleName n rfl)
    unfold Database.grantRole
    simp only
    split
    · exact hInserted.kept rfl rfl (Table.KeysWithin.update _ _ _)
    · exact hInserted
  | removed now hUser hRole hGuard hBase =>
    unfold Database.removeRole
    simp only
    split
    · exact (h.deleteUserRole _ _).kept rfl rfl (Table.KeysWithin.update _ _ _)
    · exact h.deleteUserRole _ _

theorem access {past : List (Act World Event)} (h : MemberConstraints db) (hWrite : TableWrite past db db')
    (hRead : ∀ act ∈ past, ∀ u, UserRead act u → db.userExists u.id = true) : MemberConstraints db' := by
  cases hWrite with
  | sessions hAfter =>
    rw [hAfter]
    exact h.kept rfl rfl (Table.KeysWithin.refl _)
  | registered hUnused hRole hAfter =>
    rw [hAfter]
    exact h.insertUser _ _
  | passwordHash hAfter =>
    rw [hAfter]
    exact h.kept rfl rfl (Table.KeysWithin.update _ _ _)
  | administered hAssigner hChange =>
    refine h.adminChange hChange (fun roleName assignedBy hGrant => ?_)
    obtain ⟨administrator, rfl, act, hAct, hUser⟩ := hAssigner.read roleName assignedBy hGrant
    exact hRead act hAct administrator hUser

end MemberConstraints

/-! ## Migration 5 establishes them -/

namespace Migration

variable (users : Table User) (authSessions : Table AuthSession)

theorem grantConstraints_rbacTables : GrantConstraints (rbacTables users authSessions) := by
  have hRoleNames : ∀ a ∈ (builtInRoles.foldl insertRole Table.empty).rows,
      ∀ b ∈ (builtInRoles.foldl insertRole Table.empty).rows, a.name = b.name → a = b := by decide
  have hPermissionNames : ∀ a ∈ (builtInPermissions.foldl insertPermission Table.empty).rows,
      ∀ b ∈ (builtInPermissions.foldl insertPermission Table.empty).rows, a.name = b.name → a = b := by decide
  refine ⟨hRoleNames, hPermissionNames, ?_, ?_, ?_⟩
  · simp only [rbacTables, List.map_flatMap, List.map_map]
    refine nodup_flatMap_pairs (f := RoleRow.id) (g := Permission.id) ?_ (fun r => ?_)
    · exact (builtInRoles.foldl insertRole Table.empty).ordered.imp (fun hLess => Int.ne_of_lt hLess)
    · exact ((builtInPermissions.foldl insertPermission Table.empty).ordered.filter _).imp
        (fun hLess => Int.ne_of_lt hLess)
  · intro rp hMem n hColumn
    obtain ⟨r, hr, hMem⟩ := List.mem_flatMap.mp hMem
    obtain ⟨p, hp, rfl⟩ := List.mem_map.mp hMem
    obtain rfl := Option.some.inj hColumn
    exact ⟨r, hr, rfl⟩
  · intro rp hMem n hColumn
    obtain ⟨r, hr, hMem⟩ := List.mem_flatMap.mp hMem
    obtain ⟨p, hp, rfl⟩ := List.mem_map.mp hMem
    obtain rfl := Option.some.inj hColumn
    exact ⟨p, (List.mem_filter.mp hp).1, rfl⟩

/-- The rows that a SELECT of the migration inserts reference existing rows. -/
theorem memberConstraints_selectMembers {db base : Database} {condition : User → Bool} {roleName now : String}
    (h : MemberConstraints base) (hUsers : base.users = db.users) (hRoles : base.roles = db.roles) :
    MemberConstraints ((selectMembers db condition roleName now).foldl Database.insertUserRole base) := by
  have hRows : ∀ row ∈ selectMembers db condition roleName now,
      References [row] (fun ur => some ur.userId) db.users ∧
        References [row] (fun ur => some ur.roleId) db.roles ∧
        References [row] UserRoleRow.assignedByUserId db.users := by
    intro row hRow
    obtain ⟨u, hu, -, r, hr, -, rfl⟩ := mem_selectMembers.mp hRow
    exact ⟨references_singleton (fun n hn => ⟨u, hu, Option.some.inj hn⟩),
      references_singleton (fun n hn => ⟨r, hr, Option.some.inj hn⟩),
      references_singleton (fun n hn => by cases hn)⟩
  generalize selectMembers db condition roleName now = rows at hRows
  induction rows generalizing base with
  | nil => exact h
  | cons row rows ih =>
    have hRow := hRows row List.mem_cons_self
    rw [← hUsers, ← hRoles] at hRow
    refine ih (h.insertUserRole hRow) ?_ ?_ (fun row' hRow' => hRows row' (List.mem_cons_of_mem row hRow'))
    · rw [Database.insertUserRole_users, hUsers]
    · rw [Database.insertUserRole_roles, hRoles]

theorem rolePermissions_insertUserRoles (rows : List UserRoleRow) (db : Database) :
    (rows.foldl Database.insertUserRole db).rolePermissions = db.rolePermissions := by
  induction rows generalizing db with
  | nil => rfl
  | cons row rows ih => rw [List.foldl_cons, ih, rolePermissions_insertUserRole]

theorem insertUserRoles_authSessions (rows : List UserRoleRow) (db : Database) :
    (rows.foldl Database.insertUserRole db).authSessions = db.authSessions := by
  induction rows generalizing db with
  | nil => rfl
  | cons row rows ih =>
    rw [List.foldl_cons, ih]
    unfold Database.insertUserRole
    split <;> rfl

theorem keepsGrants_createRbac (now now' : String) :
    KeepsGrants (rbacTables users authSessions) (createRbac users authSessions now now') := by
  refine ⟨(KeepsTables.insertUserRoles _ _).trans (KeepsTables.insertUserRoles _ _), ?_⟩
  unfold createRbac
  rw [rolePermissions_insertUserRoles, rolePermissions_insertUserRoles]

theorem meetsConstraints_createRbac {users : Table User} {authSessions : Table AuthSession}
    (hUsers : UserConstraints users) (hSessions : SessionConstraints authSessions users)
    (now now' : String) : MeetsConstraints (createRbac users authSessions now now') := by
  have hSameUsers : (createRbac users authSessions now now').users = users := by
    unfold createRbac
    rw [insertUserRoles_users, insertUserRoles_users]
    rfl
  have hSameSessions : (createRbac users authSessions now now').authSessions = authSessions := by
    unfold createRbac
    rw [insertUserRoles_authSessions, insertUserRoles_authSessions]
    rfl
  constructor
  · rw [hSameUsers]
    exact hUsers
  · rw [hSameUsers, hSameSessions]
    exact hSessions
  · exact (grantConstraints_rbacTables users authSessions).kept (keepsGrants_createRbac users authSessions now now')
  · have hNobody : MemberConstraints (rbacTables users authSessions) :=
      ⟨List.nodup_nil, References.nil _ _, References.nil _ _, References.nil _ _⟩
    exact memberConstraints_selectMembers (memberConstraints_selectMembers hNobody rfl rfl) rfl rfl

end Migration

/-! ## Every access keeps them -/

section runs

variable {τ : Type} [DecidableEq τ] {d : Deployment} {calls : τ → Operation} {start : World}

theorem MeetsConstraints.access {e : Entry τ World Event} {older : List (Entry τ World Event)}
    (hEntry : Execution (fun t => Obeys d (calls t)) start (e :: older))
    (h : MeetsConstraints e.before.database) : MeetsConstraints e.after.database := by
  obtain ⟨hOlder, hBefore, hObeys⟩ := hEntry.uncons
  have hUsers := keysWithin_of_prefix hObeys.keepsUserIds
  have hRead : ∀ act ∈ own e.thread older, ∀ u, UserRead act u → e.before.database.userExists u.id = true := by
    intro act hAct u hUser
    rw [hBefore]
    exact userExists_of_read hOlder hAct hUser
  refine ⟨h.users.access hObeys.tableWrite, ?_, h.grants.kept hObeys.keepsGrants,
    h.userRoles.access hObeys.tableWrite hRead⟩
  refine (h.authSessions.access hObeys.sessionChange ?_).within hUsers
  intro row hRow
  rcases hObeys.inserted hRow with ⟨user, hLogin⟩ | ⟨session, hRefresh⟩
  · obtain ⟨_, _, _, _, -, hReady⟩ := hLogin.login
    obtain ⟨act, hAct, hUser⟩ := hReady.read
    rw [hLogin.new.userId]
    exact exists_of_userExists (hRead act hAct user hUser)
  · rw [hRefresh.new.userId]
    exact h.authSessions.user session hRefresh.mem session.userId rfl

/-- Whatever the calls do after migration 5, every UNIQUE and PRIMARY KEY, every foreign key and
every CHECK of the tables holds if it held of the users and sessions that the migration found. -/
theorem schema_constraints_hold (d : Deployment) (calls : τ → Operation) (users : Table User)
    (authSessions : Table AuthSession) (hUsers : UserConstraints users)
    (hSessions : SessionConstraints authSessions users) (now now' : String)
    (protectors : Nat → AuthAbuseProtector) (schedule : List (τ × (Nat → Surroundings))) :
    MeetsConstraints ((d.pool calls ⟨Migration.createRbac users authSessions now now', protectors⟩).run
      schedule).state.database := by
  have hRun := running_pool d calls
    ⟨Migration.createRbac users authSessions now now', protectors⟩ schedule
  rw [hRun.state]
  apply Execution.invariant (I := fun w _ => MeetsConstraints w.database) _ _ hRun.execution
  · exact Migration.meetsConstraints_createRbac hUsers hSessions now now'
  · intro e older hEntry hBefore
    exact hBefore.access hEntry

end runs

namespace Sample

theorem userConstraints : UserConstraints database.users :=
  ⟨by unfold Table.Unique; decide, by unfold Table.Unique; decide, by decide⟩

theorem sessionConstraints : SessionConstraints database.authSessions database.users := by
  refine ⟨by unfold Table.Unique; decide, by unfold Table.Unique; decide, ?_⟩
  have hOwners : ∀ s ∈ database.authSessions.rows, ∃ u ∈ database.users.rows, u.id = s.userId := by decide
  intro s hs n hOwner
  obtain rfl := Option.some.inj hOwner
  exact hOwners s hs

/-- Alice logs in while Root makes her a super administrator. -/
def promotedLogin : Bool → Operation
  | true => .assignRole 0 "sc_at_root" 1 "super_admin"
  | false => .login 0 "alice" "old-password" ""

end Sample

theorem schema_constraints_hold_sample :
    MeetsConstraints ((Sample.deployment.pool Sample.promotedLogin ⟨Migration.createRbac Sample.database.users
      Sample.database.authSessions "" "", Sample.world.protectors⟩).run
        (Sample.turns true 12 "a" ++ Sample.turns false 12 "b")).state.database :=
  schema_constraints_hold Sample.deployment Sample.promotedLogin Sample.database.users
    Sample.database.authSessions Sample.userConstraints Sample.sessionConstraints "" ""
    Sample.world.protectors (Sample.turns true 12 "a" ++ Sample.turns false 12 "b")

end SecureCore
