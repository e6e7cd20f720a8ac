import SecureCore.System.Obedience
import SecureCore.System.Sample

/-! # Stored password hashes

Two operations write users.password_hash: a login whose hash needs a rehash and a
change of password. Both read the user's row, verify a password and write later,
without looking at the row again. -/

namespace SecureCore

set_option autoImplicit false

open Interleaving Relational

namespace Database

def storedHash (db : Database) (userId : Int) : Option String :=
  (db.findUserById userId).map User.passwordHash

variable {db : Database} {userId : Int}

theorem storedHash_of_mem {user : User} (h : user ∈ db.users.rows) :
    db.storedHash user.id = some user.passwordHash := by
  unfold storedHash
  rw [findUserById_of_mem h]
  rfl

theorem storedHash_eq_of_users {db' : Database} (h : db'.users = db.users) :
    db'.storedHash userId = db.storedHash userId := by
  unfold storedHash findUserById
  rw [h]

theorem storedHash_setPasswordHash (target : Int) (passwordHash now : String) :
    (db.setPasswordHash target passwordHash now).storedHash userId =
      (db.storedHash userId).map (fun old => if userId = target then passwordHash else old) := by
  have hFind : (db.setPasswordHash target passwordHash now).findUserById userId =
      (db.findUserById userId).map (Table.updated (fun u => u.id == target)
        (fun u => { u with passwordHash := passwordHash, updatedAt := now })) :=
    Table.first_key_update db.users _ _ userId
  unfold storedHash
  rw [hFind]
  cases hUser : db.findUserById userId with
  | none => rfl
  | some user =>
    have hId := (findUserById_eq_some hUser).2
    subst hId
    by_cases hTarget : user.id = target
    · simp [Table.updated, hTarget, Keyed.withKey]
    · simp [Table.updated, hTarget]

theorem storedHash_setEnabled (target : Int) (enabled : Bool) (now : String) :
    (db.setEnabled target enabled now).storedHash userId = db.storedHash userId := by
  have hFind : (db.setEnabled target enabled now).findUserById userId =
      (db.findUserById userId).map (Table.updated (fun u => u.id == target)
        (fun u => { u with enabled := enabled, updatedAt := now })) :=
    Table.first_key_update db.users _ _ userId
  unfold storedHash
  rw [hFind, Option.map_map]
  congr 1
  funext user
  simp only [Function.comp_apply, Table.updated]
  split <;> rfl

theorem storedHash_setLegacyRole (target : Int) (role now : String) :
    (db.setLegacyRole target role now).storedHash userId = db.storedHash userId := by
  have hFind : (db.setLegacyRole target role now).findUserById userId =
      (db.findUserById userId).map (Table.updated (fun u => u.id == target && u.role != role)
        (fun u => { u with role := role, updatedAt := now })) :=
    Table.first_key_update db.users _ _ userId
  unfold storedHash
  rw [hFind, Option.map_map]
  congr 1
  funext user
  simp only [Function.comp_apply, Table.updated]
  split <;> rfl

theorem storedHash_insertUser {old : String} (h : db.storedHash userId = some old) (input : CreateUser)
    (now : String) : (db.insertUser input now).storedHash userId = some old := by
  unfold storedHash at h ⊢
  rw [Option.map_eq_some_iff] at h ⊢
  obtain ⟨user, hUser, hHash⟩ := h
  exact ⟨user, Table.first_key_insert hUser _, hHash⟩

theorem storedHash_grantRole (row : UserRoleRow) (roleName now : String) :
    (db.grantRole row roleName now).storedHash userId = db.storedHash userId := by
  have hInsert : (db.insertUserRole row).storedHash userId = db.storedHash userId := by
    apply storedHash_eq_of_users
    unfold insertUserRole
    split <;> rfl
  unfold grantRole
  split
  · rw [storedHash_setLegacyRole, hInsert]
  · exact hInsert

theorem storedHash_removeRole (target roleId : Int) (roleName now : String) :
    (db.removeRole target roleId roleName now).storedHash userId = db.storedHash userId := by
  have hRemove : (db.deleteUserRole target roleId).storedHash userId = db.storedHash userId := rfl
  simp only [removeRole]
  split
  · rw [storedHash_setLegacyRole, hRemove]
  · exact hRemove

end Database

/-- No change of an administrator touches a password hash. -/
theorem AdminChange.storedHash {db db' : Database} {target : Int} {action : AdminAction}
    (h : AdminChange db target action db') (userId : Int) :
    db'.storedHash userId = db.storedHash userId := by
  cases h with
  | enabled now => exact Database.storedHash_setEnabled _ _ _
  | disabled now revokedAt _ _ => exact Database.storedHash_setEnabled target false now
  | alreadyEnabled => rfl
  | alreadyDisabled => rfl
  | granted => exact Database.storedHash_grantRole _ _ _
  | removed => exact Database.storedHash_removeRole _ _ _ _

theorem AuthService.RefreshOutcome.users {db db' : Database} {tokenHash : String} {now : Int}
    {r : Except Exception LoginResult} {events : List Event}
    (h : RefreshOutcome db tokenHash now r db' events) : db'.users = db.users := by
  cases h with
  | reusedUser => split <;> rfl
  | _ => rfl

/-! ## One access -/

def Event.updatedHash : Event → Option (Int × String)
  | .passwordHashUpdated userId passwordHash => some (userId, passwordHash)
  | _ => none

/-- The password hashes that an access writes, with their users. -/
def updatedHashes (events : List Event) : List (Int × String) := events.filterMap Event.updatedHash

def updatedUsers (events : List Event) : List Int := (updatedHashes events).map Prod.fst

theorem updatedHashes_writes (events : List Event) :
    updatedHashes (Event.writes events) = updatedHashes events := by
  apply Event.filterMap_writes
  intro e hRead
  cases e <;> first | rfl | cases hRead

theorem updatedUsers_eq_of_hashes {events : List Event} {hashes : List (Int × String)}
    (h : updatedHashes events = hashes) : updatedUsers events = hashes.map Prod.fst := by
  rw [updatedUsers, h]

theorem AuthService.RefreshOutcome.updatedHashes {db db' : Database} {tokenHash : String} {now : Int}
    {r : Except Exception LoginResult} {events : List Event}
    (h : RefreshOutcome db tokenHash now r db' events) : updatedHashes events = [] := by
  cases h <;> rfl

/-- The password that an operation verifies and the one that it stores. -/
def Operation.passwords : Operation → Option (String × String)
  | .login _ _ password _ => some (password, password)
  | .changePassword _ _ currentPassword newPassword => some (currentPassword, newPassword)
  | _ => none

/-- What a call knows that writes the hash of this user. -/
structure HashWrite (d : Deployment) (op : Operation) (past : List (Act World Event)) (user : User)
    (verified stored : String) : Prop where
  passwords : op.passwords = some (verified, stored)
  read : ∃ act ∈ past, UserRead act user
  selected : selectedUsers past = [user]
  hashes : verifiedHashes past = [user.passwordHash]
  right : PasswordHasher.matchesHash d.sodium verified user.passwordHash = true
  nonempty : stored.isEmpty = false

theorem matchesHash_nonempty {sodium : Sodium} {password encodedHash : String}
    (h : PasswordHasher.matchesHash sodium password encodedHash = true) : password.isEmpty = false := by
  unfold PasswordHasher.matchesHash at h
  rw [Bool.and_eq_true, Bool.and_eq_true] at h
  simpa using h.1.1

theorem validNewPassword_nonempty {password : String}
    (h : AccountSecurityService.validNewPassword password = true) : password.isEmpty = false := by
  cases hEmpty : password.isEmpty with
  | false => rfl
  | true =>
    rw [String.isEmpty_iff.mp hEmpty] at h
    cases h

/-- An access leaves every stored hash alone, or it writes that of one user. -/
theorem Obeys.hashWrite {d : Deployment} {op : Operation} {past : List (Act World Event)}
    {act : Act World Event} (h : Obeys d op past act) :
    (updatedHashes act.events = [] ∧ ∀ userId old, act.before.database.storedHash userId = some old →
      act.after.database.storedHash userId = some old) ∨
    ∃ user verified stored salt, HashWrite d op past user verified stored ∧
      updatedHashes act.events = [(user.id, d.sodium.pwhashStr salt stored)] ∧ ∀ userId,
        act.after.database.storedHash userId =
        (act.before.database.storedHash userId).map
          (fun old => if userId = user.id then d.sodium.pwhashStr salt stored else old) := by
  rw [← updatedHashes_writes]
  cases h with
  | reads hSame hEvents =>
    refine Or.inl ⟨by rw [hEvents]; rfl, fun userId old hOld => ?_⟩
    rw [hSame, hOld]
  | register now hUnused hAfter hEvents =>
    refine Or.inl ⟨by rw [hEvents]; rfl, fun userId old hOld => ?_⟩
    rw [hAfter]
    exact Database.storedHash_insertUser hOld _ _
  | upgradeHash salt now hReady hAfter hEvents =>
    refine Or.inr ⟨_, _, _, salt, ⟨rfl, hReady.read, hReady.selected, hReady.verified, hReady.right,
      matchesHash_nonempty hReady.right⟩, by rw [hEvents]; rfl, fun userId => ?_⟩
    rw [hAfter, Database.storedHash_setPasswordHash]
  | changePassword salt now revokedAt hReady hAfter hEvents =>
    refine Or.inr ⟨_, _, _, salt, ⟨rfl, hReady.readUser, hReady.selected, hReady.verified,
      hReady.right, validNewPassword_nonempty hReady.valid⟩, by rw [hEvents]; rfl, fun userId => ?_⟩
    rw [hAfter]
    exact Database.storedHash_setPasswordHash _ _ now
  | openSession hReady hFamily hNew hAfter hEvents =>
    refine Or.inl ⟨by rw [hEvents]; rfl, fun userId old hOld => ?_⟩
    rw [hAfter]
    exact hOld
  | refresh hOutcome =>
    refine Or.inl ⟨hOutcome.updatedHashes, fun userId old hOld => ?_⟩
    rw [Database.storedHash_eq_of_users hOutcome.users, hOld]
  | logout revokedAt _ _ hAfter hEvents | logoutAll revokedAt _ _ hAfter hEvents
  | revokeSession revokedAt _ _ hAfter hEvents | expire hAfter hEvents =>
    refine Or.inl ⟨by rw [hEvents]; rfl, fun userId old hOld => ?_⟩
    rw [hAfter]
    exact hOld
  | administer hRequest hAuthorised hChange hEvents | secureAdmin hAction hChange hEvents =>
    refine Or.inl ⟨by rw [hEvents]; rfl, fun userId old hOld => ?_⟩
    rw [hChange.storedHash, hOld]

/-! ## Runs -/

section runs

variable {τ : Type} [DecidableEq τ] {d : Deployment} {calls : τ → Operation} {world : World}

/-- Since the latest read of this user's row by this thread, no step has written the
user's password hash. -/
def untouchedSinceRead (t : τ) (userId : Int) : List (Entry τ World Event) → Bool
  | [] => true
  | e :: older =>
    if e.thread = t ∧ userId ∈ (e.events.filterMap Event.selectedUser).map User.id then true
    else !(updatedUsers e.events).contains userId && untouchedSinceRead t userId older

/-- No call writes a password hash that another step has written since the call read
the row. -/
def Undisturbed (history : List (Entry τ World Event)) : Prop :=
  Always (fun e older => ∀ userId ∈ updatedUsers e.events,
    untouchedSinceRead e.thread userId older = true) history

instance (history : List (Entry τ World Event)) : Decidable (Undisturbed history) :=
  inferInstanceAs (Decidable (Always _ history))

/-- Every write of a password hash replaces exactly the hash for which the same call
found its password right. -/
def ReplacesVerifiedHash (history : List (Entry τ World Event)) : Prop :=
  Always (fun e older => ∀ userId ∈ updatedUsers e.events,
    (e.before.database.storedHash userId).map (fun stored => [stored]) =
      some (verifiedHashes (own e.thread older))) history

instance (history : List (Entry τ World Event)) : Decidable (ReplacesVerifiedHash history) :=
  inferInstanceAs (Decidable (Always _ history))

/-- After a change of password has committed, and until the next one of that user
does, the stored hash is right for the new password and for no other. -/
def StoresLastChange (d : Deployment) (calls : τ → Operation) (world : World)
    (history : List (Entry τ World Event)) : Prop :=
  ∀ newer e older process accessToken currentPassword newPassword userId,
    history = newer ++ e :: older →
    calls e.thread = .changePassword process accessToken currentPassword newPassword →
    userId ∈ updatedUsers e.events →
    (∀ e' ∈ newer, userId ∈ updatedUsers e'.events →
      ∀ process' accessToken' currentPassword' newPassword',
        calls e'.thread ≠ .changePassword process' accessToken' currentPassword' newPassword') →
    ∃ stored, (stateAfter world history).database.storedHash userId = some stored ∧
      ∀ password, PasswordHasher.matchesHash d.sodium password stored = true ↔ password = newPassword

/-- Verification accepts the hashed password and no other. -/
def PasswordsDiscriminated (sodium : Sodium) : Prop :=
  ∀ salt password hashed, hashed.isEmpty = false →
    (PasswordHasher.matchesHash sodium password (sodium.pwhashStr salt hashed) = true ↔
      password = hashed)

theorem selectedUsers_cons (act : Act World Event) (past : List (Act World Event)) :
    selectedUsers (act :: past) = act.events.filterMap Event.selectedUser ++ selectedUsers past := by
  unfold selectedUsers
  rw [observed_cons, List.filterMap_append]

theorem selectedUsers_append (newer older : List (Act World Event)) :
    selectedUsers (newer ++ older) = selectedUsers newer ++ selectedUsers older := by
  unfold selectedUsers observed
  rw [List.flatMap_append, List.filterMap_append]

theorem mem_selectedUsers {act : Act World Event} {past : List (Act World Event)} {user : User}
    (hMem : act ∈ past) (hRead : UserRead act user) : user ∈ selectedUsers past := by
  refine List.mem_filterMap.mpr ⟨.userSelected (some user), ?_, rfl⟩
  exact List.mem_flatMap.mpr ⟨act, hMem, by simp [hRead.events]⟩

theorem eq_singleton_of_append {α : Type} {first second : List α} {a : α}
    (h : first ++ second = [a]) (hMem : a ∈ second) : first = [] ∧ second = [a] := by
  cases first with
  | nil => exact ⟨rfl, h⟩
  | cons b first =>
    have hLength := congrArg List.length h
    have hPositive := List.length_pos_of_mem hMem
    simp only [List.cons_append, List.length_cons, List.length_append, List.length_nil] at hLength
    omega

theorem storedHash_since_read {history : List (Entry τ World Event)}
    (h : Histories d calls world history) {t : τ} {user : User} {act : Act World Event}
    (hMem : act ∈ own t history) (hRead : UserRead act user)
    (hSelected : selectedUsers (own t history) = [user])
    (hUntouched : untouchedSinceRead t user.id history = true) :
    (stateAfter world history).database.storedHash user.id = some user.passwordHash := by
  induction h with
  | nil => cases hMem
  | @cons e older hOlder hBefore hDiscipline ih =>
    rw [stateAfter_cons]
    have hStep : user.id ∉ updatedUsers e.events →
        e.before.database.storedHash user.id = some user.passwordHash →
        e.after.database.storedHash user.id = some user.passwordHash := by
      intro hNot hStored
      rcases hDiscipline.hashWrite with ⟨-, hKeeps⟩ | ⟨writer, _, _, _, -, hWrites, hAfter⟩
      · exact hKeeps _ _ hStored
      · have hOther : user.id ≠ writer.id := by
          intro hEq
          apply hNot
          rw [updatedUsers_eq_of_hashes hWrites, hEq]
          exact List.mem_singleton_self _
        rw [hAfter, hStored, Option.map_some, if_neg hOther]
    have hOlderRead : act ∈ own t older → ¬ (e.thread = t ∧
        user.id ∈ (e.events.filterMap Event.selectedUser).map User.id) → selectedUsers (own t older) = [user] →
        e.after.database.storedHash user.id = some user.passwordHash := by
      intro hMem hNotRead hSelected
      unfold untouchedSinceRead at hUntouched
      rw [if_neg hNotRead, Bool.and_eq_true] at hUntouched
      apply hStep
      · simpa using hUntouched.1
      · rw [hBefore]
        exact ih hMem hSelected hUntouched.2
    by_cases hThread : e.thread = t
    · subst hThread
      rw [own_cons_self] at hMem hSelected
      rcases List.mem_cons.mp hMem with rfl | hMem
      · apply hStep
        · rw [hRead.events]
          exact List.not_mem_nil
        · exact Database.storedHash_of_mem hRead.stored
      · rw [selectedUsers_cons] at hSelected
        have hOlder : user ∈ selectedUsers (own e.thread older) := mem_selectedUsers hMem hRead
        obtain ⟨hNone, hRest⟩ := eq_singleton_of_append hSelected hOlder
        refine hOlderRead hMem (fun hRead => ?_) hRest
        rw [hNone] at hRead
        exact List.not_mem_nil hRead.2
    · rw [own_cons_of_ne hThread] at hMem hSelected
      exact hOlderRead hMem (fun h => hThread h.1) hSelected

theorem replacesVerifiedHash_of_undisturbed {history : List (Entry τ World Event)}
    (h : Histories d calls world history) (hUndisturbed : Undisturbed history) :
    ReplacesVerifiedHash history := by
  induction h with
  | nil => trivial
  | @cons e older hOlder hBefore hDiscipline ih =>
    obtain ⟨hEntry, hRest⟩ := hUndisturbed
    refine ⟨?_, ih hRest⟩
    intro userId hWrites
    rcases hDiscipline.hashWrite with ⟨hNone, -⟩ | ⟨user, _, _, _, hWrite, hUser, -⟩
    · rw [updatedUsers_eq_of_hashes hNone] at hWrites
      cases hWrites
    · have hId : userId = user.id := by
        rw [updatedUsers_eq_of_hashes hUser] at hWrites
        exact List.mem_singleton.mp hWrites
      subst hId
      obtain ⟨act, hMem, hRead⟩ := hWrite.read
      have hStored := storedHash_since_read hOlder hMem hRead hWrite.selected (hEntry _ hWrites)
      rw [hBefore, hStored, hWrite.hashes]
      rfl

/-- What one more access makes of a hash that is right for one password only. -/
theorem storesPassword_step {e : Entry τ World Event} {older : List (Entry τ World Event)}
    (hPasswords : PasswordsDiscriminated d.sodium)
    (hDiscipline : Obeys d (calls e.thread) (own e.thread older) e.toAct)
    {userId : Int} {newPassword stored : String}
    (hReplaces : userId ∈ updatedUsers e.events →
      (e.before.database.storedHash userId).map (fun stored => [stored]) =
        some (verifiedHashes (own e.thread older)))
    (hLogin : userId ∈ updatedUsers e.events → ∀ process' accessToken' currentPassword' newPassword',
      calls e.thread ≠ .changePassword process' accessToken' currentPassword' newPassword')
    (hStored : e.before.database.storedHash userId = some stored)
    (hRight : ∀ password, PasswordHasher.matchesHash d.sodium password stored = true ↔
      password = newPassword) :
    ∃ stored, e.after.database.storedHash userId = some stored ∧
      ∀ password, PasswordHasher.matchesHash d.sodium password stored = true ↔
        password = newPassword := by
  rcases hDiscipline.hashWrite with ⟨-, hKeeps⟩ | ⟨user, verified, written, salt, hWrite, hUser, hAfter⟩
  · exact ⟨stored, hKeeps _ _ hStored, hRight⟩
  · by_cases hId : userId = user.id
    · subst hId
      have hWrites : user.id ∈ updatedUsers e.events := by
        rw [updatedUsers_eq_of_hashes hUser]
        exact List.mem_singleton_self _
      have hVerified := hReplaces hWrites
      rw [hStored, hWrite.hashes, Option.map_some, Option.some_inj, List.cons.injEq] at hVerified
      have hSame : verified = newPassword := by
        apply (hRight verified).mp
        rw [hVerified.1]
        exact hWrite.right
      have hWritten : written = verified := by
        have hPasswordsOf := hWrite.passwords
        unfold Operation.passwords at hPasswordsOf
        split at hPasswordsOf
        · simp only [Option.some.injEq, Prod.mk.injEq] at hPasswordsOf
          rw [← hPasswordsOf.1, ← hPasswordsOf.2]
        · rename_i hCall
          exact absurd hCall (hLogin hWrites _ _ _ _)
        · cases hPasswordsOf
      refine ⟨d.sodium.pwhashStr salt written, ?_, fun password => ?_⟩
      · rw [hAfter, hStored, Option.map_some, if_pos rfl]
      · rw [hPasswords salt password written hWrite.nonempty, hWritten, hSame]
    · refine ⟨stored, ?_, hRight⟩
      rw [hAfter, hStored, Option.map_some, if_neg hId]

theorem storesLastChange_of_undisturbed (hPasswords : PasswordsDiscriminated d.sodium)
    {history : List (Entry τ World Event)} (h : Histories d calls world history)
    (hUndisturbed : Undisturbed history) : StoresLastChange d calls world history := by
  intro newer e older process accessToken currentPassword newPassword userId hSplit hCall hWrites hLast
  subst hSplit
  have hReplaces := replacesVerifiedHash_of_undisturbed h hUndisturbed
  induction newer with
  | nil =>
    cases h with
    | cons hOlder hBefore hDiscipline =>
      have hEntry := hReplaces.1 userId hWrites
      rcases hDiscipline.hashWrite with ⟨hNone, -⟩ | ⟨user, _, written, salt, hWrite, hUser, hAfter⟩
      · rw [updatedUsers_eq_of_hashes hNone] at hWrites
        cases hWrites
      · rw [updatedUsers_eq_of_hashes hUser, List.map_singleton, List.mem_singleton] at hWrites
        have hPasswordsOf := hWrite.passwords
        rw [hCall] at hPasswordsOf
        cases hPasswordsOf
        refine ⟨d.sodium.pwhashStr salt newPassword, ?_, fun password => ?_⟩
        · obtain ⟨old, hOld, -⟩ := Option.map_eq_some_iff.mp hEntry
          change e.after.database.storedHash userId = _
          rw [hAfter, hOld, Option.map_some, if_pos hWrites]
        · exact hPasswords salt password newPassword hWrite.nonempty
  | cons e' newer ih =>
    cases h with
    | cons hOlder hBefore hDiscipline =>
      obtain ⟨stored, hStored, hRight⟩ := ih
        (fun e'' hMem => hLast e'' (List.mem_cons_of_mem _ hMem)) hOlder hUndisturbed.2 hReplaces.2
      have hStored' : e'.before.database.storedHash userId = some stored := by
        rw [hBefore]
        exact hStored
      exact storesPassword_step hPasswords hDiscipline (hReplaces.1 userId)
        (hLast e' List.mem_cons_self) hStored' hRight

/-- In a run in which no call writes a hash that was written since it read the row,
no update of a password is lost. -/
theorem no_lost_password_update (d : Deployment) (hPasswords : PasswordsDiscriminated d.sodium)
    (calls : τ → Operation) (world : World) (schedule : List (τ × (Nat → Surroundings)))
    (hUndisturbed : Undisturbed ((d.pool calls world).run schedule).history) :
    ReplacesVerifiedHash ((d.pool calls world).run schedule).history ∧
      StoresLastChange d calls world ((d.pool calls world).run schedule).history := by
  have hRun := (running_pool d calls world schedule).execution
  exact ⟨replacesVerifiedHash_of_undisturbed hRun hUndisturbed,
    storesLastChange_of_undisturbed hPasswords hRun hUndisturbed⟩

end runs

/-! ## A login that overtakes a change of password -/

namespace Sample

theorem passwordsDiscriminated : PasswordsDiscriminated sodium := by
  intro salt password hashed hNonempty
  unfold PasswordHasher.matchesHash sodium
  cases hEmpty : password.isEmpty with
  | true =>
    constructor
    · intro h
      cases h
    · rintro rfl
      rw [hEmpty] at hNonempty
      cases hNonempty
  | false =>
    have hHash : ("$" ++ hashed).isEmpty = false := by simp
    simp only [hHash, Bool.not_false, Bool.true_and, beq_iff_eq, String.append_right_inj]
    exact eq_comm

def passwordCalls : Bool → Operation
  | false => .login 0 "alice" "old-password" "10.0.0.1"
  | true => .changePassword 0 "sc_at_alice" "old-password" "new-password"

/-- The login has hashed the old password again but not yet stored it. -/
def overtakenLogin : List (Bool × (Nat → Surroundings)) :=
  turns false 5 "a" ++ turns true 12 "b" ++ turns false 10 "a"

def loginBeforeChange : List (Bool × (Nat → Surroundings)) :=
  turns false 15 "a" ++ turns true 12 "b"

end Sample

theorem no_lost_password_update_sample :
    ReplacesVerifiedHash ((Sample.deployment.pool Sample.passwordCalls Sample.world).run
      Sample.loginBeforeChange).history ∧
    StoresLastChange Sample.deployment Sample.passwordCalls Sample.world
      ((Sample.deployment.pool Sample.passwordCalls Sample.world).run
        Sample.loginBeforeChange).history :=
  no_lost_password_update Sample.deployment Sample.passwordsDiscriminated Sample.passwordCalls
    Sample.world Sample.loginBeforeChange (by decide +kernel)

/-- The login writes the old password back over the new one. -/
theorem password_update_lost :
    PasswordsDiscriminated Sample.deployment.sodium ∧
    ¬ ReplacesVerifiedHash ((Sample.deployment.pool Sample.passwordCalls Sample.world).run
      Sample.overtakenLogin).history ∧
    ((Sample.deployment.pool Sample.passwordCalls Sample.world).run
      Sample.overtakenLogin).state.database.storedHash 1 = some "$old-password" :=
  ⟨Sample.passwordsDiscriminated, by decide +kernel, by decide +kernel⟩

end SecureCore
