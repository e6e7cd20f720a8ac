import SecureCore.Http.Registration
import SecureCore.Relational.Names
import SecureCore.System.Sample

/-! # A login string names at most one account

The table keeps user names apart and addresses apart. That no name of one account is the
address of another follows from what a name and an address may look like. -/

namespace SecureCore

set_option autoImplicit false

open Interleaving Relational

/-! ## NOCASE -/

/-- What NOCASE compares: the length, and the lowercase bytes before the first NUL. -/
def nocaseKey (value : String) : Nat × List Char :=
  (value.length, lowercaseChars (value.toList.takeWhile (fun c => c != '\x00')))

theorem toLower_eq_nul (c : Char) : toLower c = '\x00' ↔ c = '\x00' := toLower_eq_iff (by decide) c

theorem sameUpToNul_iff {as bs : List Char} (hLength : as.length = bs.length) :
    sameUpToNul as bs = true ↔ lowercaseChars (as.takeWhile (fun c => c != '\x00')) =
      lowercaseChars (bs.takeWhile (fun c => c != '\x00')) := by
  induction as generalizing bs with
  | nil =>
    rw [List.eq_nil_of_length_eq_zero hLength.symm]
    exact iff_of_true rfl rfl
  | cons a as ih =>
    cases bs with
    | nil => cases hLength
    | cons b bs =>
      have hRest := ih (Nat.succ.inj hLength)
      rw [sameUpToNul, Bool.and_eq_true, Bool.or_eq_true, beq_iff_eq, beq_iff_eq]
      by_cases hA : a = '\x00'
      · subst hA
        by_cases hB : b = '\x00'
        · subst hB
          simp
        · have hLower : toLower '\x00' ≠ toLower b := by
            intro h
            exact hB ((toLower_eq_nul b).mp (h.symm.trans ((toLower_eq_nul _).mpr rfl)))
          simp [hB, hLower, lowercaseChars]
      · by_cases hB : b = '\x00'
        · subst hB
          have hLower : toLower a ≠ toLower '\x00' := by
            intro h
            exact hA ((toLower_eq_nul a).mp (h.trans ((toLower_eq_nul _).mpr rfl)))
          simp [hA, hLower, lowercaseChars]
        · simp only [lowercaseChars] at hRest
          simp [hA, hB, hRest, lowercaseChars]

theorem nocaseEq_iff (a b : String) : nocaseEq a b = true ↔ nocaseKey a = nocaseKey b := by
  rw [nocaseEq, Bool.and_eq_true, beq_iff_eq, nocaseKey, nocaseKey, Prod.mk.injEq]
  constructor
  · rintro ⟨hLength, hSame⟩
    exact ⟨hLength, (sameUpToNul_iff (by rwa [String.length_toList, String.length_toList])).mp hSame⟩
  · rintro ⟨hLength, hSame⟩
    exact ⟨hLength, (sameUpToNul_iff (by rwa [String.length_toList, String.length_toList])).mpr hSame⟩

/-- Spellings that differ in the case of their letters only are one to NOCASE. -/
theorem nocaseKey_of_lowercase {a b : String} (h : lowercaseCopy a = lowercaseCopy b) :
    nocaseKey a = nocaseKey b := by
  have hChars : lowercaseChars a.toList = lowercaseChars b.toList := by
    have hLists := congrArg String.toList h
    rwa [lowercaseCopy, lowercaseCopy, String.toList_ofList, String.toList_ofList] at hLists
  have hPrefix (value : List Char) : lowercaseChars (value.takeWhile (fun c => c != '\x00')) =
      (lowercaseChars value).takeWhile (fun c => c != '\x00') := by
    have hSame : (fun c => c != '\x00') ∘ toLower = fun c => c != '\x00' := by
      funext c
      rw [Function.comp_apply, Bool.eq_iff_iff, bne_iff_ne, bne_iff_ne, ne_eq, ne_eq, toLower_eq_nul]
    rw [lowercaseChars, lowercaseChars, List.takeWhile_map, hSame]
  have hLength := congrArg List.length hChars
  rw [length_lowercaseChars, length_lowercaseChars, String.length_toList, String.length_toList] at hLength
  rw [nocaseKey, nocaseKey, hLength, hPrefix, hPrefix, hChars]

/-! ## Names and addresses -/

theorem nameByte_of_isValidUsername {username : String} (h : UserService.isValidUsername username = true) {c : Char}
    (hc : c ∈ username.toList) : c ≠ '@' ∧ c ≠ '\x00' := by
  rw [UserService.isValidUsername, Bool.and_eq_true, List.all_eq_true] at h
  have hByte := h.2 c hc
  constructor <;> rintro rfl <;> exact absurd hByte (by decide)

theorem at_mem_of_isValidEmail {email : String} (h : UserService.isValidEmail email = true) :
    '@' ∈ email.toList := by
  rw [isValidEmail_eq, RequestValidation.validEmailBytes] at h
  by_contra hAbsent
  have hNone : findFrom email.toList '@' 0 = none := findFrom_eq_none.mpr (by simpa using hAbsent)
  rw [hNone] at h
  split at h <;> cases h

/-- A name has neither the '@' of an address nor a NUL that would hide it. -/
theorem nocaseKey_ne {username email : String} (hUsername : UserService.isValidUsername username = true)
    (hEmail : UserService.isValidEmail email = true) : nocaseKey username ≠ nocaseKey email := by
  intro hSame
  rw [nocaseKey, nocaseKey, Prod.mk.injEq] at hSame
  obtain ⟨hLength, hPrefix⟩ := hSame
  have hName : username.toList.takeWhile (fun c => c != '\x00') = username.toList :=
    List.takeWhile_eq_self_iff.mpr
      (fun c hc => bne_iff_ne.mpr (nameByte_of_isValidUsername hUsername hc).2)
  rw [hName] at hPrefix
  have hAddress : email.toList.takeWhile (fun c => c != '\x00') = email.toList := by
    have hLengths := congrArg List.length hPrefix
    rw [length_lowercaseChars, length_lowercaseChars, String.length_toList, hLength,
      ← String.length_toList] at hLengths
    exact (List.takeWhile_prefix _).eq_of_length hLengths.symm
  rw [hAddress] at hPrefix
  have hAt : '@' ∈ lowercaseChars username.toList := by
    rw [hPrefix]
    exact List.mem_map.mpr ⟨'@', at_mem_of_isValidEmail hEmail, by decide⟩
  obtain ⟨c, hc, hLower⟩ := List.mem_map.mp hAt
  exact (nameByte_of_isValidUsername hUsername hc).1 ((toLower_eq_iff (by decide) c).mp hLower)

/-! ## Registered users -/

/-- The names of a row, as the lookup compares them. -/
def loginNames (u : User) : List (Nat × List Char) := [nocaseKey u.username, nocaseKey u.email]

theorem matchesLogin_iff (login : String) (u : User) :
    Database.matchesLogin login u = true ↔ nocaseKey login ∈ loginNames u := by
  rw [Database.matchesLogin, Bool.or_eq_true, nocaseEq_iff, nocaseEq_iff, loginNames, List.mem_pair]
  exact or_congr eq_comm eq_comm

theorem findUserByLogin_eq (db : Database) (login : String) :
    db.findUserByLogin login = db.users.byName loginNames (nocaseKey login) := by
  rw [Database.findUserByLogin, Table.byName]
  congr 1
  funext u
  rw [Bool.eq_iff_iff, List.contains_iff_mem, matchesLogin_iff]

/-- What registrations make of the table of users. -/
structure RegisteredUsers (users : Table User) : Prop where
  username : ∀ u ∈ users.rows, UserService.isValidUsername u.username = true
  email : ∀ u ∈ users.rows, UserService.isValidEmail u.email = true
  named : users.Named loginNames

theorem RegisteredUsers.insertUser {db : Database} (h : RegisteredUsers db.users) {input : CreateUser}
    (hUsername : UserService.isValidUsername input.username = true)
    (hEmail : UserService.isValidEmail input.email = true) (hUnused : db.duplicatesUser input = false)
    (now : String) : RegisteredUsers (db.insertUser input now).users where
  username u hu := by
    rcases Table.mem_insert.mp hu with hu | rfl
    · exact h.username u hu
    · exact hUsername
  email u hu := by
    rcases Table.mem_insert.mp hu with hu | rfl
    · exact h.email u hu
    · exact hEmail
  named := by
    refine h.named.insert ?_
    intro u hu name hName hNew
    have hFresh : ¬(nocaseEq u.username input.username = true ∨ nocaseEq u.email input.email = true) := by
      rw [Database.duplicatesUser, List.any_eq_false] at hUnused
      simpa using hUnused u hu
    rw [nocaseEq_iff, nocaseEq_iff, not_or] at hFresh
    rw [loginNames, List.mem_pair] at hName
    change name ∈ [nocaseKey input.username, nocaseKey input.email] at hNew
    rw [List.mem_pair] at hNew
    obtain rfl | rfl := hName <;> obtain hSame | hSame := hNew
    · exact hFresh.1 hSame
    · exact nocaseKey_ne (h.username u hu) hEmail hSame
    · exact nocaseKey_ne hUsername (h.email u hu) hSame.symm
    · exact hFresh.2 hSame

/-! ## Runs of registrations -/

def Operation.IsRegistration (op : Operation) : Prop :=
  ∃ username email password, op = .registerUser username email password

/-- An access of a registration: nothing happens, or a user is inserted. -/
inductive Registers (_ : List (Act World Event)) (act : Act World Event) : Prop
  | reads (hSame : act.after.database = act.before.database)
  | inserts {input : CreateUser} (now : String)
      (hUnused : act.before.database.duplicatesUser input = false)
      (hAfter : act.after.database = act.before.database.insertUser input now)
      (hUsername : UserService.isValidUsername input.username = true)
      (hEmail : UserService.isValidEmail input.email = true)

theorem leads_registration (d : Deployment) {op : Operation} (h : op.IsRegistration) :
    Fallible.Leads Registers (d.call op) [] (fun _ _ => True) (fun _ _ => True) := by
  have hAdmissible : Admissible Registers (fun _ _ => True) :=
    ⟨fun _ _ hSame _ => .reads hSame, fun _ _ _ => trivial⟩
  obtain ⟨username, email, password, rfl⟩ := h
  apply leads_discard
  exact leads_registerUser hAdmissible (fun _ => trivial) (fun _ => trivial) (fun _ => trivial) (fun _ => trivial)
    (fun _ now _ _ hName hAddress _ hUnused hAfter _ => .inserts now hUnused hAfter hName hAddress)

theorem along_registration (d : Deployment) {op : Operation} (h : op.IsRegistration) :
    (d.call op).run.Along Registers [] (fun _ _ => True) := by
  refine Process.Along.mono (Fallible.along_of_leads (leads_registration d h)) (fun _ _ h => h) ?_
  intro _ _ _
  trivial

variable {τ : Type} [DecidableEq τ]

theorem RegisteredUsers.access {past : List (Act World Event)} {act : Act World Event}
    (h : RegisteredUsers act.before.database.users) (hAccess : Registers past act) :
    RegisteredUsers act.after.database.users ∧ act.before.database.users.rows ⊆ act.after.database.users.rows := by
  cases hAccess with
  | reads hSame =>
    rw [hSame]
    exact ⟨h, fun _ hu => hu⟩
  | inserts now hUnused hAfter hUsername hEmail =>
    rw [hAfter]
    exact ⟨h.insertUser hUsername hEmail hUnused now, fun _ hu => Table.mem_insert.mpr (.inl hu)⟩

theorem registeredUsers_of_run {start : World} (hStart : RegisteredUsers start.database.users)
    {older newer : List (Entry τ World Event)} (h : Execution (fun _ => Registers) start (newer ++ older)) :
    RegisteredUsers (stateAfter start older).database.users ∧
      RegisteredUsers (stateAfter start (newer ++ older)).database.users ∧
      (stateAfter start older).database.users.rows ⊆ (stateAfter start (newer ++ older)).database.users.rows := by
  have hOlder : RegisteredUsers (stateAfter start older).database.users :=
    Execution.invariant (I := fun w _ => RegisteredUsers w.database.users) hStart
      (fun _ _ hRun hBefore => (hBefore.access hRun.uncons.2.2).1) h.of_append
  refine ⟨hOlder, ?_⟩
  exact Execution.invariant_from (I := fun w _ => RegisteredUsers w.database.users ∧
      (stateAfter start older).database.users.rows ⊆ w.database.users.rows) ⟨hOlder, fun _ hu => hu⟩
    (fun _ _ hRun hBefore => by
      obtain ⟨hAfter, hKept⟩ := hBefore.1.access hRun.uncons.2.2
      exact ⟨hAfter, fun _ hu => hKept (hBefore.2 hu)⟩) h

/-- However registrations are interleaved, a login string finds at most one account, and it goes
on finding the account that it found first. -/
theorem login_names_one_account (d : Deployment) (calls : τ → Operation) (hCalls : ∀ t, (calls t).IsRegistration)
    (world : World) (hEmpty : world.database.users.rows = []) (schedule later : List (τ × (Nat → Surroundings))) :
    let reached := ((d.pool calls world).run schedule).state.database
    let afterwards := ((d.pool calls world).run (schedule ++ later)).state.database
    (∀ login, ∀ a ∈ reached.users.rows, ∀ b ∈ reached.users.rows,
      Database.matchesLogin login a = true → Database.matchesLogin login b = true → a = b) ∧
    ∀ u ∈ reached.users.rows, ∀ login, Database.matchesLogin login u = true ∨
        lowercaseCopy login = lowercaseCopy u.username ∨ lowercaseCopy login = lowercaseCopy u.email →
      reached.findUserByLogin login = some u ∧ afterwards.findUserByLogin login = some u := by
  intro reached afterwards
  have hRunning (schedule : List (τ × (Nat → Surroundings))) :
      Pool.Running (fun _ => Registers) (fun _ _ _ => True) world ((d.pool calls world).run schedule) :=
    Pool.running_of_along (fun t => along_registration d (hCalls t)) world schedule
  have hRun := hRunning schedule
  have hLater := hRunning (schedule ++ later)
  have hStart : RegisteredUsers world.database.users := by
    refine ⟨?_, ?_, Table.named_of_rows_eq_nil hEmpty⟩ <;> rw [hEmpty] <;> exact List.forall_mem_nil _
  obtain ⟨newer, hNewer⟩ := Pool.run_history ((d.pool calls world).run schedule) later
  rw [← Pool.run_append] at hNewer
  have hExecution := hLater.execution
  rw [hNewer] at hExecution
  obtain ⟨hReached, hAfterwards, hKept⟩ := registeredUsers_of_run hStart hExecution
  rw [← hNewer, ← hLater.state, ← hRun.state] at hKept
  rw [← hRun.state] at hReached
  rw [← hNewer, ← hLater.state] at hAfterwards
  constructor
  · intro login a ha b hb hA hB
    exact hReached.named a ha b hb _ ((matchesLogin_iff login a).mp hA) ((matchesLogin_iff login b).mp hB)
  · intro u hu login hLogin
    have hName : nocaseKey login ∈ loginNames u := by
      rw [loginNames, List.mem_pair]
      obtain hMatch | hSpelling | hSpelling := hLogin
      · exact List.mem_pair.mp ((matchesLogin_iff login u).mp hMatch)
      · exact .inl (nocaseKey_of_lowercase hSpelling)
      · exact .inr (nocaseKey_of_lowercase hSpelling)
    rw [findUserByLogin_eq, findUserByLogin_eq]
    exact ⟨hReached.named.byName_eq hu hName, hAfterwards.named.byName_eq (hKept hu) hName⟩

namespace Sample

def newWorld : World := { world with database := { database with users := Table.empty, userRoles := [] } }

/-- Two registrations that want the same name in two spellings. -/
def rivals : Bool → Operation
  | false => .registerUser " Ann" "ann@example.org" "12345678"
  | true => .registerUser "ann" "Ann@Example.net" "12345678"

def rivalTurns : List (Bool × (Nat → Surroundings)) := turns false 2 "a" ++ turns true 8 "b"

end Sample

theorem login_names_one_account_sample :
    ∃ u, ((Sample.deployment.pool Sample.rivals Sample.newWorld).run
        (Sample.rivalTurns ++ Sample.turns false 4 "a")).state.database.findUserByLogin "ANN@example.NET" = some u ∧
      u.username = "ann" := by
  obtain ⟨u, hMem, hName, hEmail⟩ : ∃ u ∈ ((Sample.deployment.pool Sample.rivals Sample.newWorld).run
      Sample.rivalTurns).state.database.users.rows, u.username = "ann" ∧ u.email = "ann@example.net" := by
    decide +kernel
  have hCalls : ∀ t, (Sample.rivals t).IsRegistration := fun t => by cases t <;> exact ⟨_, _, _, rfl⟩
  have hNames := (login_names_one_account Sample.deployment Sample.rivals hCalls Sample.newWorld rfl
    Sample.rivalTurns (Sample.turns false 4 "a")).2 u hMem "ANN@example.NET" (.inr (.inr (by
      rw [hEmail]
      decide +kernel)))
  exact ⟨u, hNames.2, hName⟩

end SecureCore
