import SecureCore.Security.FirstLockout
import SecureCore.System.Sample

/-! # Throttled logins

The protector knows accounts by what was typed, the database by the row that it finds.
A run of logins one after the other, all for one user and all with wrong passwords. -/

namespace SecureCore

set_option autoImplicit false

open Interleaving AuthAbuseProtector

/-! ## Keys of login strings -/

theorem lowercase_of_sameUpToNul {xs ys : List Char} (hLength : xs.length = ys.length)
    (hSame : sameUpToNul xs ys = true) (hNul : '\x00' ∉ xs) : lowercaseChars xs = lowercaseChars ys := by
  induction xs generalizing ys with
  | nil =>
    cases ys with
    | nil => rfl
    | cons y ys => cases hLength
  | cons x xs ih =>
    cases ys with
    | nil => cases hLength
    | cons y ys =>
      rw [List.mem_cons, not_or] at hNul
      unfold sameUpToNul at hSame
      rw [Bool.and_eq_true, Bool.or_eq_true, beq_iff_eq, beq_iff_eq] at hSame
      obtain ⟨hHead, hTail⟩ := hSame
      have hRest : sameUpToNul xs ys = true := hTail.resolve_left (fun h => hNul.1 h.symm)
      unfold lowercaseChars at ih ⊢
      rw [List.map_cons, List.map_cons, hHead, ih (by simpa using hLength) hRest hNul.2]

/-- Two login strings that match one column of one row have one account key. -/
theorem normalizeLogin_eq {column first second : String} (hNul : '\x00' ∉ column.toList)
    (hFirst : nocaseEq column (trimCopy first) = true)
    (hSecond : nocaseEq column (trimCopy second) = true) :
    normalizeLogin (trimCopy first) = normalizeLogin (trimCopy second) := by
  have hKey : ∀ login, nocaseEq column (trimCopy login) = true → normalizeLogin (trimCopy login) =
      if column.toList.isEmpty then "<empty>"
      else String.ofList ((lowercaseChars column.toList).take 254) := by
    intro login hMatch
    unfold nocaseEq at hMatch
    rw [Bool.and_eq_true, beq_iff_eq, ← String.length_toList, ← String.length_toList] at hMatch
    obtain ⟨hLength, hSame⟩ := hMatch
    have hLower := lowercase_of_sameUpToNul hLength hSame hNul
    have hTrimmed : trimChars (trimCopy login).toList = (trimCopy login).toList := by
      unfold trimCopy
      rw [String.toList_ofList, trimChars_trimChars]
    have hEmpty : (trimCopy login).toList.isEmpty = column.toList.isEmpty := by
      rw [← Bool.coe_iff_coe, List.isEmpty_iff_length_eq_zero, List.isEmpty_iff_length_eq_zero, hLength]
    unfold normalizeLogin
    simp only [hTrimmed, hEmpty]
    rw [hLower]
    unfold lowercaseChars
    rw [List.map_take]
  rw [hKey first hFirst, hKey second hSecond]

/-! ## One login with a wrong password -/

structure LoginAttempt where
  login : String
  password : String
  clientIp : String
  inputs : Nat → Nat → Surroundings

namespace LoginAttempt

variable (service : AuthService) (attempt : LoginAttempt) (w : World)

def run : Process.Ran World Event (Except Exception LoginResult) :=
  Process.run (service.login attempt.login attempt.password attempt.clientIp).run attempt.inputs w

/-- The call has come as far as verifying the password. -/
def reached : Bool := (attempt.run service w).events.any (fun event => match event with
  | .passwordChecked _ _ => true
  | _ => false)

def address : String :=
  if (trimCopy attempt.clientIp).isEmpty then "<unknown>" else trimCopy attempt.clientIp

def blank : Bool := (trimCopy attempt.login).isEmpty || attempt.password.isEmpty

/-- The reading of the clock before the password is looked at. -/
def checkedAt : Int := (attempt.inputs 0 0).steadyClock

/-- The reading with which a wrong password is recorded. -/
def failedAt : Int := (attempt.inputs 4 0).steadyClock

def key : String := normalizeLogin (trimCopy attempt.login)

def checkCall : ProtectorCall := .check (trimCopy attempt.login) attempt.address attempt.checkedAt

def failureCall : ProtectorCall := .recordFailure (trimCopy attempt.login) attempt.address
  (attempt.inputs 4 0).accountOrder (attempt.inputs 4 0).ipOrder attempt.failedAt

theorem checkCall_touchTime (k : String) : attempt.checkCall.touchTime .account k =
    if attempt.key = k then some attempt.checkedAt else none := rfl

theorem failureCall_touchTime (k : String) : attempt.failureCall.touchTime .account k =
    if attempt.key = k then some attempt.failedAt else none := rfl

theorem failureCall_failureTime (k : String) : attempt.failureCall.failureTime .account k =
    if attempt.key = k then some attempt.failedAt else none := rfl

/-- What the call asks of the protector. -/
def calls : List ProtectorCall :=
  if attempt.blank then []
  else attempt.checkCall :: if attempt.reached service w then [attempt.failureCall] else []

theorem mem_calls {call : ProtectorCall} (h : call ∈ attempt.calls service w) :
    call = attempt.checkCall ∨ call = attempt.failureCall := by
  unfold calls at h
  split at h
  · cases h
  · rcases List.mem_cons.mp h with hCheck | hFailure
    · exact .inl hCheck
    · split at hFailure
      · exact .inr (List.mem_singleton.mp hFailure)
      · cases hFailure

end LoginAttempt

section login

variable (service : AuthService) (inputs : Nat → Nat → Surroundings) (w : World)

def protectorsUpdated (process : Nat) (protector : AuthAbuseProtector) : World :=
  { w with protectors := Function.update w.protectors process protector }

@[simp] theorem protectorsUpdated_self (process : Nat) (protector : AuthAbuseProtector) :
    (protectorsUpdated w process protector).protectors process = protector :=
  Function.update_self _ _ _

@[simp] theorem protectorsUpdated_twice (process : Nat) (first second : AuthAbuseProtector) :
    protectorsUpdated (protectorsUpdated w process first) process second =
      protectorsUpdated w process second := by
  unfold protectorsUpdated
  simp only [Function.update_idem]

theorem run_withProtector {α : Type} (process : Nat)
    (body : Surroundings → AuthAbuseProtector → α × AuthAbuseProtector) :
    Process.run (withProtector process body).run inputs w =
      ⟨.ok (body (inputs 0 0) (w.protectors process)).1,
        protectorsUpdated w process (body (inputs 0 0) (w.protectors process)).2, [], 1⟩ := by
  unfold withProtector
  rw [Fallible.run_atomic]
  rfl

theorem run_findByLogin (login : String) :
    (∃ e used, Process.run (UserRepository.findByLogin login).run inputs w = ⟨.error e, w, [], used⟩) ∨
      Process.run (UserRepository.findByLogin login).run inputs w =
        ⟨.ok (w.database.findUserByLogin login), w,
          [.userSelected (w.database.findUserByLogin login)], 2⟩ := by
  unfold UserRepository.findByLogin Database.withLockedHandle Database.acquireConnection consult
  rw [Fallible.run_atomic_bind]
  cases hAcquire : (inputs 0 0).failure with
  | some code =>
    left
    simp [HasSurroundings.surroundings, hAcquire]
  | none =>
    unfold Database.autocommit Sql.select Sql.statement
    rw [Fallible.zoom_atomic, Fallible.run_atomic]
    cases hSelect : (inputs 1 0).failure with
    | some code =>
      left
      simp [HasSurroundings.surroundings, hAcquire, World.withDatabase]
    | none =>
      right
      simp [HasSurroundings.surroundings, hAcquire, World.withDatabase]

/-- What a login with a wrong password can come to. -/
inductive Rejected (attempt : LoginAttempt) : Prop
  | blank (hBlank : attempt.blank = true) (hState : (attempt.run service w).state = w)
      (hReached : attempt.reached service w = false)
  | denied {retryAfterSeconds : Nat} (hBlank : attempt.blank = false)
      (hDenied : (attempt.checkCall.decision (w.protectors service.process)).allowed = false)
      (hResult : (attempt.run service w).result =
        .error (AuthService.loginThrottled retryAfterSeconds))
      (hRetry : retryAfterSeconds =
        (attempt.checkCall.decision (w.protectors service.process)).retryAfterSeconds)
      (hState : (attempt.run service w).state = protectorsUpdated w service.process
        (attempt.checkCall.after (w.protectors service.process)))
      (hReached : attempt.reached service w = false)
  | unread (hBlank : attempt.blank = false)
      (hAllowed : (attempt.checkCall.decision (w.protectors service.process)).allowed = true)
      (hState : (attempt.run service w).state = protectorsUpdated w service.process
        (attempt.checkCall.after (w.protectors service.process)))
      (hReached : attempt.reached service w = false)
  | verified (hBlank : attempt.blank = false)
      (hAllowed : (attempt.checkCall.decision (w.protectors service.process)).allowed = true)
      (hState : (attempt.run service w).state = protectorsUpdated w service.process
        (attempt.failureCall.after (attempt.checkCall.after (w.protectors service.process))))
      (hReached : attempt.reached service w = true)

/-- The part of login after the protector has let it pass. -/
def lookUp (login password clientIp : String) : Call LoginResult := do
  let user ← UserRepository.findByLogin login
  let passwordHash := match user with
    | some user => user.passwordHash
    | none => service.dummyPasswordHash
  let passwordValid ← PasswordHasher.verify service.sodium password passwordHash
  match user, passwordValid with
  | some user, true => service.openSession user login password
  | _, _ => service.rejectLogin login clientIp

theorem login_eq (attempt : LoginAttempt) :
    service.login attempt.login attempt.password attempt.clientIp = (do
      Fallible.throwIf attempt.blank AuthService.invalidCredentials
      let beforeAttempt ← withProtector service.process (fun env protector =>
        protector.check (trimCopy attempt.login) attempt.address env.steadyClock)
      Fallible.throwIf (!beforeAttempt.allowed)
        (AuthService.loginThrottled beforeAttempt.retryAfterSeconds)
      lookUp service (trimCopy attempt.login) attempt.password attempt.address) := rfl

theorem run_rejectLogin (login clientIp : String) :
    ∃ e used, Process.run (service.rejectLogin login clientIp).run inputs w =
      ⟨.error e, protectorsUpdated w service.process
        ((w.protectors service.process).recordFailure login clientIp (inputs 0 0).accountOrder
          (inputs 0 0).ipOrder (inputs 0 0).steadyClock).2, [], used⟩ := by
  have hRecord := run_withProtector inputs w service.process (fun env protector =>
    protector.recordFailure login clientIp env.accountOrder env.ipOrder env.steadyClock)
  unfold AuthService.rejectLogin
  rw [Fallible.run_bind_of_ok hRecord, Fallible.run_bind, Fallible.run_throwIf]
  cases (!((w.protectors service.process).recordFailure login clientIp (inputs 0 0).accountOrder
    (inputs 0 0).ipOrder (inputs 0 0).steadyClock).1.allowed) with
  | true => exact ⟨_, _, rfl⟩
  | false => exact ⟨_, _, rfl⟩

/-- Either the row cannot be read, or the wrong password is found out and recorded. -/
theorem run_lookUp {login password clientIp : String} {user : User}
    (hUser : w.database.findUserByLogin login = some user)
    (hWrong : PasswordHasher.matchesHash service.sodium password user.passwordHash = false) :
    (∃ e used, Process.run (lookUp service login password clientIp).run inputs w =
      ⟨.error e, w, [], used⟩) ∨
    ∃ e used, Process.run (lookUp service login password clientIp).run inputs w =
      ⟨.error e, protectorsUpdated w service.process
        ((w.protectors service.process).recordFailure login clientIp (inputs 3 0).accountOrder
          (inputs 3 0).ipOrder (inputs 3 0).steadyClock).2,
        [.userSelected (some user), .passwordChecked user.passwordHash false], used⟩ := by
  unfold lookUp
  rcases run_findByLogin inputs w login with ⟨e, used, hFailed⟩ | hFound
  · left
    rw [Fallible.run_bind_of_error hFailed]
    exact ⟨e, used, rfl⟩
  · right
    rw [hUser] at hFound
    have hVerify : Process.run (PasswordHasher.verify service.sodium password user.passwordHash).run
        (fun k => inputs (k + 2)) w =
        ⟨.ok false, w, [.passwordChecked user.passwordHash false], 1⟩ := by
      unfold PasswordHasher.verify consult
      rw [hWrong, Fallible.run_atomic]
    obtain ⟨e, used, hReject⟩ := run_rejectLogin service (fun k => inputs (k + 1 + 2)) w login clientIp
    rw [Fallible.run_bind_of_ok hFound, Fallible.run_bind_of_ok hVerify]
    simp only [hReject]
    exact ⟨e, _, rfl⟩

theorem run_of_blank {attempt : LoginAttempt} (hBlank : attempt.blank = true) :
    attempt.run service w = ⟨.error AuthService.invalidCredentials, w, [], 0⟩ := by
  unfold LoginAttempt.run
  rw [login_eq, hBlank, Fallible.throwIf_true_bind, Fallible.run_throw]

theorem reached_of_blank {attempt : LoginAttempt} (hBlank : attempt.blank = true) :
    attempt.reached service w = false := by
  unfold LoginAttempt.reached
  rw [run_of_blank service w hBlank]
  rfl

theorem rejected_of_wrong {attempt : LoginAttempt} {user : User}
    (hUser : w.database.findUserByLogin (trimCopy attempt.login) = some user)
    (hWrong : PasswordHasher.matchesHash service.sodium attempt.password user.passwordHash = false) :
    Rejected service w attempt := by
  cases hBlank : attempt.blank with
  | true =>
    have hState : (attempt.run service w).state = w := by
      rw [run_of_blank service w hBlank]
    exact .blank hBlank hState (reached_of_blank service w hBlank)
  | false =>
    have hCheck : Process.run (withProtector service.process (fun env protector =>
        protector.check (trimCopy attempt.login) attempt.address env.steadyClock)).run attempt.inputs w =
        ⟨.ok (attempt.checkCall.decision (w.protectors service.process)),
          protectorsUpdated w service.process
            (attempt.checkCall.after (w.protectors service.process)), [], 1⟩ :=
      run_withProtector _ _ _ _
    have hRun := Fallible.run_bind_of_ok hCheck (f := fun beforeAttempt => do
      Fallible.throwIf (!beforeAttempt.allowed)
        (AuthService.loginThrottled beforeAttempt.retryAfterSeconds)
      lookUp service (trimCopy attempt.login) attempt.password attempt.address)
    have hLogin : attempt.run service w = Process.run (do
        let beforeAttempt ← withProtector service.process (fun env protector =>
          protector.check (trimCopy attempt.login) attempt.address env.steadyClock)
        Fallible.throwIf (!beforeAttempt.allowed)
          (AuthService.loginThrottled beforeAttempt.retryAfterSeconds)
        lookUp service (trimCopy attempt.login) attempt.password attempt.address :
        Call LoginResult).run attempt.inputs w := by
      unfold LoginAttempt.run
      rw [login_eq, hBlank, Fallible.throwIf_false_bind]
    rw [hRun] at hLogin
    cases hAllowed : (attempt.checkCall.decision (w.protectors service.process)).allowed with
    | false =>
      rw [hAllowed, Bool.not_false, Fallible.throwIf_true_bind, Fallible.run_throw] at hLogin
      refine .denied hBlank hAllowed (by rw [hLogin]) rfl (by rw [hLogin]) ?_
      unfold LoginAttempt.reached
      rw [hLogin]
      rfl
    | true =>
      rw [hAllowed, Bool.not_true, Fallible.throwIf_false_bind] at hLogin
      rcases run_lookUp service (fun k => attempt.inputs (k + 1)) (protectorsUpdated w service.process
          (attempt.checkCall.after (w.protectors service.process))) hUser hWrong with
        ⟨e, n, hRest⟩ | ⟨e, n, hRest⟩
      · rw [hRest] at hLogin
        refine .unread hBlank hAllowed (by rw [hLogin]) ?_
        unfold LoginAttempt.reached
        rw [hLogin]
        rfl
      · rw [hRest] at hLogin
        refine .verified hBlank hAllowed ?_ ?_
        · rw [hLogin]
          simp only [protectorsUpdated_self, protectorsUpdated_twice]
          rfl
        · unfold LoginAttempt.reached
          rw [hLogin]
          rfl

end login

/-! ## Logins one after the other -/

section runs

variable (service : AuthService)

def worldAfter (w : World) (attempts : List LoginAttempt) : World :=
  attempts.foldl (fun w attempt => (attempt.run service w).state) w

/-- The attempts that come as far as verifying the password. -/
def verified (w : World) (attempts : List LoginAttempt) : List LoginAttempt :=
  match attempts with
  | [] => []
  | attempt :: rest =>
    (if attempt.reached service w then [attempt] else []) ++
      verified (attempt.run service w).state rest

def callsOf (w : World) (attempts : List LoginAttempt) : List ProtectorCall :=
  match attempts with
  | [] => []
  | attempt :: rest =>
    attempt.calls service w ++ callsOf (attempt.run service w).state rest

variable {service} {w : World} {attempts earlier later : List LoginAttempt}

theorem worldAfter_cons (service : AuthService) (w : World) (attempt : LoginAttempt)
    (attempts : List LoginAttempt) : worldAfter service w (attempt :: attempts) =
      worldAfter service (attempt.run service w).state attempts := List.foldl_cons ..

theorem verified_append : verified service w (earlier ++ later) =
    verified service w earlier ++ verified service (worldAfter service w earlier) later := by
  induction earlier generalizing w with
  | nil => rfl
  | cons attempt earlier ih =>
    rw [List.cons_append, verified, verified, worldAfter_cons, ih, List.append_assoc]

theorem callsOf_append : callsOf service w (earlier ++ later) =
    callsOf service w earlier ++ callsOf service (worldAfter service w earlier) later := by
  induction earlier generalizing w with
  | nil => rfl
  | cons attempt earlier ih =>
    rw [List.cons_append, callsOf, callsOf, worldAfter_cons, ih, List.append_assoc]

/-- A login string that leads to the user, with a password that is not the user's. -/
structure WrongFor (service : AuthService) (database : Database) (user : User)
    (attempt : LoginAttempt) : Prop where
  resolves : database.findUserByLogin (trimCopy attempt.login) = some user
  wrong : PasswordHasher.matchesHash service.sodium attempt.password user.passwordHash = false

/-- Wrong logins leave the database alone and do to the protector what their calls do. -/
theorem worldAfter_eq {config : AuthAbuseConfig} {prior : List ProtectorCall} {user : User}
    (hStart : w.protectors service.process = AuthAbuseProtector.run config prior)
    (hWrong : ∀ attempt ∈ attempts, WrongFor service w.database user attempt) :
    (worldAfter service w attempts).database = w.database ∧
      (worldAfter service w attempts).protectors service.process =
        AuthAbuseProtector.run config (prior ++ callsOf service w attempts) := by
  induction attempts generalizing w prior with
  | nil =>
    rw [callsOf, List.append_nil]
    exact ⟨rfl, hStart⟩
  | cons attempt attempts ih =>
    have hHead := hWrong attempt List.mem_cons_self
    have hStep : (attempt.run service w).state.database = w.database ∧
        (attempt.run service w).state.protectors service.process =
          AuthAbuseProtector.run config (prior ++ attempt.calls service w) := by
      unfold LoginAttempt.calls
      cases rejected_of_wrong service w hHead.resolves hHead.wrong with
      | blank hBlank hState hReached =>
        rw [hState, hBlank, if_pos rfl, List.append_nil]
        exact ⟨rfl, hStart⟩
      | denied hBlank hDenied hResult hRetry hState hReached =>
        rw [hState, hBlank, hReached, if_neg Bool.false_ne_true, if_neg Bool.false_ne_true,
          protectorsUpdated_self, run_append, hStart]
        exact ⟨rfl, rfl⟩
      | unread hBlank hAllowed hState hReached =>
        rw [hState, hBlank, hReached, if_neg Bool.false_ne_true, if_neg Bool.false_ne_true,
          protectorsUpdated_self, run_append, hStart]
        exact ⟨rfl, rfl⟩
      | verified hBlank hAllowed hState hReached =>
        rw [hState, hBlank, hReached, if_neg Bool.false_ne_true, if_pos rfl,
          protectorsUpdated_self, run_append, hStart]
        exact ⟨rfl, rfl⟩
    have hTail : ∀ later ∈ attempts,
        WrongFor service (attempt.run service w).state.database user later := by
      intro later hLater
      rw [hStep.1]
      exact hWrong later (List.mem_cons_of_mem _ hLater)
    obtain ⟨hDatabase, hProtector⟩ := ih hStep.2 hTail
    rw [callsOf, ← List.append_assoc, worldAfter_cons]
    exact ⟨hDatabase.trans hStep.1, hProtector⟩

theorem touchTime_callsOf (service : AuthService) (w : World) {key : String}
    (hKey : ∀ attempt ∈ attempts, attempt.key = key) :
    ∀ call ∈ callsOf service w attempts, ∃ t, call.touchTime .account key = some t := by
  induction attempts generalizing w with
  | nil =>
    intro call hCall
    cases hCall
  | cons attempt attempts ih =>
    intro call hCall
    rw [callsOf, List.mem_append] at hCall
    rcases hCall with hHere | hLater
    · have hSame := hKey attempt List.mem_cons_self
      rcases attempt.mem_calls service w hHere with rfl | rfl
      · exact ⟨_, (attempt.checkCall_touchTime key).trans (if_pos hSame)⟩
      · exact ⟨_, (attempt.failureCall_touchTime key).trans (if_pos hSame)⟩
    · exact ih _ (fun a ha => hKey a (List.mem_cons_of_mem _ ha)) call hLater

theorem failureTimes_calls (service : AuthService) (w : World) {attempt : LoginAttempt} {key : String}
    (hKey : attempt.key = key) :
    failureTimes .account key (attempt.calls service w) =
      if attempt.reached service w then [attempt.failedAt] else [] := by
  have hCheck : attempt.checkCall.failureTime .account key = none := rfl
  have hFailure : attempt.failureCall.failureTime .account key = some attempt.failedAt :=
    (attempt.failureCall_failureTime key).trans (if_pos hKey)
  have hNever : attempt.blank = true → attempt.reached service w = false :=
    fun hBlank => reached_of_blank service w hBlank
  unfold LoginAttempt.calls failureTimes
  generalize attempt.reached service w = reached at hNever ⊢
  cases hBlank : attempt.blank with
  | true =>
    rw [hNever hBlank]
    rfl
  | false =>
    rw [if_neg Bool.false_ne_true, List.filterMap_cons_none hCheck]
    cases reached with
    | false => rfl
    | true =>
      rw [if_pos rfl, if_pos rfl, List.filterMap_cons_some hFailure]
      rfl

theorem failureTimes_callsOf (service : AuthService) (w : World) {key : String}
    (hKey : ∀ attempt ∈ attempts, attempt.key = key) :
    failureTimes .account key (callsOf service w attempts) =
      (verified service w attempts).map LoginAttempt.failedAt := by
  induction attempts generalizing w with
  | nil => rfl
  | cons attempt attempts ih =>
    have hHere := failureTimes_calls service w (hKey attempt List.mem_cons_self)
    have hTail := ih (attempt.run service w).state
      (fun a ha => hKey a (List.mem_cons_of_mem _ ha))
    unfold failureTimes at hHere hTail ⊢
    rw [callsOf, verified, List.filterMap_append, List.map_append, hTail, hHere]
    generalize attempt.reached service w = reached
    cases reached <;> rfl

/-- A run of wrong logins for one user under one account key that is new to the
protector. -/
structure FreshRun (service : AuthService) (config : AuthAbuseConfig) (w : World) (user : User)
    (key : String) (prior : List ProtectorCall) (attempts : List LoginAttempt) : Prop where
  start : w.protectors service.process = AuthAbuseProtector.run config prior
  fresh : (AuthAbuseProtector.run config prior).entry .account key = none
  wrong : ∀ attempt ∈ attempts, WrongFor service w.database user attempt
  key : ∀ attempt ∈ attempts, attempt.key = key
  ordered : Ordered (prior ++ callsOf service w attempts)
  steady : Steady config (prior ++ callsOf service w attempts)

def WithinWindow (service : AuthService) (config : AuthAbuseConfig) (w : World) (begin : Int)
    (attempts : List LoginAttempt) : Prop :=
  ∀ call ∈ callsOf service w attempts, ∀ t, call.time = some t →
    begin ≤ t ∧ t ≤ begin + seconds config.failureWindow

variable {config : AuthAbuseConfig} {user : User} {key : String} {prior : List ProtectorCall}

theorem FreshRun.prefix (h : FreshRun service config w user key prior (earlier ++ later)) :
    FreshRun service config w user key prior earlier := by
  have hOrdered := h.ordered
  have hSteady := h.steady
  rw [callsOf_append, ← List.append_assoc] at hOrdered hSteady
  exact ⟨h.start, h.fresh, fun a ha => h.wrong a (List.mem_append_left _ ha),
    fun a ha => h.key a (List.mem_append_left _ ha), hOrdered.prefix, hSteady.prefix⟩

theorem callsOf_concat (service : AuthService) (w : World) (attempts held : List LoginAttempt)
    {attempt : LoginAttempt} (hBlank : attempt.blank = false) : ∃ rest, attempt.checkCall ∈ rest ∧
      callsOf service w (attempts ++ held ++ [attempt]) = callsOf service w attempts ++
        callsOf service (worldAfter service w attempts) held ++ rest := by
  refine ⟨callsOf service (worldAfter service w (attempts ++ held)) [attempt], ?_, ?_⟩
  · rw [callsOf, LoginAttempt.calls, hBlank, if_neg Bool.false_ne_true]
    exact List.mem_append_left _ List.mem_cons_self
  · rw [callsOf_append, callsOf_append]

/-- From the last failure that the limit allows, the key is locked for the base duration. -/
theorem FreshRun.throttled (hConfig : config.Accepted) {held : List LoginAttempt}
    {attempt last : LoginAttempt} {begin : Int}
    (h : FreshRun service config w user key prior (attempts ++ held ++ [attempt])) (hBegin : 0 < begin)
    (hWindow : WithinWindow service config w begin attempts)
    (hCount : (verified service w attempts).length = config.accountFailureLimit)
    (hLast : (verified service w attempts).getLast? = some last)
    (hDuring : attempt.checkedAt < last.failedAt + seconds config.baseLockout)
    (hBlank : attempt.blank = false) :
    attempt.reached service (worldAfter service w (attempts ++ held)) = false ∧
      ∃ retryAfterSeconds, 1 ≤ retryAfterSeconds ∧
        (attempt.run service (worldAfter service w (attempts ++ held))).result =
          .error (AuthService.loginThrottled retryAfterSeconds) := by
  obtain ⟨hDatabase, hProtector⟩ := worldAfter_eq h.start h.prefix.wrong
  have hKey : ∀ a ∈ attempts ++ held, a.key = key := h.prefix.key
  have hSame : attempt.key = key := h.key attempt (List.mem_append_right _ List.mem_cons_self)
  have hCounted := touchTime_callsOf service w
    (fun a ha => hKey a (List.mem_append_left held ha))
  have hHeld := touchTime_callsOf service (worldAfter service w attempts)
    (fun a ha => hKey a (List.mem_append_right attempts ha))
  have hTimes := failureTimes_callsOf service w
    (fun a ha => hKey a (List.mem_append_left held ha))
  obtain ⟨rest, hChecked, hCalls⟩ := callsOf_concat service w attempts held hBlank
  have hOrdered := h.ordered
  have hSteady := h.steady
  rw [hCalls, ← List.append_assoc, ← List.append_assoc] at hOrdered hSteady
  rw [callsOf_append, ← List.append_assoc] at hProtector
  have hRefuses : Refuses (attempt.checkCall.decision
      ((worldAfter service w (attempts ++ held)).protectors service.process)) := by
    have hTouch := (attempt.checkCall_touchTime key).trans (if_pos hSame)
    have hLength : (failureTimes .account key (callsOf service w attempts)).length =
        Dimension.account.failureLimit config := by
      rw [hTimes, List.length_map, hCount]
      rfl
    have hLatest : (failureTimes .account key (callsOf service w attempts)).getLast? =
        some last.failedAt := by
      rw [hTimes, List.getLast?_map, hLast, Option.map_some]
    rw [hProtector]
    exact refused_after_limit hConfig h.fresh hOrdered hSteady hBegin hCounted hHeld hWindow hLength
      hLatest hChecked hTouch hDuring
  have hAttempt := h.wrong attempt (List.mem_append_right _ List.mem_cons_self)
  rw [← hDatabase] at hAttempt
  cases rejected_of_wrong service _ hAttempt.resolves hAttempt.wrong with
  | blank hEmpty hState hReached =>
    rw [hBlank] at hEmpty
    cases hEmpty
  | denied hNonempty hDenied hResult hRetry hState hReached =>
    exact ⟨hReached, _, hRetry ▸ hRefuses.2, hResult⟩
  | unread hNonempty hAllowed hState hReached =>
    rw [hRefuses.1] at hAllowed
    cases hAllowed
  | verified hNonempty hAllowed hState hReached =>
    rw [hRefuses.1] at hAllowed
    cases hAllowed

theorem WithinWindow.prefix {begin : Int}
    (h : WithinWindow service config w begin (earlier ++ later)) :
    WithinWindow service config w begin earlier := by
  intro call hCall
  apply h call
  rw [callsOf_append]
  exact List.mem_append_left _ hCall

/-- A verification beyond the limit comes only after the lockout. -/
theorem FreshRun.verified_le (hConfig : config.Accepted) {begin : Int}
    (h : FreshRun service config w user key prior attempts) (hBegin : 0 < begin)
    (hWindow : WithinWindow service config w begin attempts) :
    (verified service w attempts).length ≤ config.accountFailureLimit ∨
      ∃ earlier attempt later last, attempts = earlier ++ attempt :: later ∧
        (verified service w earlier).length = config.accountFailureLimit ∧
        (verified service w earlier).getLast? = some last ∧
        attempt.reached service (worldAfter service w earlier) = true ∧
        last.failedAt + seconds config.baseLockout ≤ attempt.checkedAt := by
  have hLimit := (failureLimit_bounds hConfig .account).1
  simp only [Dimension.failureLimit] at hLimit
  induction attempts using List.reverseRecOn with
  | nil => exact .inl (Nat.zero_le _)
  | append_singleton attempts attempt ih =>
    rcases ih h.prefix hWindow.prefix with hLe |
      ⟨earlier, overrun, later, last, hSplit, hCount, hLast, hReached, hOver⟩
    · rw [verified_append, verified, verified, List.append_nil, List.length_append]
      cases hReached : attempt.reached service (worldAfter service w attempts) with
      | false =>
        rw [if_neg Bool.false_ne_true, List.length_nil]
        exact .inl hLe
      | true =>
        rw [if_pos rfl, List.length_singleton]
        rcases Nat.lt_or_eq_of_le hLe with hLess | hEqual
        · exact .inl hLess
        · obtain ⟨last, hLast⟩ : ∃ last, (verified service w attempts).getLast? = some last := by
            cases hList : (verified service w attempts).getLast? with
            | some last => exact ⟨last, rfl⟩
            | none =>
              rw [List.getLast?_eq_none_iff.mp hList, List.length_nil] at hEqual
              omega
          have hOver : last.failedAt + seconds config.baseLockout ≤ attempt.checkedAt := by
            have hBlank : attempt.blank = false := by
              rw [← Bool.not_eq_true]
              intro hBlank
              rw [reached_of_blank service _ hBlank] at hReached
              cases hReached
            rcases Int.lt_or_le attempt.checkedAt (last.failedAt + seconds config.baseLockout) with
              hDuring | hOver
            · have hRun : FreshRun service config w user key prior (attempts ++ [] ++ [attempt]) := by
                rw [List.append_nil]
                exact h
              have hRefused := (hRun.throttled hConfig hBegin hWindow.prefix hEqual hLast hDuring
                hBlank).1
              rw [List.append_nil, hReached] at hRefused
              cases hRefused
            · exact hOver
          exact .inr ⟨attempts, attempt, [], last, rfl, hEqual, hLast, hReached, hOver⟩
    · refine .inr ⟨earlier, overrun, later ++ [attempt], last, ?_, hCount, hLast, hReached, hOver⟩
      rw [hSplit, List.append_assoc, List.cons_append]

/-- The limit is one for each login identifier as typed: login strings that match one
column of a row share it, and no run of wrong passwords under one key gets past it. -/
theorem identifier_limit (service : AuthService) (config : AuthAbuseConfig)
    (hConfig : config.Accepted) (user : User) :
    (∀ column first second, column = user.username ∨ column = user.email →
      '\x00' ∉ column.toList → nocaseEq column (trimCopy first) = true →
      nocaseEq column (trimCopy second) = true →
      normalizeLogin (trimCopy first) = normalizeLogin (trimCopy second)) ∧
    ∀ (w : World) (key : String) (prior : List ProtectorCall) (begin : Int)
      (attempts : List LoginAttempt), 0 < begin → WithinWindow service config w begin attempts →
      (FreshRun service config w user key prior attempts →
        (verified service w attempts).length ≤ config.accountFailureLimit ∨
        ∃ earlier attempt later last, attempts = earlier ++ attempt :: later ∧
          (verified service w earlier).length = config.accountFailureLimit ∧
          (verified service w earlier).getLast? = some last ∧
          attempt.reached service (worldAfter service w earlier) = true ∧
          last.failedAt + seconds config.baseLockout ≤ attempt.checkedAt) ∧
      ∀ held attempt last,
        FreshRun service config w user key prior (attempts ++ held ++ [attempt]) →
        (verified service w attempts).length = config.accountFailureLimit →
        (verified service w attempts).getLast? = some last →
        attempt.checkedAt < last.failedAt + seconds config.baseLockout → attempt.blank = false →
        attempt.reached service (worldAfter service w (attempts ++ held)) = false ∧
          ∃ retryAfterSeconds, 1 ≤ retryAfterSeconds ∧
            (attempt.run service (worldAfter service w (attempts ++ held))).result =
              .error (AuthService.loginThrottled retryAfterSeconds) := by
  constructor
  · intro column first second _ hNul hFirst hSecond
    exact normalizeLogin_eq hNul hFirst hSecond
  · intro w key prior begin attempts hBegin hWindow
    constructor
    · intro hRun
      exact hRun.verified_le hConfig hBegin hWindow
    · intro held attempt last hRun hCount hLast hDuring hBlank
      exact hRun.throttled hConfig hBegin hWindow hCount hLast hDuring hBlank

end runs

namespace Sample

/-- A login with a wrong password, at a time in tenths of a second. -/
def wrongLogin (login : String) (tenths : Int) : LoginAttempt where
  login := login
  password := "guess"
  clientIp := "192.0.2.1"
  inputs _ _ := ⟨none, "2026-01-01T00:00:00.000Z", 1000, seconds tenths, "", [], []⟩

def guarded (config : AuthAbuseConfig) : World := { world with protectors := fun _ => start config }

def alice : User := { user "alice" "$old-password" "user" with id := 1 }

end Sample

theorem identifier_limit_sample :
    normalizeLogin (trimCopy " ALICE") = normalizeLogin (trimCopy "alice") ∧
      let attempts := [Sample.wrongLogin "alice" 10, Sample.wrongLogin " ALICE" 11]
      let w := worldAfter (Sample.service 0) (Sample.guarded Sample.limits) attempts
      (verified (Sample.service 0) (Sample.guarded Sample.limits) attempts).length = 2 ∧
        ((Sample.wrongLogin "Alice " 20).reached (Sample.service 0) w = false ∧
          ∃ retryAfterSeconds, 1 ≤ retryAfterSeconds ∧
            ((Sample.wrongLogin "Alice " 20).run (Sample.service 0) w).result =
              .error (AuthService.loginThrottled retryAfterSeconds)) := by
  obtain ⟨hKeys, hRuns⟩ := identifier_limit (Sample.service 0) Sample.limits Sample.limits_accepted
    Sample.alice
  constructor
  · exact hKeys "alice" " ALICE" "alice" (.inl rfl) (by decide) (by decide +kernel)
      (by decide +kernel)
  · have hRun : FreshRun (Sample.service 0) Sample.limits (Sample.guarded Sample.limits) Sample.alice
        "alice" [] ([Sample.wrongLogin "alice" 10, Sample.wrongLogin " ALICE" 11] ++ [] ++
          [Sample.wrongLogin "Alice " 20]) := by
      refine ⟨rfl, rfl, ?_, by decide +kernel, by unfold Ordered; decide +kernel, ?_⟩
      · intro attempt hAttempt
        simp only [List.append_nil, List.cons_append, List.nil_append, List.mem_cons,
          List.not_mem_nil, or_false] at hAttempt
        rcases hAttempt with rfl | rfl | rfl <;>
          exact ⟨by decide +kernel, by decide +kernel⟩
      · constructor
        · apply noEviction_of_capacity
          intro d
          cases d <;> decide +kernel
        · exact withinClock_of_nonneg (by decide) (by decide +kernel) (by decide +kernel)
    have hWindow : WithinWindow (Sample.service 0) Sample.limits (Sample.guarded Sample.limits)
        (Sample.seconds 10) [Sample.wrongLogin "alice" 10, Sample.wrongLogin " ALICE" 11] := by
      have hEach : ∀ call ∈ callsOf (Sample.service 0) (Sample.guarded Sample.limits)
          [Sample.wrongLogin "alice" 10, Sample.wrongLogin " ALICE" 11], ∀ t ∈ call.time,
          Sample.seconds 10 ≤ t ∧ t ≤ Sample.seconds 10 + SecureCore.seconds 10 := by
        decide +kernel
      exact hEach
    obtain ⟨-, hHeld⟩ := hRuns _ _ _ _ _ (by decide) hWindow
    refine ⟨by decide +kernel, ?_⟩
    exact hHeld [] _ (Sample.wrongLogin " ALICE" 11) hRun (by decide +kernel) (by rfl)
      (by decide) (by decide)

/-- Alice has two identifiers, her name and her address, and so twice the attempts. -/
theorem identifier_limit_per_identifier :
    let attempts := [Sample.wrongLogin "alice" 10, Sample.wrongLogin "alice" 10,
      Sample.wrongLogin "alice@example.org" 10]
    (Sample.guarded Sample.limits).database.findUserByLogin "alice" = some Sample.alice ∧
      (Sample.guarded Sample.limits).database.findUserByLogin "alice@example.org" = some Sample.alice ∧
      normalizeLogin "alice" ≠ normalizeLogin "alice@example.org" ∧
      Sample.limits.accountFailureLimit = 2 ∧
      (∀ attempt ∈ attempts, attempt.checkedAt = Sample.seconds 10 ∧
        attempt.failedAt = Sample.seconds 10) ∧
      (verified (Sample.service 0) (Sample.guarded Sample.limits) attempts).length = 3 := by
  decide +kernel

end SecureCore
