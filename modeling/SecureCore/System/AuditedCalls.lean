import SecureCore.Http.Handlers
import SecureCore.System.CallOutcomes

/-! # What the records of a call are backed by

A handler records what its service has answered. The accesses of the call bear it out. -/

namespace SecureCore

set_option autoImplicit false

open Interleaving Relational

variable {d : Deployment} {past : List (Act World Event)}

/-- A login has found an enabled user and the password right, and has opened one session. -/
def LoggedIn (d : Deployment) (login password : String) (userId : Int) (past : List (Act World Event)) : Prop :=
  ∃ newer act older user row, past = newer ++ act :: older ∧ LoginReady d login password user older ∧
    user.id = userId ∧ NewSession act.before.database user.id none row ∧
    act.after.database = act.before.database.insertSession row ∧ insertedSessions past = [row]

/-- The current password has been found right, and the new one has taken its place. -/
def PasswordChanged (d : Deployment) (accessToken currentPassword newPassword : String) (userId : Int)
    (past : List (Act World Event)) : Prop :=
  ∃ session user, user.id = userId ∧
    Changed past (ChangeReady d accessToken currentPassword newPassword session user)
      (fun db db' => ∃ salt now revokedAt, db' = db.changePassword user.id session.id
        (d.sodium.pwhashStr salt newPassword) now revokedAt)

/-- The accesses of a call of an operation bear a record out. -/
inductive Backed (d : Deployment) (past : List (Act World Event)) : Operation → AuditedCall → Prop
  | registered {username email password : String} {user : User} (h : Registered username email user past) :
      Backed d past (.registerUser username email password) (.register (.ok (user.id, user.username)))
  | notRegistered {username email password : String} {refusal : Refusal} (h : Untouched past) :
      Backed d past (.registerUser username email password) (.register (.error refusal))
  | loggedIn {process : Nat} {login password clientIp : String} {userId : Int}
      (h : LoggedIn d login password userId past) :
      Backed d past (.login process login password clientIp) (.login (.ok userId))
  | notLoggedIn {process : Nat} {login password clientIp : String} {code : AuthErrorCode}
      {retryAfterSeconds : Nat}
      (hSessions : ∀ act ∈ past, act.after.database.authSessions = act.before.database.authSessions)
      (h : code ≠ .tokenCreationFailed → Untouched past) :
      Backed d past (.login process login password clientIp) (.login (.error (code, retryAfterSeconds)))
  | refreshed {process : Nat} {refreshToken : String} {answer : LoginResult}
      (h : RefreshSettled d refreshToken (.ok answer) past) :
      Backed d past (.refresh process refreshToken) (.refresh (.ok answer.user.id))
  | refreshRefused {process : Nat} {refreshToken message : String} {code : AuthErrorCode}
      {retryAfterSeconds : Nat}
      (h : RefreshSettled d refreshToken (.error (.authError code message retryAfterSeconds)) past) :
      Backed d past (.refresh process refreshToken) (.refresh (.error code))
  | notRefreshed {process : Nat} {refreshToken : String} {code : AuthErrorCode}
      (hCode : code ≠ .refreshTokenReused) (h : Untouched past) :
      Backed d past (.refresh process refreshToken) (.refresh (.error code))
  | loggedOut {process : Nat} {accessToken : String} {userId : Option Int} {revoked : Bool}
      (h : LoggedOut d accessToken userId revoked past) :
      Backed d past (.logout process accessToken) (.logout userId revoked)
  | loggedOutAll {process : Nat} {accessToken : String} {userId : Int} {count : Nat}
      (h : LoggedOutAll d accessToken userId count past) :
      Backed d past (.logoutAll process accessToken) (.logoutAll (.ok (userId, count)))
  | notLoggedOutAll {process : Nat} {accessToken : String} {refusal : Refusal} (h : Untouched past) :
      Backed d past (.logoutAll process accessToken) (.logoutAll (.error refusal))
  | sessionRevoked {process : Nat} {accessToken : String} {sessionId userId : Int} {revoked : Bool}
      (h : SessionRevoked d accessToken sessionId userId revoked past) :
      Backed d past (.revokeSession process accessToken sessionId)
        (.revokeSession sessionId (.ok (userId, revoked)))
  | sessionNotRevoked {process : Nat} {accessToken : String} {sessionId : Int} {refusal : Refusal}
      (h : Untouched past) :
      Backed d past (.revokeSession process accessToken sessionId) (.revokeSession sessionId (.error refusal))
  | passwordChanged {process : Nat} {accessToken currentPassword newPassword : String} {userId : Int}
      {revokedSessions : Int} (h : PasswordChanged d accessToken currentPassword newPassword userId past) :
      Backed d past (.changePassword process accessToken currentPassword newPassword)
        (.changePassword (.ok (userId, revokedSessions)))
  | passwordNotChanged {process : Nat} {accessToken currentPassword newPassword : String} {refusal : Refusal}
      (h : Untouched past) :
      Backed d past (.changePassword process accessToken currentPassword newPassword)
        (.changePassword (.error refusal))
  | userEnabled {process : Nat} {accessToken : String} {enabled : Bool} {request : AdminRequest}
      {administratorId : Int} {user : User} {revokedSessions : Int}
      (hRequest : (Operation.setUserEnabled process accessToken user.id enabled).adminRequest = some request)
      (h : Administered d request administratorId past) :
      Backed d past (.setUserEnabled process accessToken user.id enabled)
        (.setUserEnabled user.id enabled (.ok (administratorId, user, revokedSessions)))
  | userNotEnabled {process : Nat} {accessToken : String} {userId : Int} {enabled : Bool} {refusal : Refusal}
      (h : Untouched past) :
      Backed d past (.setUserEnabled process accessToken userId enabled)
        (.setUserEnabled userId enabled (.error refusal))
  | roleAssigned {process : Nat} {accessToken roleName : String} {userId administratorId : Int}
      {changed : Bool} {request : AdminRequest}
      (hRequest : (Operation.assignRole process accessToken userId roleName).adminRequest = some request)
      (h : Administered d request administratorId past) :
      Backed d past (.assignRole process accessToken userId roleName)
        (.assignRole userId roleName (.ok (administratorId, changed)))
  | roleNotAssigned {process : Nat} {accessToken roleName : String} {userId : Int} {refusal : Refusal}
      (h : Untouched past) :
      Backed d past (.assignRole process accessToken userId roleName) (.assignRole userId roleName (.error refusal))
  | roleRevoked {process : Nat} {accessToken roleName : String} {userId administratorId : Int}
      {changed : Bool} {request : AdminRequest}
      (hRequest : (Operation.revokeRole process accessToken userId roleName).adminRequest = some request)
      (h : Administered d request administratorId past) :
      Backed d past (.revokeRole process accessToken userId roleName)
        (.revokeRole userId roleName (.ok (administratorId, changed)))
  | roleNotRevoked {process : Nat} {accessToken roleName : String} {userId : Int} {refusal : Refusal}
      (h : Untouched past) :
      Backed d past (.revokeRole process accessToken userId roleName) (.revokeRole userId roleName (.error refusal))
  | eventsListed {process : Nat} {accessToken : String} {request : AdminRequest} {administrator : User}
      {returned offset limit : Int} (hToken : request.accessToken = accessToken)
      (hPermission : request.permission = "audit.read") (hAuthorised : Authorised d request administrator past)
      (h : Untouched past) :
      Backed d past (.authenticate process accessToken) (.listEvents administrator.id returned offset limit)

/-! ## What obedience says of the writes of a call -/

section obedient

variable {process : Nat} {login password clientIp accessToken currentPassword newPassword : String}

theorem mem_written {event : Event} : event ∈ written past ↔ ∃ act ∈ past, event ∈ Event.writes act.events := by
  induction past with
  | nil => simp [written]
  | cons act past ih =>
    rw [written_cons, List.mem_append, ih]
    simp

theorem mem_insertedSessions_iff {row : AuthSession} :
    row ∈ insertedSessions past ↔ ∃ act ∈ past, .sessionInserted row ∈ Event.writes act.events := by
  rw [insertedSessions_eq, List.mem_filterMap, ← mem_written]
  constructor
  · rintro ⟨event, hEvent, hRow⟩
    cases event <;> cases hRow
    exact hEvent
  · exact fun h => ⟨_, h, rfl⟩

theorem obedient_of_mem {Φ : List (Act World Event) → Act World Event → Prop} (h : Obedient Φ past)
    {act : Act World Event} (hAct : act ∈ past) : ∃ newer older, past = newer ++ act :: older ∧ Φ older act := by
  obtain ⟨newer, older, rfl⟩ := List.append_of_mem hAct
  exact ⟨newer, older, rfl, h.at_act⟩

theorem loggedIn_of_obedient (h : Obedient (Obeys d (.login process login password clientIp)) past)
    {row : AuthSession} (hRow : insertedSessions past = [row]) :
    LoggedIn d login password row.userId past := by
  obtain ⟨act, hAct, hWritten⟩ := mem_insertedSessions_iff.mp (hRow ▸ List.mem_singleton_self row)
  obtain ⟨newer, older, rfl, hObeys⟩ := obedient_of_mem h hAct
  cases hObeys with
  | reads hSame hEvents =>
    rw [hEvents] at hWritten
    cases hWritten
  | upgradeHash salt now hReady hAfter hEvents =>
    rw [hEvents] at hWritten
    cases List.mem_singleton.mp hWritten
  | @openSession _ _ _ _ _ _ user row' hReady hFamily hNew hAfter hEvents =>
    rw [hEvents] at hWritten
    cases List.mem_singleton.mp hWritten
    exact ⟨newer, act, older, user, row, rfl, hReady, hNew.userId.symm, hNew, hAfter, hRow⟩
  | administer hRequest hAuthorised hChange hEvents => cases hRequest

theorem untouched_of_login (h : Obedient (Obeys d (.login process login password clientIp)) past)
    (hWritten : written past = []) : Untouched past := by
  intro act hAct
  have hNone : Event.writes act.events = [] := by
    rw [List.eq_nil_iff_forall_not_mem]
    intro event hEvent
    have hMem := mem_written.mpr ⟨act, hAct, hEvent⟩
    rw [hWritten] at hMem
    cases hMem
  obtain ⟨-, older, -, hObeys⟩ := obedient_of_mem h hAct
  cases hObeys with
  | reads hSame hEvents => exact hSame
  | upgradeHash salt now hReady hAfter hEvents =>
    rw [hNone] at hEvents
    cases hEvents
  | openSession hReady hFamily hNew hAfter hEvents =>
    rw [hNone] at hEvents
    cases hEvents
  | administer hRequest hAuthorised hChange hEvents => cases hRequest

theorem authSessions_of_login (h : Obedient (Obeys d (.login process login password clientIp)) past)
    (hNone : insertedSessions past = []) :
    ∀ act ∈ past, act.after.database.authSessions = act.before.database.authSessions := by
  intro act hAct
  obtain ⟨-, older, -, hObeys⟩ := obedient_of_mem h hAct
  cases hObeys with
  | reads hSame hEvents => rw [hSame]
  | upgradeHash salt now hReady hAfter hEvents =>
    rw [hAfter]
    rfl
  | @openSession _ _ _ _ _ _ user row hReady hFamily hNew hAfter hEvents =>
    have hMem : row ∈ insertedSessions past :=
      mem_insertedSessions_iff.mpr ⟨act, hAct, by rw [hEvents]; exact List.mem_singleton_self _⟩
    rw [hNone] at hMem
    cases hMem
  | administer hRequest hAuthorised hChange hEvents => cases hRequest

theorem passwordChanged_of_obedient {userId : Int}
    (h : Obedient (Obeys d (.changePassword process accessToken currentPassword newPassword)) past)
    (hWritten : PasswordWritten userId past) :
    PasswordChanged d accessToken currentPassword newPassword userId past := by
  obtain ⟨act, older, sessionId, passwordHash, rfl, hOlder, hEvents⟩ := hWritten
  cases h.1 with
  | reads hSame hSilent =>
    rw [hSilent] at hEvents
    cases hEvents
  | @changePassword _ _ _ _ _ _ session user salt now revokedAt hReady hAfter hOwn =>
    rw [hOwn] at hEvents
    have hUser : user.id = userId := by
      injection hEvents with hFirst
      injection hFirst
    exact ⟨session, user, hUser, Changed.last hOlder hReady ⟨salt, now, revokedAt, hAfter⟩⟩
  | administer hRequest hAuthorised hChange hOwn => cases hRequest

end obedient

/-! ## The calls of the services -/

section reports

variable {α ρ : Type} {op : Operation} {x : Call α} {catches : Exception → Option ρ}
  {onSuccess : α → AuditedCall} {onFailure : ρ → AuditedCall}

/-- Whatever the call answers, its accesses bear out what is recorded of it. -/
def Reports (d : Deployment) (op : Operation) (x : Call α) (catches : Exception → Option ρ)
    (onSuccess : α → AuditedCall) (onFailure : ρ → AuditedCall) : Prop :=
  Fallible.Leads (Obeys d op) x [] (fun answer past => Backed d past op (onSuccess answer))
    (fun e past => ∀ refusal, catches e = some refusal → Backed d past op (onFailure refusal))

theorem reports_of_tells {K : α → List (Act World Event) → Prop} {Y Z : Exception → List (Act World Event) → Prop}
    {L : α → List (Act World Event) → Prop} (hObeys : Fallible.Leads (Obeys d op) x [] L Y) (hTells : Tells x [] K Z)
    (hCatches : ∀ e refusal, catches e = some refusal → e.isFault = false)
    (hSuccess : ∀ answer past, Obedient (Obeys d op) past → K answer past → Backed d past op (onSuccess answer))
    (hFailure : ∀ e refusal past, catches e = some refusal → Obedient (Obeys d op) past → Z e past →
      Backed d past op (onFailure refusal)) : Reports d op x catches onSuccess onFailure := by
  refine Fallible.Leads.mono (Fallible.Leads.and (Fallible.Leads.obedient hObeys trivial) hTells)
    (fun _ _ h => h.1) ?_ ?_
  · rintro answer past' ⟨⟨-, hObedient⟩, hK⟩
    exact hSuccess answer past' hObedient hK
  · rintro e past' ⟨⟨-, hObedient⟩, hZ⟩ refusal hCaught
    exact hFailure e refusal past' hCaught hObedient (hZ (hCatches e refusal hCaught))

theorem authErrorOf_eq_some {e : Exception} {error : AuthErrorCode × Nat} (h : authErrorOf e = some error) :
    ∃ message, e = .authError error.1 message error.2 := by
  cases e <;> cases h
  exact ⟨_, rfl⟩

theorem isFault_of_authErrorOf (e : Exception) (error : AuthErrorCode × Nat) (h : authErrorOf e = some error) :
    e.isFault = false := by
  obtain ⟨message, rfl⟩ := authErrorOf_eq_some h
  rfl

theorem isFault_of_registrationErrorOf (e : Exception) (code : RegistrationErrorCode)
    (h : registrationErrorOf e = some code) : e.isFault = false := by
  cases e <;> cases h
  rfl

theorem isFault_of_accountRefusal (e : Exception) (refusal : Refusal) (h : accountRefusal e = some refusal) :
    e.isFault = false := by
  cases e <;> cases h <;> rfl

theorem isFault_of_adminRefusal (e : Exception) (refusal : Refusal) (h : adminRefusal e = some refusal) :
    e.isFault = false := by
  cases e <;> cases h <;> rfl

end reports

section services

variable {service : AuthService} {process : Nat} {accessToken : String}

theorem reports_registerUser {username email password : String} :
    Reports d (.registerUser username email password)
      (UserService.registerUser service.sodium username email password) registrationErrorOf
      (fun user => .register (.ok (user.id, user.username))) (fun code => .register (.error (.registration code))) :=
  reports_of_tells obeys_registerUser (tells_registerUser untouched_nil) isFault_of_registrationErrorOf
    (fun _ _ _ h => .registered h) (fun _ _ _ _ _ h => .notRegistered h)

theorem reports_login (hService : service.sodium = d.sodium) {login password clientIp : String} :
    Reports d (.login process login password clientIp) (service.login login password clientIp) authErrorOf
      (fun result => .login (.ok result.user.id)) (fun error => .login (.error error)) := by
  refine reports_of_tells (obeys_login hService) tells_login isFault_of_authErrorOf ?_ ?_
  · rintro answer past' hObedient ⟨row, hRow, hOwner, -⟩
    rw [← hOwner]
    exact .loggedIn (loggedIn_of_obedient hObedient hRow)
  · rintro e ⟨code, retryAfterSeconds⟩ past' hCaught hObedient ⟨hNone, hWritten⟩
    obtain ⟨message, rfl⟩ := authErrorOf_eq_some hCaught
    refine .notLoggedIn (authSessions_of_login hObedient hNone) (fun hCode => ?_)
    refine untouched_of_login hObedient (hWritten (fun hSame => hCode ?_))
    injection hSame

theorem reports_refresh (hService : service.sodium = d.sodium) {refreshToken : String} :
    Reports d (.refresh process refreshToken) (service.refresh refreshToken) authErrorOf
      (fun result => .refresh (.ok result.user.id)) (fun error => .refresh (.error error.1)) := by
  refine reports_of_tells (obeys_refresh hService) (tells_refresh hService) isFault_of_authErrorOf
    (fun _ _ _ h => .refreshed h) ?_
  rintro e ⟨code, retryAfterSeconds⟩ past' hCaught - hThrown
  obtain ⟨message, rfl⟩ := authErrorOf_eq_some hCaught
  rcases hThrown with hSettled | ⟨hCode, hUntouched⟩
  · exact .refreshRefused hSettled
  · refine .notRefreshed (fun hSame => ?_) hUntouched
    exact hCode message retryAfterSeconds (by rw [hSame])

theorem reports_logout (hService : service.sodium = d.sodium) :
    Reports d (.logout process accessToken) (service.logoutAccessToken accessToken) (fun _ => (none : Option Empty))
      (fun result => .logout result.userId result.revoked) Empty.elim :=
  reports_of_tells (obeys_logout hService) (tells_logoutAccessToken hService) (fun _ _ h => by cases h)
    (fun _ _ _ h => .loggedOut h) (fun _ refusal => refusal.elim)

theorem reports_logoutAll (hService : service.sodium = d.sodium) :
    Reports d (.logoutAll process accessToken) (service.logoutAllAccessToken accessToken) authErrorOf
      (fun result => .logoutAll (.ok (result.userId, result.revokedSessions)))
      (fun error => .logoutAll (.error (.auth error.1))) :=
  reports_of_tells (obeys_logoutAll hService) (tells_logoutAllAccessToken hService) isFault_of_authErrorOf
    (fun _ _ _ h => .loggedOutAll h) (fun _ _ _ _ _ h => .notLoggedOutAll h)

theorem reports_revokeSession (hService : service.sodium = d.sodium) {sessionId : Int} :
    Reports d (.revokeSession process accessToken sessionId)
      (AccountSecurityService.revokeSession service accessToken sessionId) accountRefusal
      (fun result => .revokeSession sessionId (.ok (result.userId, result.revoked)))
      (fun refusal => .revokeSession sessionId (.error refusal)) :=
  reports_of_tells (obeys_revokeSession hService) (tells_revokeSession hService) isFault_of_accountRefusal
    (fun _ _ _ h => .sessionRevoked h) (fun _ _ _ _ _ h => .sessionNotRevoked h)

theorem reports_changePassword (hService : service.sodium = d.sodium) {currentPassword newPassword : String} :
    Reports d (.changePassword process accessToken currentPassword newPassword)
      (AccountSecurityService.changePassword service accessToken currentPassword newPassword) accountRefusal
      (fun result => .changePassword (.ok (result.userId, result.revokedSessions)))
      (fun refusal => .changePassword (.error refusal)) :=
  reports_of_tells (obeys_changePassword hService) (tells_changePassword hService) isFault_of_accountRefusal
    (fun _ _ hObedient h => .passwordChanged (passwordChanged_of_obedient hObedient h))
    (fun _ _ _ _ _ h => .passwordNotChanged h)

theorem reports_setUserEnabled (hService : service.sodium = d.sodium) {userId : Int} {enabled : Bool} :
    Reports d (.setUserEnabled process accessToken userId enabled)
      (AdminService.setUserEnabled service accessToken userId enabled) adminRefusal
      (fun result => .setUserEnabled userId enabled
        (.ok (result.administratorId, result.user, result.revokedSessions)))
      (fun refusal => .setUserEnabled userId enabled (.error refusal)) := by
  refine reports_of_tells (obeys_setUserEnabled hService) (tells_setUserEnabled hService
    (rfl : (Operation.setUserEnabled process accessToken userId enabled).adminRequest = some _))
    isFault_of_adminRefusal ?_ (fun _ _ _ _ _ h => .userNotEnabled h)
  rintro result past' - ⟨hAdministered, hUser⟩
  rw [← hUser]
  subst hUser
  exact .userEnabled rfl hAdministered

theorem reports_assignRole (hService : service.sodium = d.sodium) {userId : Int} {roleName : String} :
    Reports d (.assignRole process accessToken userId roleName)
      (AdminService.assignRole service accessToken userId roleName) adminRefusal
      (fun result => .assignRole userId roleName (.ok (result.administratorId, result.changed)))
      (fun refusal => .assignRole userId roleName (.error refusal)) :=
  reports_of_tells (obeys_assignRole hService) (tells_assignRole hService
    (rfl : (Operation.assignRole process accessToken userId roleName).adminRequest = some _))
    isFault_of_adminRefusal (fun _ _ _ h => .roleAssigned rfl h) (fun _ _ _ _ _ h => .roleNotAssigned h)

theorem reports_revokeRole (hService : service.sodium = d.sodium) {userId : Int} {roleName : String} :
    Reports d (.revokeRole process accessToken userId roleName)
      (AdminService.revokeRole service accessToken userId roleName) adminRefusal
      (fun result => .revokeRole userId roleName (.ok (result.administratorId, result.changed)))
      (fun refusal => .revokeRole userId roleName (.error refusal)) :=
  reports_of_tells (obeys_revokeRole hService) (tells_revokeRole hService
    (rfl : (Operation.revokeRole process accessToken userId roleName).adminRequest = some _))
    isFault_of_adminRefusal (fun _ _ _ h => .roleRevoked rfl h) (fun _ _ _ _ _ h => .roleNotRevoked h)

end services

end SecureCore
