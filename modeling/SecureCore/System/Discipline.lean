import SecureCore.Service.TransactionRules
import SecureCore.System.Operation

/-! # What a call may do at one access

`Obeys d op past act` says what a call of `op` does at an access when `past` are its
own earlier accesses, newest first. The database may have changed in between. -/

namespace SecureCore

set_option autoImplicit false

open Interleaving Relational

/-! ## What a call has observed -/

section observed

/-- Everything a call has logged, newest access first. -/
def observed (past : List (Act World Event)) : List Event := past.flatMap Act.events

@[simp] theorem observed_nil : observed [] = [] := rfl

@[simp] theorem observed_cons (act : Act World Event) (past : List (Act World Event)) :
    observed (act :: past) = act.events ++ observed past := rfl

def Event.verifiedHash : Event → Option String
  | .passwordChecked encodedHash true => some encodedHash
  | _ => none

def Event.selectedUser : Event → Option User
  | .userSelected row => row
  | _ => none

def Event.generatedFamily : Event → Option String
  | .familyGenerated familyId => some familyId
  | _ => none

def Event.insertedSession : Event → Option AuthSession
  | .sessionInserted row => some row
  | _ => none

/-- The hashes against which the call found a password right. -/
def verifiedHashes (past : List (Act World Event)) : List String :=
  (observed past).filterMap Event.verifiedHash

def selectedUsers (past : List (Act World Event)) : List User :=
  (observed past).filterMap Event.selectedUser

def generatedFamilies (past : List (Act World Event)) : List String :=
  (observed past).filterMap Event.generatedFamily

def insertedSessions (past : List (Act World Event)) : List AuthSession :=
  (observed past).filterMap Event.insertedSession

/-- The access read this row of auth_sessions. -/
structure SessionRead (act : Act World Event) (row : AuthSession) : Prop where
  events : act.events = [.sessionSelected (some row)]
  stored : row ∈ act.before.database.authSessions.rows

structure UserRead (act : Act World Event) (row : User) : Prop where
  events : act.events = [.userSelected (some row)]
  stored : row ∈ act.before.database.users.rows

structure PermissionRead (act : Act World Event) (userId : Int) (permission : String) : Prop where
  events : act.events = [.permissionChecked userId permission true]
  granted : act.before.database.hasPermission userId permission = true

end observed

/-! ## What a call knows when it writes -/

/-- `authenticate_access_token`: an unrevoked session with this token and, later, its
enabled user. -/
structure Authenticated (d : Deployment) (accessToken : String) (session : AuthSession) (user : User)
    (sessionAct userAct : Act World Event) : Prop where
  readSession : SessionRead sessionAct session
  token : session.accessTokenHash = TokenService.hashToken d.sodium accessToken
  unrevoked : session.revoked = false
  readUser : UserRead userAct user
  owner : user.id = session.userId
  enabled : user.enabled = true

/-- A login has read this enabled user and found the password right for its hash. -/
structure LoginReady (d : Deployment) (login password : String) (user : User)
    (past : List (Act World Event)) : Prop where
  read : ∃ act ∈ past, UserRead act user
  named : Database.matchesLogin (trimCopy login) user = true
  selected : selectedUsers past = [user]
  verified : verifiedHashes past = [user.passwordHash]
  right : PasswordHasher.matchesHash d.sodium password user.passwordHash = true
  enabled : user.enabled = true
  first : insertedSessions past = []

/-- A change of password has read this session and user, found the current password
right and the new one different. -/
structure ChangeReady (d : Deployment) (accessToken currentPassword newPassword : String)
    (session : AuthSession) (user : User) (past : List (Act World Event)) : Prop where
  readSession : ∃ act ∈ past, SessionRead act session
  token : session.accessTokenHash = TokenService.hashToken d.sodium accessToken
  unrevoked : session.revoked = false
  owner : session.userId = user.id
  readUser : ∃ act ∈ past, UserRead act user
  selected : selectedUsers past = [user]
  verified : verifiedHashes past = [user.passwordHash]
  right : PasswordHasher.matchesHash d.sodium currentPassword user.passwordHash = true
  different : PasswordHasher.matchesHash d.sodium newPassword user.passwordHash = false
  valid : AccountSecurityService.validNewPassword newPassword = true

structure AdminRequest where
  accessToken : String
  permission : String
  targetUserId : Int
  /-- The administrator is recorded in the role it assigns. -/
  action : User → AdminAction

/-- What an operation of AdminService asks for. -/
def Operation.adminRequest : Operation → Option AdminRequest
  | .setUserEnabled _ accessToken targetUserId enabled => some ⟨accessToken,
      if enabled then "users.enable" else "users.disable", targetUserId,
      fun _ => if enabled then .enable else .disable⟩
  | .assignRole _ accessToken targetUserId roleName => some ⟨accessToken, "roles.manage",
      targetUserId, fun administrator => .grant roleName (some administrator.id)⟩
  | .revokeRole _ accessToken targetUserId roleName => some ⟨accessToken, "roles.manage",
      targetUserId, fun _ => .remove roleName⟩
  | _ => none

/-- `authenticate_with_permission`: three earlier accesses of the call, in this order. -/
def Authorised (d : Deployment) (request : AdminRequest) (administrator : User)
    (past : List (Act World Event)) : Prop :=
  ∃ session sessionAct userAct permissionAct,
    [permissionAct, userAct, sessionAct].Sublist past ∧
    Authenticated d request.accessToken session administrator sessionAct userAct ∧
    PermissionRead permissionAct administrator.id request.permission

/-! ## The accesses -/

inductive Obeys (d : Deployment) :
    Operation → List (Act World Event) → Act World Event → Prop
  | reads {op : Operation} {past : List (Act World Event)} {act : Act World Event}
      (hSame : act.after.database = act.before.database) (hEvents : Event.writes act.events = []) :
      Obeys d op past act
  | register {username email password : String} {past : List (Act World Event)}
      {act : Act World Event} {input : CreateUser} (now : String)
      (hUnused : act.before.database.duplicatesUser input = false)
      (hAfter : act.after.database = act.before.database.insertUser input now)
      (hEvents : Event.writes act.events = []) (hRole : input.role = "user") :
      Obeys d (.registerUser username email password) past act
  | upgradeHash {process : Nat} {login password clientIp : String}
      {past : List (Act World Event)} {act : Act World Event} {user : User} (salt now : String)
      (hReady : LoginReady d login password user past)
      (hAfter : act.after.database =
        act.before.database.setPasswordHash user.id (d.sodium.pwhashStr salt password) now)
      (hEvents : Event.writes act.events =
        [.passwordHashUpdated user.id (d.sodium.pwhashStr salt password)]) :
      Obeys d (.login process login password clientIp) past act
  | openSession {process : Nat} {login password clientIp : String}
      {past : List (Act World Event)} {act : Act World Event} {user : User} {row : AuthSession}
      (hReady : LoginReady d login password user past)
      (hFamily : generatedFamilies past = [row.tokenFamilyId])
      (hNew : NewSession act.before.database user.id none row)
      (hAfter : act.after.database = act.before.database.insertSession row)
      (hEvents : Event.writes act.events = [.sessionInserted row]) :
      Obeys d (.login process login password clientIp) past act
  | refresh {process : Nat} {refreshToken : String} {past : List (Act World Event)}
      {act : Act World Event} {now : Int} {r : Except Exception LoginResult}
      (hOutcome : AuthService.RefreshOutcome act.before.database
        (TokenService.hashToken d.sodium refreshToken) now r act.after.database
        (Event.writes act.events)) :
      Obeys d (.refresh process refreshToken) past act
  | logout {process : Nat} {accessToken : String} {past : List (Act World Event)}
      {act : Act World Event} {session : AuthSession} (revokedAt : String)
      (hRead : ∃ read ∈ past, SessionRead read session)
      (hToken : session.accessTokenHash = TokenService.hashToken d.sodium accessToken)
      (hAfter : act.after.database =
        act.before.database.revokeSessions (fun s => s.id == session.id) (fun _ => revokedAt))
      (hEvents : Event.writes act.events = []) :
      Obeys d (.logout process accessToken) past act
  | logoutAll {process : Nat} {accessToken : String} {past : List (Act World Event)}
      {act sessionAct userAct : Act World Event} {session : AuthSession} {user : User}
      (revokedAt : String) (hPast : [userAct, sessionAct].Sublist past)
      (hAuthenticated : Authenticated d accessToken session user sessionAct userAct)
      (hAfter : act.after.database =
        act.before.database.revokeSessions (fun s => s.userId == user.id) (fun _ => revokedAt))
      (hEvents : Event.writes act.events = []) :
      Obeys d (.logoutAll process accessToken) past act
  | revokeSession {process : Nat} {accessToken : String} {sessionId : Int}
      {past : List (Act World Event)} {act sessionAct userAct : Act World Event}
      {session : AuthSession} {user : User}
      (revokedAt : String) (hPast : [userAct, sessionAct].Sublist past)
      (hAuthenticated : Authenticated d accessToken session user sessionAct userAct)
      (hAfter : act.after.database = act.before.database.revokeSessions
        (fun s => s.id == sessionId && s.userId == user.id) (fun _ => revokedAt))
      (hEvents : Event.writes act.events = []) :
      Obeys d (.revokeSession process accessToken sessionId) past act
  | changePassword {process : Nat} {accessToken currentPassword newPassword : String}
      {past : List (Act World Event)} {act : Act World Event} {session : AuthSession} {user : User}
      (salt now revokedAt : String)
      (hReady : ChangeReady d accessToken currentPassword newPassword session user past)
      (hAfter : act.after.database = act.before.database.changePassword user.id session.id
        (d.sodium.pwhashStr salt newPassword) now revokedAt)
      (hEvents : Event.writes act.events =
        [.passwordHashUpdated user.id (d.sodium.pwhashStr salt newPassword),
          .otherSessionsRevoked user.id session.id, .committed]) :
      Obeys d (.changePassword process accessToken currentPassword newPassword) past act
  | administer {op : Operation} {past : List (Act World Event)} {act : Act World Event}
      {request : AdminRequest} {administrator : User} (hRequest : op.adminRequest = some request)
      (hAuthorised : Authorised d request administrator past)
      (hChange : AdminChange act.before.database request.targetUserId (request.action administrator)
        act.after.database)
      (hEvents : Event.writes act.events = [.committed]) : Obeys d op past act
  | secureAdmin {command : SecureAdmin.Command} {identifier : String}
      {past : List (Act World Event)} {act : Act World Event} {action : AdminAction} {userId : Int}
      (hAction : command.action = some action)
      (hChange : AdminChange act.before.database userId action act.after.database)
      (hEvents : Event.writes act.events = [.committed]) :
      Obeys d (.secureAdmin command identifier) past act
  | expire {currentTime : Int} {past : List (Act World Event)} {act : Act World Event}
      (hAfter : act.after.database = act.before.database.deleteExpiredSessions currentTime)
      (hEvents : Event.writes act.events = []) : Obeys d (.deleteExpired currentTime) past act

end SecureCore
