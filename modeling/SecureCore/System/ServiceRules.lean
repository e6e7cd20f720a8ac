import SecureCore.System.CallRules

/-! # What the functions of the services do

One rule for each function that several operations call, for disciplines that do not
mind exceptions. -/

namespace SecureCore

set_option autoImplicit false

open Interleaving Relational Transaction

variable {d : Deployment} {Φ : List (Act World Event) → Act World Event → Prop}
variable {past : List (Act World Event)} {α : Type}

section repositories

variable {tokenHash : String} {sessionId userId : Int}

theorem leads_findByAccessTokenHash {K : Option AuthSession → List (Act World Event) → Prop}
    (hΦ : Admissible Φ (fun _ _ => True)) (hNone : ∀ past', K none past')
    (hSome : ∀ session act past', Extends past past' → SessionRead act session →
      session.accessTokenHash = tokenHash → K (some session) (act :: past')) :
    Fallible.Leads Φ (AuthSessionRepository.findByAccessTokenHash tokenHash) past K
      (fun _ _ => True) := by
  unfold AuthSessionRepository.findByAccessTokenHash
  split
  · exact Fallible.leads_pure (hNone _)
  · refine leads_select hΦ (fun _ => rfl) (fun _ => rfl) ?_
    intro act past' hPast hEvents
    cases hFind : act.before.database.findSessionByAccessTokenHash tokenHash with
    | none => exact hNone _
    | some session =>
      rw [hFind] at hEvents
      obtain ⟨hMem, hHash⟩ := Table.mem_of_first hFind
      exact hSome session act past' hPast ⟨hEvents, hMem⟩ (by simpa using hHash)

theorem leads_findById {K : Option User → List (Act World Event) → Prop}
    (hΦ : Admissible Φ (fun _ _ => True)) (hNone : ∀ past', K none past')
    (hSome : ∀ user act past', Extends past past' → UserRead act user → user.id = userId →
      K (some user) (act :: past')) :
    Fallible.Leads Φ (UserRepository.findById userId) past K (fun _ _ => True) := by
  unfold UserRepository.findById
  split
  · exact Fallible.leads_pure (hNone _)
  · refine leads_select hΦ (fun _ => rfl) (fun _ => rfl) ?_
    intro act past' hPast hEvents
    cases hFind : act.before.database.findUserById userId with
    | none => exact hNone _
    | some user =>
      rw [hFind] at hEvents
      obtain ⟨hMem, hId⟩ := Database.findUserById_eq_some hFind
      exact hSome user act past' hPast ⟨hEvents, hMem⟩ hId

theorem leads_findByLogin {login : String} {K : Option User → List (Act World Event) → Prop}
    (hΦ : Admissible Φ (fun _ _ => True))
    (hNone : ∀ act past', Extends past past' → act.events = [.userSelected none] →
      K none (act :: past'))
    (hSome : ∀ user act past', Extends past past' → UserRead act user →
      Database.matchesLogin login user = true → K (some user) (act :: past')) :
    Fallible.Leads Φ (UserRepository.findByLogin login) past K (fun _ _ => True) := by
  refine leads_select hΦ (fun _ => rfl) (fun _ => rfl) ?_
  intro act past' hPast hEvents
  cases hFind : act.before.database.findUserByLogin login with
  | none =>
    rw [hFind] at hEvents
    exact hNone act past' hPast hEvents
  | some user =>
    rw [hFind] at hEvents
    obtain ⟨hMem, hLogin⟩ := Table.mem_of_first hFind
    exact hSome user act past' hPast ⟨hEvents, hMem⟩ hLogin

theorem leads_findByIdForUser {K : Option AuthSession → List (Act World Event) → Prop}
    (hΦ : Admissible Φ (fun _ _ => True)) (hNone : ∀ past', K none past')
    (hSome : ∀ session act past', past <:+ past' → SessionRead act session →
      session.id = sessionId → session.userId = userId → K (some session) (act :: past')) :
    Fallible.Leads Φ (AuthSessionRepository.findByIdForUser sessionId userId) past K
      (fun _ _ => True) := by
  unfold AuthSessionRepository.findByIdForUser
  split
  · exact Fallible.leads_pure (hNone _)
  · refine leads_select hΦ (fun _ => rfl) (fun _ => rfl) ?_
    intro act past' hPast hEvents
    cases hFind : act.before.database.authSessions.first
        (fun s => s.id == sessionId && s.userId == userId) with
    | none => exact hNone _
    | some session =>
      rw [hFind] at hEvents
      obtain ⟨hMem, hCondition⟩ := Table.mem_of_first hFind
      rw [Bool.and_eq_true, beq_iff_eq, beq_iff_eq] at hCondition
      exact hSome session act past' hPast.suffix ⟨hEvents, hMem⟩ hCondition.1 hCondition.2

theorem leads_hasPermission {permission : String} {K : Bool → List (Act World Event) → Prop}
    (hΦ : Admissible Φ (fun _ _ => True)) (hDenied : ∀ past', K false past')
    (hGranted : ∀ act past', Extends past past' → PermissionRead act userId permission →
      K true (act :: past')) :
    Fallible.Leads Φ (RbacRepository.hasPermission userId permission) past K (fun _ _ => True) := by
  unfold RbacRepository.hasPermission
  split
  · exact Fallible.leads_pure (hDenied _)
  · refine leads_select hΦ (fun _ => rfl) (fun _ => rfl) ?_
    intro act past' hPast hEvents
    cases hHas : act.before.database.hasPermission userId permission with
    | false => exact hDenied _
    | true =>
      rw [hHas] at hEvents
      exact hGranted act past' hPast ⟨hEvents, hHas⟩

/-- One of the UPDATEs that revoke sessions, on a connection of its own. -/
theorem leads_revokeLocked {operation : String} {condition : AuthSession → Bool}
    {revokedAt : String → Option String → String} {K : Nat → List (Act World Event) → Prop}
    (hΦ : Admissible Φ (fun _ _ => True))
    (h : ∀ now act past', past <:+ past' → act.after.database =
      act.before.database.revokeSessions condition (revokedAt now) →
      Event.writes act.events = [] → Φ past' act) (hK : ∀ count past', K count past') :
    Fallible.Leads Φ (Database.withLockedHandle
      (AuthSessionRepository.revokeLocked operation condition revokedAt [])) past K
      (fun _ _ => True) := by
  refine leads_statement hΦ (fun _ => rfl) ?_
  intro env act past' hPast hEvents hAfter
  refine ⟨h env.strftimeNow act past' hPast.suffix hAfter ?_, hK _ _⟩
  rw [hEvents]
  rfl

theorem leads_rolesForUser {K : List Role → List (Act World Event) → Prop}
    {Z : Exception → List (Act World Event) → Prop} (hΦ : Admissible Φ Z)
    (hK : ∀ roles past', K roles past') :
    Fallible.Leads Φ (RbacRepository.rolesForUser userId) past K Z := by
  have hSelect : ∀ {β : Type} (error : String) (query : Database → β) (past₀ : List (Act World Event))
      (L : β → List (Act World Event) → Prop), (∀ b past', L b past') →
      Fallible.Leads Φ (Database.autocommit (Sql.select (.rbacRepositoryError error) query
        (fun _ => []))) past₀ L Z := by
    intro β error query past₀ L hL
    refine leads_autocommit hΦ (fun _ => rfl) (fun env act hEvents hAfter => ?_)
    exact ⟨hΦ.reads _ _ hAfter (by rw [hEvents]; rfl), hL _ _⟩
  have hPermissions : ∀ (rows : List RoleRow) (past₀ : List (Act World Event))
      (L : List Role → List (Act World Event) → Prop), (∀ roles past', L roles past') →
      Fallible.Leads Φ (Database.autocommit (RbacRepository.withPermissionsLocked rows)) past₀ L Z := by
    intro rows
    induction rows with
    | nil =>
      intro past₀ L hL
      exact Fallible.leads_pure (hL _ _)
    | cons row rows ih =>
      intro past₀ L hL
      refine leads_autocommit_bind (hSelect _ _ _ _ (fun permissions past₁ => ?_))
      exact leads_autocommit_bind (ih _ _ (fun roles past₂ => Fallible.leads_pure (hL _ _)))
  unfold RbacRepository.rolesForUser
  split
  · exact Fallible.leads_pure (hK _ _)
  · refine leads_withLockedHandle hΦ (fun past' _ => ?_)
    exact leads_autocommit_bind (hSelect _ _ _ _ (fun rows past₁ => hPermissions rows _ _ hK))

end repositories

section authentication

variable {service : AuthService} {accessToken : String}

theorem leads_verify {sodium : Sodium} {password encodedHash : String}
    {K : Bool → List (Act World Event) → Prop} (hΦ : Admissible Φ (fun _ _ => True))
    (h : ∀ act, act.events =
        [.passwordChecked encodedHash (PasswordHasher.matchesHash sodium password encodedHash)] →
      K (PasswordHasher.matchesHash sodium password encodedHash) (act :: past)) :
    Fallible.Leads Φ (PasswordHasher.verify sodium password encodedHash) past K (fun _ _ => True) := by
  refine leads_consult hΦ (fun _ => rfl) ?_
  intro env act hEvents _
  exact h act hEvents

theorem leads_hash {sodium : Sodium} {password : String} {K : String → List (Act World Event) → Prop}
    {Z : Exception → List (Act World Event) → Prop} (hΦ : Admissible Φ Z)
    (h : ∀ salt past', Extends past past' → password.isEmpty = false →
      K (sodium.pwhashStr salt password) past') :
    Fallible.Leads Φ (PasswordHasher.hash sodium password) past K Z := by
  unfold PasswordHasher.hash
  split
  · exact Fallible.leads_throw (hΦ.fault _ _ rfl)
  · rename_i hPassword
    refine leads_consult hΦ (fun env => ?_) ?_
    · cases env.failure <;> rfl
    · intro env act hEvents hSame
      cases hFailure : env.failure with
      | some code => exact hΦ.fault _ _ rfl
      | none =>
        rw [hFailure] at hEvents
        have hExtends := (Extends.refl past).cons hEvents (by rw [hSame])
        exact h env.random _ hExtends (by simpa using hPassword)

theorem leads_authenticateAccessToken (hService : service.sodium = d.sodium)
    {K : User → List (Act World Event) → Prop} (hΦ : Admissible Φ (fun _ _ => True))
    (h : ∀ session user sessionAct userAct past', [userAct, sessionAct].Sublist past' →
      Authenticated d accessToken session user sessionAct userAct →
      observed past' = [.userSelected (some user), .sessionSelected (some session)] ++ observed past →
      K user past') :
    Fallible.Leads Φ (service.authenticateAccessToken accessToken) past K (fun _ _ => True) := by
  refine Fallible.leads_bind (Fallible.leads_throwIf (fun _ => trivial) (fun _ => ?_))
  refine Fallible.leads_bind (leads_findByAccessTokenHash hΦ (fun _ => Fallible.leads_throw trivial) ?_)
  intro session sessionAct past₁ hPast₁ hSession hToken
  refine Fallible.leads_bind (Fallible.leads_throwIf (fun _ => trivial) (fun hUnrevoked => ?_))
  refine Fallible.leads_bind (leads_currentUnixTime hΦ ?_)
  intro now past₂ hPast₂
  refine Fallible.leads_bind (Fallible.leads_throwIf (fun _ => trivial) (fun _ => ?_))
  refine Fallible.leads_bind (leads_findById hΦ (fun _ => Fallible.leads_throw trivial) ?_)
  intro user userAct past₃ hPast₃ hUser hOwner
  refine Fallible.leads_bind (Fallible.leads_throwIf (fun _ => trivial) (fun hEnabled => ?_))
  have hSublist : [sessionAct].Sublist past₃ :=
    List.singleton_sublist.mpr (hPast₃.mem (hPast₂.mem List.mem_cons_self))
  refine Fallible.leads_pure (h session user sessionAct userAct _ (hSublist.cons_cons userAct) ?_ ?_)
  · rw [hService] at hToken
    exact ⟨hSession, hToken, hUnrevoked, hUser, hOwner, by simpa using hEnabled⟩
  · rw [observed_cons, hPast₃.observed, hPast₂.observed, observed_cons, hPast₁.observed,
      hUser.events, hSession.events]
    rfl

theorem leads_authenticateCurrentSession (hService : service.sodium = d.sodium)
    {K : CurrentAuthentication → List (Act World Event) → Prop} (hΦ : Admissible Φ (fun _ _ => True))
    (h : ∀ current first sessionAct userAct readAct past', [userAct, sessionAct].Sublist past' →
      Authenticated d accessToken first current.user sessionAct userAct →
      readAct ∈ past' → SessionRead readAct current.session →
      current.session.accessTokenHash = TokenService.hashToken d.sodium accessToken →
      current.session.revoked = false → current.session.userId = current.user.id →
      observed past' = [.sessionSelected (some current.session), .userSelected (some current.user),
        .sessionSelected (some first)] ++ observed past →
      K current past') :
    Fallible.Leads Φ (AccountSecurityService.authenticateCurrentSession service accessToken) past K
      (fun _ _ => True) := by
  refine Fallible.leads_bind (leads_authenticateAccessToken hService hΦ ?_)
  intro first user sessionAct userAct past₁ hSublist hAuthenticated hObserved
  refine Fallible.leads_bind (leads_findByAccessTokenHash hΦ (fun _ => Fallible.leads_throw trivial) ?_)
  intro session readAct past₂ hPast₂ hSession hToken
  refine Fallible.leads_bind (Fallible.leads_throwIf (fun _ => trivial) (fun hGuard => ?_))
  rw [Bool.or_eq_false_iff] at hGuard
  rw [hService] at hToken
  refine Fallible.leads_pure (h ⟨user, session⟩ first sessionAct userAct readAct _ ?_ hAuthenticated
    List.mem_cons_self hSession hToken hGuard.1 (by simpa using hGuard.2) ?_)
  · exact (hSublist.trans hPast₂.suffix.sublist).cons readAct
  · rw [observed_cons, hPast₂.observed, hObserved, hSession.events]
    rfl

theorem leads_authenticateWithPermission (hService : service.sodium = d.sodium)
    (request : AdminRequest) {K : User → List (Act World Event) → Prop}
    (hΦ : Admissible Φ (fun _ _ => True))
    (h : ∀ administrator past', Authorised d request administrator past' → K administrator past') :
    Fallible.Leads Φ (AdminService.authenticateWithPermission service request.accessToken
      request.permission) past K (fun _ _ => True) := by
  refine Fallible.leads_bind (leads_authenticateAccessToken hService hΦ ?_)
  intro session user sessionAct userAct past₁ hSublist hAuthenticated _
  refine Fallible.leads_bind (leads_hasPermission hΦ (fun _ => ?_) ?_)
  · exact Fallible.leads_bind (Fallible.leads_throwIf (fun _ => trivial) (fun h => by cases h))
  intro permissionAct past₂ hPast₂ hPermission
  refine Fallible.leads_bind (Fallible.leads_throwIf (fun h => by cases h) (fun _ => ?_))
  refine Fallible.leads_pure (h user _ ⟨session, sessionAct, userAct, permissionAct, ?_,
    hAuthenticated, hPermission⟩)
  exact (hSublist.trans hPast₂.suffix.sublist).cons_cons permissionAct

end authentication

section registration

variable {sodium : Sodium} {username email password : String}
variable {Z : Exception → List (Act World Event) → Prop}

theorem leads_createUser {input : CreateUser} (hΦ : Admissible Φ Z)
    (hDuplicate : ∀ message past', Z (.duplicateUserError message) past')
    (hInsert : ∀ now past' act, act.before.database.duplicatesUser input = false →
      act.after.database = act.before.database.insertUser input now →
      Event.writes act.events = [] → Φ past' act) :
    Fallible.Leads Φ (UserRepository.create input) past (fun _ _ => True) Z := by
  refine Fallible.leads_bind (Fallible.leads_throwIf (fun _ => hΦ.fault _ _ rfl) (fun _ => ?_))
  refine Fallible.leads_bind (Fallible.leads_throwIf (fun _ => hΦ.fault _ _ rfl) (fun _ => ?_))
  refine leads_withLockedHandle hΦ (fun past₁ _ => ?_)
  refine leads_autocommit_bind (leads_autocommit hΦ (fun _ => rfl) (fun env act hEvents hAfter => ?_))
  cases hDuplicates : act.before.database.duplicatesUser input with
  | true =>
    simp only [hDuplicates, if_true] at hEvents hAfter ⊢
    exact ⟨hΦ.reads _ _ hAfter (by rw [hEvents]; rfl), hDuplicate _ _⟩
  | false =>
    simp only [hDuplicates, Bool.false_eq_true, if_false] at hEvents hAfter ⊢
    refine ⟨hInsert env.strftimeNow _ act hDuplicates hAfter (by rw [hEvents]; rfl), ?_⟩
    refine leads_autocommit_bind (leads_autocommit hΦ (fun _ => rfl) (fun _ _ hRead hSame => ?_))
    refine ⟨hΦ.reads _ _ hSame (by rw [hRead]; rfl), ?_⟩
    simp only
    split
    · exact Fallible.leads_throw (hΦ.fault _ _ rfl)
    · exact Fallible.leads_pure trivial

/-- A registration inserts what has passed its checks, and does nothing else. -/
theorem leads_registerUser (hΦ : Admissible Φ Z)
    (hUsername : UserService.isValidUsername (trimCopy username) = false →
      Z UserService.invalidUsername past)
    (hEmail : UserService.isValidEmail (lowercaseCopy (trimCopy email)) = false →
      Z UserService.invalidEmail past)
    (hPassword : UserService.isValidPassword password = false → Z UserService.weakPassword past)
    (hDuplicate : ∀ past', Z UserService.duplicateUser past')
    (hInsert : ∀ passwordHash now past' act, UserService.isValidUsername (trimCopy username) = true →
      UserService.isValidEmail (lowercaseCopy (trimCopy email)) = true →
      UserService.isValidPassword password = true → act.before.database.duplicatesUser
        ⟨trimCopy username, lowercaseCopy (trimCopy email), passwordHash, "user"⟩ = false →
      act.after.database = act.before.database.insertUser
        ⟨trimCopy username, lowercaseCopy (trimCopy email), passwordHash, "user"⟩ now →
      Event.writes act.events = [] → Φ past' act) :
    Fallible.Leads Φ (UserService.registerUser sodium username email password) past
      (fun _ _ => True) Z := by
  rw [UserService.registerUser]
  refine Fallible.leads_bind (Fallible.leads_throwIf (fun h => hUsername (by simpa using h)) (fun hName => ?_))
  refine Fallible.leads_bind (Fallible.leads_throwIf (fun h => hEmail (by simpa using h)) (fun hAddress => ?_))
  refine Fallible.leads_bind (Fallible.leads_throwIf (fun h => hPassword (by simpa using h)) (fun hWord => ?_))
  refine Fallible.leads_bind (leads_hash hΦ (fun salt past₁ _ _ => ?_))
  have hCaught : Admissible Φ (fun e past' => (∃ message, e = .duplicateUserError message) ∨ Z e past') :=
    ⟨hΦ.reads, fun e past' hFault => .inr (hΦ.fault e past' hFault)⟩
  refine Fallible.leads_tryCatch (Fallible.Leads.mono
    (leads_createUser hCaught (fun message _ => .inl ⟨message, rfl⟩) ?_) (fun _ _ h => h) (fun _ _ h => h) ?_)
  · intro now past₂ act
    exact hInsert _ now past₂ act (by simpa using hName) (by simpa using hAddress) (by simpa using hWord)
  · rintro e past₂ (⟨message, rfl⟩ | hError)
    · exact Fallible.leads_throw (hDuplicate _)
    · cases e with
      | duplicateUserError message => exact Fallible.leads_throw (hDuplicate _)
      | _ => exact Fallible.leads_throw hError

end registration

end SecureCore
