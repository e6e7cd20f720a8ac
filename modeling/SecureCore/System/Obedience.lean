import SecureCore.System.ServiceRules

/-! # Every operation obeys its discipline -/

namespace SecureCore

set_option autoImplicit false

open Interleaving Relational Transaction

variable {d : Deployment} {past past' : List (Act World Event)}

/-- A discipline of one operation admits reading and throwing. -/
theorem admissible_obeys (d : Deployment) (op : Operation) :
    Admissible (Obeys d op) (fun _ _ => True) :=
  ⟨fun _ _ hSame hEvents => .reads hSame hEvents, fun _ _ _ => trivial⟩

/-! ## Login -/

namespace LoginReady

variable {login password : String} {user : User}

/-- Later accesses change nothing about what a login knows, unless they check a
password, read a user or insert a session. -/
theorem of_observed (h : LoginReady d login password user past) (hSuffix : past <:+ past')
    (hSelected : selectedUsers past' = selectedUsers past)
    (hVerified : verifiedHashes past' = verifiedHashes past)
    (hInserted : insertedSessions past' = insertedSessions past) :
    LoginReady d login password user past' := by
  obtain ⟨act, hAct, hRead⟩ := h.read
  refine ⟨⟨act, hSuffix.subset hAct, hRead⟩, h.named, ?_, ?_, h.right, h.enabled, ?_⟩
  · rw [hSelected, h.selected]
  · rw [hVerified, h.verified]
  · rw [hInserted, h.first]

theorem of_extends (h : LoginReady d login password user past) (hExtends : Extends past past') :
    LoginReady d login password user past' := by
  apply h.of_observed hExtends.suffix <;>
    simp only [selectedUsers, verifiedHashes, insertedSessions, hExtends.observed]

end LoginReady

theorem generatedFamilies_of_extends (h : Extends past past') :
    generatedFamilies past' = generatedFamilies past := by
  unfold generatedFamilies
  rw [h.observed]

section login

variable {service : AuthService} {process : Nat} {login password clientIp : String} {user : User}

theorem obeys_create {familyId : String} {input : CreateAuthSession}
    (hInput : input.userId = user.id ∧ input.tokenFamilyId = familyId ∧ input.parentSessionId = none)
    (hFamilyId : familyId.isEmpty = false)
    (hReady : LoginReady d login password user past) (hFamily : generatedFamilies past = [familyId])
    {Z : Exception → List (Act World Event) → Prop}
    (hΦ : Admissible (Obeys d (.login process login password clientIp)) Z)
    (hDuplicate : ∀ message past', Extends past past' → Z (.duplicateTokenError message) past') :
    Fallible.Leads (Obeys d (.login process login password clientIp))
      (AuthSessionRepository.create input) past (fun _ _ => True) Z := by
  obtain ⟨hUserId, hTokenFamilyId, hParent⟩ := hInput
  refine Fallible.leads_bind (Fallible.leads_throwIf (fun _ => hΦ.fault _ _ rfl) (fun _ => ?_))
  refine leads_withLockedHandle hΦ (fun past₁ hPast₁ => ?_)
  refine leads_autocommit_bind (leads_autocommit hΦ (fun _ => rfl) (fun env act hEvents hAfter => ?_))
  cases hDuplicates : act.before.database.duplicatesToken input with
  | true =>
    simp only [hDuplicates, if_true] at hEvents hAfter ⊢
    exact ⟨.reads hAfter (by rw [hEvents]; rfl), hDuplicate _ _ (hPast₁.cons hEvents hAfter)⟩
  | false =>
    cases hExists : act.before.database.userExists input.userId with
    | false =>
      simp only [hDuplicates, hExists, Bool.false_eq_true, if_false] at hEvents hAfter ⊢
      exact ⟨.reads hAfter (by rw [hEvents]; rfl), hΦ.fault _ _ rfl⟩
    | true =>
      simp only [hDuplicates, hExists, Bool.false_eq_true, if_true, if_false] at hEvents hAfter ⊢
      have hNew := newSession_sessionRow hDuplicates env.strftimeNow
      rw [hUserId, hParent] at hNew
      have hRow : (act.before.database.sessionRow input (AuthSessionRepository.familyIdOf input)
          env.strftimeNow).tokenFamilyId = familyId := by
        rw [sessionRow_tokenFamilyId (by rwa [hTokenFamilyId]), hTokenFamilyId]
      refine ⟨.openSession (hReady.of_extends hPast₁) ?_ hNew hAfter (by rw [hEvents]; rfl), ?_⟩
      · rw [generatedFamilies_of_extends hPast₁, hFamily, hRow]
      · refine leads_autocommit_bind (leads_autocommit hΦ (fun _ => rfl) (fun _ _ hRead hSame => ?_))
        refine ⟨.reads hSame (by rw [hRead]; rfl), ?_⟩
        simp only
        split
        · exact Fallible.leads_throw (hΦ.fault _ _ rfl)
        · exact Fallible.leads_pure trivial

theorem leads_generateToken {sodium : Sodium} {tokenPrefix : String}
    {Φ : List (Act World Event) → Act World Event → Prop}
    {Z : Exception → List (Act World Event) → Prop}
    {K : GeneratedToken → List (Act World Event) → Prop} (hΦ : Admissible Φ Z)
    (h : ∀ token past', Extends past past' → K token past') :
    Fallible.Leads Φ (TokenService.generateToken sodium tokenPrefix : Call GeneratedToken) past K Z := by
  refine leads_consult hΦ (fun _ => rfl) ?_
  intro env act hEvents hSame
  exact h _ _ ((Extends.refl past).cons hEvents (by rw [hSame]))

/-- A duplicate is thrown before the INSERT has changed anything. -/
def UnchangedOnDuplicate (past : List (Act World Event)) :
    Exception → List (Act World Event) → Prop
  | .duplicateTokenError _, past' => Extends past past'
  | _, _ => True

theorem obeys_issueAttempt {familyId : String} (hFamilyId : familyId.isEmpty = false) {now : Int}
    (hReady : LoginReady d login password user past)
    (hFamily : generatedFamilies past = [familyId]) :
    Fallible.Leads (Obeys d (.login process login password clientIp))
      (service.issueAttempt AuthSessionRepository.create user.id now familyId none) past
      (fun tokens past' => tokens = none → Extends past past') (fun _ _ => True) := by
  have hΦ := admissible_obeys d (.login process login password clientIp)
  have hFault : Admissible (Obeys d (.login process login password clientIp))
      (UnchangedOnDuplicate past) := by
    refine ⟨hΦ.reads, fun e past' hFault => ?_⟩
    cases e <;> trivial
  refine Fallible.leads_bind (leads_generateToken hΦ (fun access past₁ hPast₁ => ?_))
  refine Fallible.leads_bind (leads_generateToken hΦ (fun refresh past₂ hPast₂ => ?_))
  have hExtends := hPast₁.trans hPast₂
  have hCreate : Fallible.Leads (Obeys d (.login process login password clientIp))
      (AuthSessionRepository.create ⟨user.id, access.hash, refresh.hash,
        now + service.accessTokenLifetimeSeconds, now + service.refreshTokenLifetimeSeconds,
        familyId, none⟩) past₂ (fun _ _ => True) (UnchangedOnDuplicate past) := by
    refine obeys_create ⟨rfl, rfl, rfl⟩ hFamilyId (hReady.of_extends hExtends) ?_ hFault ?_
    · rw [generatedFamilies_of_extends hExtends, hFamily]
    · intro message past' hPast'
      exact hExtends.trans hPast'
  refine Fallible.leads_tryCatch (Fallible.Leads.mono (Fallible.leads_bind
    (Fallible.Leads.mono hCreate (fun _ _ h => h) (fun _ _ _ => Fallible.leads_pure ?_)
      (fun _ _ h => h))) (fun _ _ h => h) (fun _ _ h => h) ?_)
  · nofun
  · intro e past' h
    cases e with
    | duplicateTokenError message => exact Fallible.leads_pure (fun _ => h)
    | _ => exact Fallible.leads_throw trivial

theorem obeys_issueAttempts {familyId : String} (hFamilyId : familyId.isEmpty = false) {now : Int}
    (attempts : Nat) (hReady : LoginReady d login password user past)
    (hFamily : generatedFamilies past = [familyId]) :
    Fallible.Leads (Obeys d (.login process login password clientIp))
      (service.issueAttempts AuthSessionRepository.create user.id now familyId none attempts) past
      (fun _ _ => True) (fun _ _ => True) := by
  induction attempts generalizing past with
  | zero => exact Fallible.leads_throw trivial
  | succ attempts ih =>
    refine Fallible.leads_bind (Fallible.Leads.mono (obeys_issueAttempt hFamilyId hReady hFamily)
      (fun _ _ h => h) ?_ (fun _ _ h => h))
    intro tokens past' hTokens
    cases tokens with
    | some tokens => exact Fallible.leads_pure trivial
    | none =>
      have hExtends := hTokens rfl
      refine ih (hReady.of_extends hExtends) ?_
      rw [generatedFamilies_of_extends hExtends, hFamily]

theorem obeys_issueTokens {now : Int} (hReady : LoginReady d login password user past)
    (hFamily : generatedFamilies past = []) :
    Fallible.Leads (Obeys d (.login process login password clientIp))
      (service.issueTokens user.id now) past (fun _ _ => True) (fun _ _ => True) := by
  refine Fallible.leads_bind (leads_consult (admissible_obeys d _) (fun _ => rfl) ?_)
  intro env act hEvents hSame
  refine obeys_issueAttempts (by simp) 3 (hReady.of_observed (List.suffix_cons act past) ?_ ?_ ?_) ?_
  all_goals
    simp only [selectedUsers, verifiedHashes, insertedSessions, generatedFamilies, observed_cons,
      hEvents, List.filterMap_append]
  · rfl
  · rfl
  · rfl
  · change _ ++ generatedFamilies past = _
    rw [hFamily]
    rfl

theorem leads_needsRehash {sodium : Sodium} {encodedHash : String}
    {Φ : List (Act World Event) → Act World Event → Prop} {K : Bool → List (Act World Event) → Prop}
    (h : ∀ needed, K needed past) :
    Fallible.Leads Φ (PasswordHasher.needsRehash sodium encodedHash) past K (fun _ _ => True) := by
  unfold PasswordHasher.needsRehash
  split
  · exact Fallible.leads_pure (h _)
  · split
    · exact Fallible.leads_throw trivial
    · exact Fallible.leads_pure (h _)

theorem obeys_setPasswordHash {salt : String} (hReady : LoginReady d login password user past) :
    Fallible.Leads (Obeys d (.login process login password clientIp))
      (UserRepository.setPasswordHash user.id (d.sodium.pwhashStr salt password)) past
      (fun _ past' => LoginReady d login password user past' ∧
        generatedFamilies past' = generatedFamilies past) (fun _ _ => True) := by
  have hΦ := admissible_obeys d (.login process login password clientIp)
  unfold UserRepository.setPasswordHash
  split
  · exact Fallible.leads_pure ⟨hReady, rfl⟩
  · refine leads_statement hΦ (fun _ => rfl) (fun env act past₁ hPast₁ hEvents hAfter => ?_)
    have hReady₁ := hReady.of_extends hPast₁
    cases hExists : act.before.database.userExists user.id with
    | false =>
      simp only [hExists, Bool.false_eq_true, if_false] at hEvents hAfter ⊢
      rw [Database.setPasswordHash_of_missing hExists] at hAfter
      refine ⟨.reads hAfter (by rw [hEvents]; rfl), ?_⟩
      have hExtends := hPast₁.cons hEvents hAfter
      exact ⟨hReady.of_extends hExtends, generatedFamilies_of_extends hExtends⟩
    | true =>
      simp only [hExists, if_true] at hEvents hAfter ⊢
      refine ⟨.upgradeHash salt env.strftimeNow hReady₁ hAfter (by rw [hEvents]; rfl), ?_, ?_⟩
      · apply hReady₁.of_observed (List.suffix_cons act past₁)
        all_goals
          simp only [selectedUsers, verifiedHashes, insertedSessions, observed_cons, hEvents,
            List.filterMap_append]
          rfl
      · rw [← generatedFamilies_of_extends hPast₁]
        simp only [generatedFamilies, observed_cons, hEvents, List.filterMap_append]
        rfl

theorem obeys_openSession (hService : service.sodium = d.sodium)
    (hReady : user.enabled = true → LoginReady d login password user past)
    (hFamily : generatedFamilies past = []) :
    Fallible.Leads (Obeys d (.login process login password clientIp))
      (service.openSession user (trimCopy login) password) past (fun _ _ => True)
      (fun _ _ => True) := by
  have hΦ := admissible_obeys d (.login process login password clientIp)
  refine Fallible.leads_bind (Fallible.leads_throwIf (fun _ => trivial) (fun hEnabled => ?_))
  have hReady := hReady (by simpa using hEnabled)
  -- the rest of the call, from the point where the hash needs no upgrade or has got one
  have hRest : ∀ past₁, LoginReady d login password user past₁ → generatedFamilies past₁ = [] →
      Fallible.Leads (Obeys d (.login process login password clientIp)) (do
        withProtector service.process (fun _ protector => ((), protector.recordSuccess (trimCopy login)))
        let now ← currentUnixTime
        let tokens ← service.issueTokens user.id now
        pure (⟨user, tokens⟩ : LoginResult)) past₁ (fun _ _ => True) (fun _ _ => True) := by
    intro past₁ hReady₁ hFamily₁
    refine Fallible.leads_bind (leads_withProtector hΦ (fun _ past₂ hPast₂ => ?_))
    refine Fallible.leads_bind (leads_currentUnixTime hΦ (fun now past₃ hPast₃ => ?_))
    have hExtends := hPast₂.trans hPast₃
    refine Fallible.leads_bind (Fallible.Leads.mono
      (obeys_issueTokens (hReady₁.of_extends hExtends) ?_) (fun _ _ h => h)
      (fun _ _ _ => Fallible.leads_pure trivial) (fun _ _ h => h))
    rw [generatedFamilies_of_extends hExtends, hFamily₁]
  refine Fallible.leads_bind (leads_needsRehash (fun needed => ?_))
  cases needed with
  | false => exact hRest past hReady hFamily
  | true =>
    refine Fallible.leads_bind (leads_hash hΦ (fun salt past₁ hPast₁ _ => ?_))
    rw [hService]
    refine Fallible.leads_bind (Fallible.Leads.mono
      (obeys_setPasswordHash (hReady.of_extends hPast₁)) (fun _ _ h => h) ?_ (fun _ _ h => h))
    rintro updated past₂ ⟨hReady₂, hFamily₂⟩
    refine Fallible.leads_bind (Fallible.leads_throwIf (fun _ => trivial) (fun _ => ?_))
    refine hRest past₂ hReady₂ ?_
    rw [hFamily₂, generatedFamilies_of_extends hPast₁, hFamily]

theorem obeys_login (hService : service.sodium = d.sodium) :
    Fallible.Leads (Obeys d (.login process login password clientIp))
      (service.login login password clientIp) [] (fun _ _ => True) (fun _ _ => True) := by
  have hΦ := admissible_obeys d (.login process login password clientIp)
  have hReject : ∀ address past', Fallible.Leads (Obeys d (.login process login password clientIp))
      (service.rejectLogin (trimCopy login) address) past' (fun _ _ => True) (fun _ _ => True) := by
    intro address past'
    refine Fallible.leads_bind (leads_withProtector (admissible_obeys d _) (fun _ _ _ => ?_))
    refine Fallible.leads_bind (Fallible.leads_throwIf (fun _ => trivial) (fun _ => ?_))
    exact Fallible.leads_throw trivial
  refine Fallible.leads_bind (Fallible.leads_throwIf (fun _ => trivial) (fun _ => ?_))
  refine Fallible.leads_bind (leads_withProtector hΦ (fun _ past₁ hPast₁ => ?_))
  refine Fallible.leads_bind (Fallible.leads_throwIf (fun _ => trivial) (fun _ => ?_))
  refine Fallible.leads_bind (leads_findByLogin hΦ (fun act past₂ _ _ => ?_) ?_)
  · refine Fallible.leads_bind (leads_verify hΦ (fun check _ => ?_))
    exact hReject _ _
  · intro user userAct past₂ hPast₂ hUser hNamed
    refine Fallible.leads_bind (leads_verify hΦ (fun check hCheck => ?_))
    have hObserved : observed (check :: userAct :: past₂) =
        check.events ++ [.userSelected (some user)] := by
      rw [observed_cons, observed_cons, hPast₂.observed, hPast₁.observed, hUser.events]
      rfl
    rw [hCheck] at hObserved
    cases hRight : PasswordHasher.matchesHash service.sodium password user.passwordHash with
    | false => exact hReject _ _
    | true =>
      rw [hRight] at hObserved
      refine obeys_openSession hService (fun hEnabled => ?_) ?_
      · rw [hService] at hRight
        refine ⟨⟨userAct, by simp, hUser⟩, hNamed, ?_, ?_, hRight, hEnabled, ?_⟩
        all_goals
          simp only [selectedUsers, verifiedHashes, insertedSessions, hObserved]
          rfl
      · simp only [generatedFamilies, hObserved]
        rfl

end login

/-! ## Sessions -/

section sessions

variable {service : AuthService} {process : Nat} {accessToken : String}

/-- With which answer a refresh ends tells what its transaction did. -/
def RefreshEnded (d : Deployment) (refreshToken : String) (r : Except Exception LoginResult)
    (past : List (Act World Event)) : Prop :=
  ∃ act older now, past = act :: older ∧
    AuthService.RefreshOutcome act.before.database
      (TokenService.hashToken d.sodium refreshToken) now r act.after.database
      (Event.writes act.events)

theorem obeys_refresh (hService : service.sodium = d.sodium) {refreshToken : String} :
    Fallible.Leads (Obeys d (.refresh process refreshToken)) (service.refresh refreshToken) []
      (fun answer past' => RefreshEnded d refreshToken (.ok answer) past')
      (fun e past' => e = AuthService.refreshTokenReused →
        RefreshEnded d refreshToken (.error e) past') := by
  have hΦ : Admissible (Obeys d (.refresh process refreshToken)) (fun e past' =>
      e = AuthService.refreshTokenReused → RefreshEnded d refreshToken (.error e) past') := by
    refine ⟨fun _ _ hSame hEvents => .reads hSame hEvents, ?_⟩
    rintro e past' hFault rfl
    cases hFault
  refine Fallible.leads_bind (Fallible.leads_throwIf (fun _ => nofun) (fun _ => ?_))
  refine Fallible.leads_bind (leads_currentUnixTime hΦ (fun now past₁ _ => ?_))
  refine leads_transaction hΦ (fun db => AuthService.settles_refreshIn)
    AuthService.refreshAborted_of_isFault (fun e _ hAborted h => absurd h hAborted) ?_
  intro r act past₂ _ hOutcome
  rw [hService] at hOutcome
  refine ⟨.refresh hOutcome, ?_⟩
  cases r with
  | ok answer => exact ⟨act, past₂, now, rfl, hOutcome⟩
  | error e => exact fun _ => ⟨act, past₂, now, rfl, hOutcome⟩

theorem obeys_authenticate (hService : service.sodium = d.sodium) :
    Fallible.Leads (Obeys d (.authenticate process accessToken))
      (service.authenticateAccessToken accessToken) []
      (fun user past' => ∃ session sessionAct userAct, [userAct, sessionAct].Sublist past' ∧
        Authenticated d accessToken session user sessionAct userAct) (fun _ _ => True) := by
  refine leads_authenticateAccessToken hService (admissible_obeys d _) ?_
  intro session user sessionAct userAct past' hSublist hAuthenticated _
  exact ⟨session, sessionAct, userAct, hSublist, hAuthenticated⟩

theorem obeys_logout (hService : service.sodium = d.sodium) :
    Fallible.Leads (Obeys d (.logout process accessToken)) (service.logoutAccessToken accessToken)
      [] (fun _ _ => True) (fun _ _ => True) := by
  have hΦ := admissible_obeys d (.logout process accessToken)
  unfold AuthService.logoutAccessToken
  split
  · exact Fallible.leads_pure trivial
  · refine Fallible.leads_bind (leads_findByAccessTokenHash hΦ
      (fun _ => Fallible.leads_pure trivial) ?_)
    intro session read past₁ _ hRead hToken
    rw [hService] at hToken
    cases hRevoked : session.revoked with
    | true => simpa [hRevoked] using Fallible.leads_pure trivial
    | false =>
      simp only [hRevoked, Bool.false_eq_true, if_false]
      refine Fallible.leads_bind ?_
      unfold AuthSessionRepository.revokeById
      split
      · exact Fallible.leads_pure (Fallible.leads_pure trivial)
      · refine Fallible.leads_bind (leads_revokeLocked hΦ ?_ ?_)
        · intro now act past₂ hSuffix hAfter hEvents
          exact .logout now ⟨read, hSuffix.subset List.mem_cons_self, hRead⟩ hToken hAfter hEvents
        · exact fun _ _ => Fallible.leads_pure (Fallible.leads_pure trivial)

theorem obeys_logoutAll (hService : service.sodium = d.sodium) :
    Fallible.Leads (Obeys d (.logoutAll process accessToken))
      (service.logoutAllAccessToken accessToken) [] (fun _ _ => True) (fun _ _ => True) := by
  have hΦ := admissible_obeys d (.logoutAll process accessToken)
  refine Fallible.leads_bind (leads_authenticateAccessToken hService hΦ ?_)
  intro session user sessionAct userAct past₁ hSublist hAuthenticated _
  refine Fallible.leads_bind ?_
  unfold AuthSessionRepository.revokeAllForUser
  split
  · exact Fallible.leads_pure (Fallible.leads_pure trivial)
  · refine leads_revokeLocked hΦ ?_ (fun _ _ => Fallible.leads_pure trivial)
    intro now act past₂ hSuffix hAfter hEvents
    exact .logoutAll now (hSublist.trans hSuffix.sublist) hAuthenticated hAfter hEvents

theorem obeys_revokeSession (hService : service.sodium = d.sodium) {sessionId : Int} :
    Fallible.Leads (Obeys d (.revokeSession process accessToken sessionId))
      (AccountSecurityService.revokeSession service accessToken sessionId) [] (fun _ _ => True)
      (fun _ _ => True) := by
  have hΦ := admissible_obeys d (.revokeSession process accessToken sessionId)
  refine Fallible.leads_bind (leads_authenticateCurrentSession hService hΦ ?_)
  intro current first sessionAct userAct readAct past₁ hSublist hAuthenticated _ _ _ _ _ _
  refine Fallible.leads_bind (leads_findByIdForUser hΦ (fun _ => Fallible.leads_throw trivial) ?_)
  intro target targetAct past₂ hPast₂ _ _ _
  cases hRevoked : target.revoked with
  | true => simpa [hRevoked] using Fallible.leads_bind (Fallible.leads_pure (Fallible.leads_pure trivial))
  | false =>
    simp only [hRevoked, Bool.false_eq_true, if_false]
    refine Fallible.leads_bind ?_
    unfold AuthSessionRepository.revokeByIdForUser
    split
    · exact Fallible.leads_pure (Fallible.leads_pure trivial)
    · refine Fallible.leads_bind (leads_revokeLocked hΦ ?_ ?_)
      · intro now act past₃ hSuffix hAfter hEvents
        have hPast : past₁ <:+ past₃ := (hPast₂.trans (List.suffix_cons targetAct past₂)).trans hSuffix
        exact .revokeSession now (hSublist.trans hPast.sublist) hAuthenticated hAfter hEvents
      · exact fun _ _ => Fallible.leads_pure (Fallible.leads_pure trivial)

theorem obeys_changePassword (hService : service.sodium = d.sodium)
    {currentPassword newPassword : String} :
    Fallible.Leads (Obeys d (.changePassword process accessToken currentPassword newPassword))
      (AccountSecurityService.changePassword service accessToken currentPassword newPassword) []
      (fun _ _ => True) (fun _ _ => True) := by
  have hΦ := admissible_obeys d (.changePassword process accessToken currentPassword newPassword)
  refine Fallible.leads_bind (leads_authenticateCurrentSession hService hΦ ?_)
  intro current first sessionAct userAct readAct past₁ hSublist hAuthenticated hMem hSession hToken
    hUnrevoked hOwner hObserved
  refine Fallible.leads_bind (Fallible.leads_throwIf (fun _ => trivial) (fun _ => ?_))
  refine Fallible.leads_bind (leads_verify hΦ (fun check hCheck => ?_))
  refine Fallible.leads_bind (Fallible.leads_throwIf (fun _ => trivial) (fun hRight => ?_))
  refine Fallible.leads_bind (Fallible.leads_throwIf (fun _ => trivial) (fun hValid => ?_))
  refine Fallible.leads_bind (leads_verify hΦ (fun check' hCheck' => ?_))
  refine Fallible.leads_bind (Fallible.leads_throwIf (fun _ => trivial) (fun hDifferent => ?_))
  refine Fallible.leads_bind (leads_hash hΦ (fun salt past₂ hPast₂ _ => ?_))
  rw [Bool.not_eq_false'] at hRight hValid
  rw [hRight] at hCheck
  rw [hDifferent] at hCheck'
  rw [hService] at hRight hDifferent
  have hReadUser := hAuthenticated.readUser
  have hUser : 0 < current.user.id := Database.user_positive hReadUser.stored
  have hPositive : 0 < current.session.id := Database.session_positive hSession.stored
  refine leads_transaction hΦ
    (fun db => AccountSecurityService.settles_changePasswordIn hUser hPositive)
    (fun _ _ => trivial) (fun _ _ _ => trivial) ?_
  rintro r act past₃ hPast₃ ⟨now, revokedAt, count, rfl, hAfter, hEvents⟩
  have hExtends := hPast₂.trans hPast₃
  have hOld : observed past₃ = [.passwordChecked current.user.passwordHash false,
      .passwordChecked current.user.passwordHash true, .sessionSelected (some current.session),
      .userSelected (some current.user), .sessionSelected (some first)] := by
    rw [hExtends.observed, observed_cons, observed_cons, hCheck, hCheck', hObserved]
    rfl
  have hSuffix : past₁ <:+ past₃ :=
    ((List.suffix_cons check past₁).trans (List.suffix_cons check' _)).trans hExtends.suffix
  rw [hService] at hAfter hEvents
  refine ⟨.changePassword salt now revokedAt ⟨⟨readAct, hSuffix.subset hMem, hSession⟩, hToken,
    hUnrevoked, hOwner, ⟨userAct, hSuffix.subset ?_, hReadUser⟩, ?_, ?_, hRight, hDifferent,
    hValid⟩ hAfter hEvents, trivial⟩
  · exact hSublist.subset List.mem_cons_self
  · simp only [selectedUsers, hOld]
    rfl
  · simp only [verifiedHashes, hOld]
    rfl

theorem obeys_deleteExpired {currentTime : Int} :
    Fallible.Leads (Obeys d (.deleteExpired currentTime))
      (AuthSessionRepository.deleteExpired currentTime) [] (fun _ _ => True) (fun _ _ => True) := by
  refine leads_statement (admissible_obeys d _) (fun _ => rfl) ?_
  intro env act past' _ hEvents hAfter
  exact ⟨.expire hAfter (by rw [hEvents]; rfl), trivial⟩

end sessions

/-! ## Administrators -/

section administrators

variable {service : AuthService} {process : Nat} {accessToken roleName : String} {targetUserId : Int}

/-- The transaction of an authorised administrator. -/
theorem obeys_administer {op : Operation} {request : AdminRequest} {administrator : User}
    {α : Type} {body : Tx α} {K : α → List (Act World Event) → Prop}
    (hRequest : op.adminRequest = some request) (hAuthorised : Authorised d request administrator past)
    (hBody : ∀ db, Settles body db db [] (fun _ => True)
      (Administers db request.targetUserId (request.action administrator)))
    (hK : ∀ answer past', K answer past') :
    Fallible.Leads (Obeys d op) (Database.transaction body) past K (fun _ _ => True) := by
  refine leads_transaction (admissible_obeys d op) hBody (fun _ _ => trivial) (fun _ _ _ => trivial) ?_
  rintro r act past' hPast ⟨⟨answer, rfl⟩, hChange, hEvents⟩
  obtain ⟨session, sessionAct, userAct, permissionAct, hSublist, hKnown⟩ := hAuthorised
  refine ⟨.administer hRequest ⟨session, sessionAct, userAct, permissionAct,
    hSublist.trans hPast.suffix.sublist, hKnown⟩ hChange hEvents, hK answer _⟩

theorem obeys_setUserEnabled (hService : service.sodium = d.sodium) {enabled : Bool} :
    Fallible.Leads (Obeys d (.setUserEnabled process accessToken targetUserId enabled))
      (AdminService.setUserEnabled service accessToken targetUserId enabled) [] (fun _ _ => True)
      (fun _ _ => True) := by
  refine Fallible.leads_bind (leads_authenticateWithPermission hService
    ⟨accessToken, if enabled then "users.enable" else "users.disable", targetUserId,
      fun _ => if enabled then .enable else .disable⟩ (admissible_obeys d _) ?_)
  intro administrator past₁ hAuthorised
  refine Fallible.leads_bind (Fallible.leads_throwIf (fun _ => trivial) (fun _ => ?_))
  refine Fallible.leads_bind (obeys_administer rfl hAuthorised
    (fun _ => AdminService.settles_setUserEnabledIn) ?_)
  rintro ⟨updatedUser, revokedSessions⟩ past₂
  exact Fallible.leads_pure trivial

theorem obeys_assignRole (hService : service.sodium = d.sodium) :
    Fallible.Leads (Obeys d (.assignRole process accessToken targetUserId roleName))
      (AdminService.assignRole service accessToken targetUserId roleName) [] (fun _ _ => True)
      (fun _ _ => True) := by
  have hΦ := admissible_obeys d (.assignRole process accessToken targetUserId roleName)
  refine Fallible.leads_bind (leads_authenticateWithPermission hService
    ⟨accessToken, "roles.manage", targetUserId,
      fun administrator => .grant roleName (some administrator.id)⟩ hΦ ?_)
  intro administrator past₁ hAuthorised
  refine Fallible.leads_bind (obeys_administer rfl hAuthorised
    (fun _ => AdminService.settles_assignRoleIn) ?_)
  rintro ⟨updated, changed⟩ past₂
  exact Fallible.leads_bind (leads_rolesForUser hΦ (fun _ _ => Fallible.leads_pure trivial))

theorem obeys_revokeRole (hService : service.sodium = d.sodium) :
    Fallible.Leads (Obeys d (.revokeRole process accessToken targetUserId roleName))
      (AdminService.revokeRole service accessToken targetUserId roleName) [] (fun _ _ => True)
      (fun _ _ => True) := by
  have hΦ := admissible_obeys d (.revokeRole process accessToken targetUserId roleName)
  refine Fallible.leads_bind (leads_authenticateWithPermission hService
    ⟨accessToken, "roles.manage", targetUserId, fun _ => .remove roleName⟩ hΦ ?_)
  intro administrator past₁ hAuthorised
  refine Fallible.leads_bind (Fallible.leads_throwIf (fun _ => trivial) (fun hBase => ?_))
  refine Fallible.leads_bind (obeys_administer rfl hAuthorised
    (fun _ => AdminService.settles_revokeRoleIn (by simpa using hBase)) ?_)
  rintro ⟨updated, changed⟩ past₂
  exact Fallible.leads_bind (leads_rolesForUser hΦ (fun _ _ => Fallible.leads_pure trivial))

theorem obeys_secureAdmin {command : SecureAdmin.Command} {identifier : String} :
    Fallible.Leads (Obeys d (.secureAdmin command identifier)) (SecureAdmin.main command identifier)
      [] (fun _ _ => True) (fun _ _ => True) := by
  have hΦ := admissible_obeys d (.secureAdmin command identifier)
  refine Fallible.leads_bind (leads_findByLogin hΦ (fun _ _ _ _ => Fallible.leads_throw trivial) ?_)
  intro found userAct past₁ _ _ _
  cases hAction : command.action with
  | none =>
    cases command <;> cases hAction
    exact Fallible.leads_bind (leads_rolesForUser hΦ (fun _ _ => Fallible.leads_pure trivial))
  | some action =>
    have hNotListing : command ≠ .listRoles := by
      rintro rfl
      cases hAction
    simp only [if_neg hNotListing]
    refine Fallible.leads_bind (leads_transaction hΦ (fun _ => SecureAdmin.settles_mainIn hAction)
      (fun _ _ => trivial) (fun _ _ _ => trivial) ?_)
    rintro r act past₂ _ ⟨⟨⟨updated, changed, revokedSessions⟩, rfl⟩, hChange, hEvents⟩
    refine ⟨.secureAdmin hAction hChange hEvents, ?_⟩
    exact Fallible.leads_bind (leads_rolesForUser hΦ (fun _ _ => Fallible.leads_pure trivial))

theorem obeys_registerUser {sodium : Sodium} {username email password : String} :
    Fallible.Leads (Obeys d (.registerUser username email password))
      (UserService.registerUser sodium username email password) [] (fun _ _ => True)
      (fun _ _ => True) := by
  exact leads_registerUser (admissible_obeys d (.registerUser username email password)) (fun _ => trivial)
    (fun _ => trivial) (fun _ => trivial) (fun _ => trivial)
    (fun _ now _ _ _ _ _ hUnused hAfter hEvents => .register now hUnused hAfter hEvents rfl)

end administrators

/-! ## All operations -/

/-- What the end of a call says about its accesses. -/
def Returns (d : Deployment) : Operation → Except Exception Unit → List (Act World Event) → Prop
  | .refresh _ refreshToken, .ok (), past => ∃ answer, RefreshEnded d refreshToken (.ok answer) past
  | .refresh _ refreshToken, .error e, past =>
    e = AuthService.refreshTokenReused → RefreshEnded d refreshToken (.error e) past
  | .authenticate _ accessToken, .ok (), past => ∃ session user sessionAct userAct,
    [userAct, sessionAct].Sublist past ∧
      Authenticated d accessToken session user sessionAct userAct
  | _, _, _ => True

theorem leads_operation {op : Operation} {α : Type} {x : Call α}
    {K : α → List (Act World Event) → Prop} {Z : Exception → List (Act World Event) → Prop}
    (h : Fallible.Leads (Obeys d op) x [] K Z)
    (hOk : ∀ answer past', K answer past' → Returns d op (.ok ()) past')
    (hError : ∀ e past', Z e past' → Returns d op (.error e) past') :
    Fallible.Leads (Obeys d op) (discard x) [] (fun _ past' => Returns d op (.ok ()) past')
      (fun e past' => Returns d op (.error e) past') :=
  leads_discard (Fallible.Leads.mono h (fun _ _ h => h) hOk hError)

theorem leads_call (d : Deployment) (op : Operation) :
    Fallible.Leads (Obeys d op) (d.call op) [] (fun _ past' => Returns d op (.ok ()) past')
      (fun e past' => Returns d op (.error e) past') := by
  cases op with
  | registerUser username email password =>
    exact leads_operation obeys_registerUser (fun _ _ h => h) (fun _ _ h => h)
  | login process login password clientIp =>
    exact leads_operation (obeys_login (d.shared process)) (fun _ _ h => h) (fun _ _ h => h)
  | refresh process refreshToken =>
    exact leads_operation (obeys_refresh (d.shared process)) (fun answer _ h => ⟨answer, h⟩)
      (fun _ _ h => h)
  | authenticate process accessToken =>
    exact leads_operation (obeys_authenticate (d.shared process))
      (fun user _ ⟨session, h⟩ => ⟨session, user, h⟩) (fun _ _ h => h)
  | logout process accessToken =>
    exact leads_operation (obeys_logout (d.shared process)) (fun _ _ h => h) (fun _ _ h => h)
  | logoutAll process accessToken =>
    exact leads_operation (obeys_logoutAll (d.shared process)) (fun _ _ h => h) (fun _ _ h => h)
  | revokeSession process accessToken sessionId =>
    exact leads_operation (obeys_revokeSession (d.shared process)) (fun _ _ h => h) (fun _ _ h => h)
  | changePassword process accessToken currentPassword newPassword =>
    exact leads_operation (obeys_changePassword (d.shared process)) (fun _ _ h => h) (fun _ _ h => h)
  | setUserEnabled process accessToken targetUserId enabled =>
    exact leads_operation (obeys_setUserEnabled (d.shared process)) (fun _ _ h => h) (fun _ _ h => h)
  | assignRole process accessToken targetUserId roleName =>
    exact leads_operation (obeys_assignRole (d.shared process)) (fun _ _ h => h) (fun _ _ h => h)
  | revokeRole process accessToken targetUserId roleName =>
    exact leads_operation (obeys_revokeRole (d.shared process)) (fun _ _ h => h) (fun _ _ h => h)
  | secureAdmin command identifier =>
    exact leads_operation obeys_secureAdmin (fun _ _ h => h) (fun _ _ h => h)
  | deleteExpired currentTime =>
    exact leads_operation obeys_deleteExpired (fun _ _ h => h) (fun _ _ h => h)

/-- Whatever the other calls do, a call obeys the discipline of its operation. -/
theorem call_along (d : Deployment) (op : Operation) :
    (d.call op).run.Along (Obeys d op) [] (Returns d op) := by
  refine Process.Along.mono (Fallible.along_of_leads (leads_call d op)) (fun _ _ h => h) ?_
  intro r past' hEnd
  cases r with
  | ok answer => exact hEnd
  | error e => exact hEnd

section pools

variable {τ : Type} [DecidableEq τ] {calls : τ → Operation} {world : World}

/-- The histories of a pool of calls. -/
abbrev Histories (d : Deployment) (calls : τ → Operation) (world : World) :
    List (Entry τ World Event) → Prop :=
  Execution (fun t => Obeys d (calls t)) world

/-- Every run of every pool of calls is an execution in which each access obeys the
discipline of its call. -/
theorem running_pool (d : Deployment) (calls : τ → Operation) (world : World)
    (schedule : List (τ × (Nat → Surroundings))) :
    Pool.Running (fun t => Obeys d (calls t)) (fun t => Returns d (calls t)) world
      ((d.pool calls world).run schedule) :=
  Pool.running_of_along (fun t => call_along d (calls t)) world schedule

end pools

end SecureCore
