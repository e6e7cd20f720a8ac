import SecureCore.Interleaving.Growth
import SecureCore.System.Obedience

/-! # What the end of a call tells of its accesses

A call that returns has made its change at one access, for which the earlier ones had made
ready. A call that throws an exception of its service has changed nothing, or tells what. -/

namespace SecureCore

set_option autoImplicit false

open Interleaving Relational

/-- The access has changed nothing and written no event. -/
def Silent (act : Act World Event) : Prop :=
  act.after.database = act.before.database ∧ Event.writes act.events = []

/-- None of the accesses has changed the database. -/
def Untouched (past : List (Act World Event)) : Prop :=
  ∀ act ∈ past, act.after.database = act.before.database

/-- What a call has written, newest first. -/
def written (past : List (Act World Event)) : List Event := Event.writes (observed past)

/-- One access has made the change, after others that made ready for it. The others have
changed nothing. -/
def Changed (past : List (Act World Event)) (ready : List (Act World Event) → Prop)
    (change : Database → Database → Prop) : Prop :=
  ∃ newer act older, past = newer ++ act :: older ∧ Untouched newer ∧ Untouched older ∧ ready older ∧
    change act.before.database act.after.database

theorem untouched_nil : Untouched [] := fun _ h => absurd h List.not_mem_nil

theorem Untouched.cons {past : List (Act World Event)} (h : Untouched past) {act : Act World Event}
    (hAct : act.after.database = act.before.database) : Untouched (act :: past) :=
  List.forall_mem_cons.mpr ⟨hAct, h⟩

theorem Extends.untouched {past past' : List (Act World Event)} (h : Extends past past')
    (hPast : Untouched past) : Untouched past' := by
  intro act hAct
  rcases h.silent act hAct with hOld | hSame
  · exact hPast act hOld
  · exact hSame

theorem Extends.written {past past' : List (Act World Event)} (h : Extends past past') :
    written past' = written past := by
  unfold SecureCore.written
  rw [h.observed]

section since

variable {past past' past'' : List (Act World Event)}

theorem untouched_of_since (h : Since Silent past past') (hPast : Untouched past) : Untouched past' := by
  obtain ⟨newer, rfl, hNewer⟩ := h
  exact List.forall_mem_append.mpr ⟨fun act hAct => (hNewer act hAct).1, hPast⟩

theorem written_of_since (h : Since Silent past past') : written past' = written past := by
  obtain ⟨newer, rfl, hNewer⟩ := h
  induction newer with
  | nil => rfl
  | cons act newer ih =>
    rw [List.forall_mem_cons] at hNewer
    unfold written at ih ⊢
    rw [List.cons_append, observed_cons, Event.writes_append, hNewer.1.2, List.nil_append, ih hNewer.2]

theorem Changed.of_since {ready : List (Act World Event) → Prop} {change : Database → Database → Prop}
    (h : Changed past ready change) (hSince : Since Silent past past') : Changed past' ready change := by
  obtain ⟨newer, act, older, rfl, hNewer, hOlder, hReady, hChange⟩ := h
  obtain ⟨newest, rfl, hNewest⟩ := hSince
  refine ⟨newest ++ newer, act, older, by rw [List.append_assoc], ?_, hOlder, hReady, hChange⟩
  exact List.forall_mem_append.mpr ⟨fun act hAct => (hNewest act hAct).1, hNewer⟩

end since

theorem Changed.mono {past : List (Act World Event)} {ready ready' : List (Act World Event) → Prop}
    {change change' : Database → Database → Prop} (h : Changed past ready change)
    (hReady : ∀ older, ready older → ready' older) (hChange : ∀ db db', change db db' → change' db db') :
    Changed past ready' change' := by
  obtain ⟨newer, act, older, rfl, hNewer, hOlder, hMade, hDone⟩ := h
  exact ⟨newer, act, older, rfl, hNewer, hOlder, hReady _ hMade, hChange _ _ hDone⟩

theorem Changed.last {older : List (Act World Event)} {act : Act World Event}
    {ready : List (Act World Event) → Prop} {change : Database → Database → Prop} (hOlder : Untouched older)
    (hReady : ready older) (hChange : change act.before.database act.after.database) :
    Changed (act :: older) ready change :=
  ⟨[], act, older, rfl, untouched_nil, hOlder, hReady, hChange⟩

/-! ## Calls that tell -/

section tells

variable {α : Type} {past : List (Act World Event)}

/-- The call, with `past` behind it, returns as `K` says or throws as `Z` says, if it does not
throw because of a fault. -/
def Tells (x : Call α) (past : List (Act World Event)) (K : α → List (Act World Event) → Prop)
    (Z : Exception → List (Act World Event) → Prop) : Prop :=
  Fallible.Leads (fun _ _ => True) x past K (fun e past' => e.isFault = false → Z e past')

variable {K : α → List (Act World Event) → Prop} {Z : Exception → List (Act World Event) → Prop}

theorem admissible_silent : Admissible (fun _ act => Silent act) (fun _ _ => True) :=
  ⟨fun _ _ hSame hEvents => ⟨hSame, hEvents⟩, fun _ _ _ => trivial⟩

theorem admissible_tells (Z : Exception → List (Act World Event) → Prop) :
    Admissible (fun _ _ => True) (fun e past' => e.isFault = false → Z e past') := by
  refine ⟨fun _ _ _ _ => trivial, fun e past' hFault hOwn => ?_⟩
  rw [hFault] at hOwn
  cases hOwn

/-- A check, and what the call does behind it. -/
theorem tells_throwIf {condition : Bool} {e : Exception} {f : Unit → Call α}
    (hThrow : condition = true → Z e past) (hGo : condition = false → Tells (f ()) past K Z) :
    Tells (Fallible.throwIf condition e >>= f) past K Z :=
  Fallible.leads_bind (Fallible.leads_throwIf (fun h _ => hThrow h) hGo)

theorem tells_throwIf_fault {condition : Bool} {e : Exception} {f : Unit → Call α} (hFault : e.isFault = true)
    (hGo : Tells (f ()) past K Z) : Tells (Fallible.throwIf condition e >>= f) past K Z :=
  Fallible.leads_bind (Fallible.leads_throwIf (fun _ hOwn => by rw [hFault] at hOwn; cases hOwn) (fun _ => hGo))

theorem tells_throw {e : Exception} (h : Z e past) : Tells (throw e : Call α) past K Z :=
  Fallible.leads_throw (fun _ => h)

theorem tells_bind {β : Type} {x : Call α} {f : α → Call β} {L : β → List (Act World Event) → Prop}
    (hx : Tells x past K Z) (hf : ∀ a past', K a past' → Tells (f a) past' L Z) :
    Tells (x >>= f) past L Z :=
  Fallible.leads_bind (Fallible.Leads.mono hx (fun _ _ h => h) hf (fun _ _ h => h))

/-- A part of a call that only reads. -/
theorem tells_silent {x : Call α}
    (h : Fallible.Leads (fun _ act => Silent act) x past K (fun _ _ => True))
    (hThrow : ∀ e past', Since Silent past past' → Z e past') :
    Tells x past (fun a past' => K a past' ∧ Since Silent past past') Z :=
  Fallible.Leads.mono (Fallible.Leads.since h (fun _ _ hAct => hAct)) (fun _ _ _ => trivial)
    (fun _ _ hEnd => hEnd) (fun e past' hEnd _ => hThrow e past' hEnd.2)

theorem tells_untouched {x : Call α} (hPast : Untouched past)
    (h : Fallible.Leads (fun _ act => Silent act) x past K (fun _ _ => True))
    (hThrow : ∀ e past', Untouched past' → Z e past') :
    Tells x past (fun a past' => K a past' ∧ Untouched past') Z := by
  refine Fallible.Leads.mono (tells_silent h (fun e past' hSince => hThrow e past' (untouched_of_since hSince hPast)))
    (fun _ _ h => h) ?_ (fun _ _ h => h)
  rintro a past' ⟨hK, hSince⟩
  exact ⟨hK, untouched_of_since hSince hPast⟩

/-- A part that only reads and throws nothing but faults. -/
theorem tells_faults {x : Call α}
    (h : Fallible.Leads (fun _ act => Silent act) x past K (fun e _ => e.isFault = true)) :
    Tells x past (fun a past' => K a past' ∧ Since Silent past past') Z := by
  refine Fallible.Leads.mono (Fallible.Leads.since h (fun _ _ hAct => hAct)) (fun _ _ _ => trivial)
    (fun _ _ hEnd => hEnd) ?_
  rintro e past' ⟨hFault, -⟩ hOwn
  rw [hFault] at hOwn
  cases hOwn

/-- The part of a call that its service does in a transaction. -/
theorem tells_transaction {body : Tx α} {Y : Exception → Prop}
    {E : Database → Except Exception α → Database → List Event → Prop}
    (hSettles : ∀ db, Transaction.Settles body db db [] Y (E db))
    (hFault : ∀ e : Exception, e.isFault = true → Y e) (hPast : Untouched past)
    (hAborted : ∀ e past', Y e → Untouched past' → Z e past')
    (hReturned : ∀ answer act past', Extends past past' →
      E act.before.database (.ok answer) act.after.database (Event.writes act.events) → K answer (act :: past'))
    (hThrown : ∀ e act past', Extends past past' →
      E act.before.database (.error e) act.after.database (Event.writes act.events) → Z e (act :: past')) :
    Tells (Database.transaction body) past K Z := by
  refine leads_settled (admissible_tells Z) hSettles hFault ?_ ?_
  · intro e act past' hExtends hY hSame _ _
    exact hAborted e _ hY ((hExtends.untouched hPast).cons hSame)
  · intro r act past' hExtends hE
    refine ⟨trivial, ?_⟩
    cases r with
    | ok answer => exact hReturned answer act past' hExtends hE
    | error e => exact fun _ => hThrown e act past' hExtends hE

end tells

/-! ## Registration -/

section registration

variable {past : List (Act World Event)}

/-- The registration has inserted the row that it answers with. -/
def Registered (username email : String) (user : User) (past : List (Act World Event)) : Prop :=
  Changed past (fun _ => True) (fun db db' => ∃ input now, input.username = trimCopy username ∧
    input.email = lowercaseCopy (trimCopy email) ∧ input.role = "user" ∧ db.duplicatesUser input = false ∧
    db.users.nextKey = user.id ∧ db' = db.insertUser input now) ∧
  ∃ act ∈ past, UserRead act user

theorem tells_createUser {input : CreateUser} (hPast : Untouched past) :
    Tells (UserRepository.create input) past (fun user past' =>
      Changed past' (fun _ => True) (fun db db' => ∃ now, db.duplicatesUser input = false ∧
        db.users.nextKey = user.id ∧ db' = db.insertUser input now) ∧
      ∃ act ∈ past', UserRead act user) (fun _ past' => Untouched past') := by
  have hΦ := admissible_tells (fun _ past' => Untouched past')
  refine tells_throwIf (fun _ => hPast) (fun _ => tells_throwIf (fun _ => hPast) (fun _ => ?_))
  refine leads_withLockedHandle hΦ (fun past₁ hPast₁ => ?_)
  have hPast₁ := hPast₁.untouched hPast
  refine leads_autocommit_bind (leads_autocommit hΦ (fun _ => rfl) (fun env act hEvents hAfter => ⟨trivial, ?_⟩))
  cases hDuplicates : act.before.database.duplicatesUser input with
  | true =>
    simp only [hDuplicates, if_true] at hAfter ⊢
    exact fun _ => hPast₁.cons hAfter
  | false =>
    simp only [hDuplicates, Bool.false_eq_true, if_false] at hAfter ⊢
    refine leads_autocommit_bind (leads_autocommit hΦ (fun _ => rfl)
      (fun _ read hRead hSame => ⟨trivial, ?_⟩))
    simp only at hRead hSame ⊢
    cases hFound : read.before.database.findUserById act.before.database.users.nextKey with
    | none =>
      refine Fallible.leads_throw (fun hOwn => ?_)
      cases hOwn
    | some user =>
      rw [hFound] at hRead
      obtain ⟨hMem, hId⟩ := Database.findUserById_eq_some hFound
      refine Fallible.leads_pure ⟨?_, read, List.mem_cons_self, hRead, hMem⟩
      exact ⟨[read], act, past₁, rfl, untouched_nil.cons hSame, hPast₁, trivial, env.strftimeNow, hDuplicates,
        hId.symm, hAfter⟩

theorem tells_registerUser {sodium : Sodium} {username email password : String} (hPast : Untouched past) :
    Tells (UserService.registerUser sodium username email password) past (Registered username email)
      (fun _ past' => Untouched past') := by
  rw [UserService.registerUser]
  refine tells_throwIf (fun _ => hPast) (fun _ => tells_throwIf (fun _ => hPast) (fun _ =>
    tells_throwIf (fun _ => hPast) (fun _ => ?_)))
  refine tells_bind (tells_silent (leads_hash (K := fun _ _ => True) admissible_silent (fun _ _ _ _ => trivial))
    (fun _ _ hSince => untouched_of_since hSince hPast)) ?_
  rintro passwordHash past₁ ⟨-, hSince⟩
  have hPast₁ := untouched_of_since hSince hPast
  refine Fallible.leads_tryCatch (Fallible.Leads.mono (tells_createUser hPast₁) (fun _ _ h => h) ?_ ?_)
  · rintro user past₂ ⟨hChanged, hRead⟩
    refine ⟨hChanged.mono (fun _ h => h) ?_, hRead⟩
    rintro db db' ⟨now, hInserted⟩
    exact ⟨⟨trimCopy username, lowercaseCopy (trimCopy email), passwordHash, "user"⟩, now, rfl, rfl, rfl, hInserted⟩
  · intro e past₂ hThrown
    cases e with
    | duplicateUserError message => exact Fallible.leads_throw (fun _ => hThrown rfl)
    | _ => exact Fallible.leads_throw hThrown

end registration

/-! ## Sessions -/

section sessions

variable {d : Deployment} {service : AuthService} {accessToken : String} {past : List (Act World Event)}

/-- The access token has been found to be that of a live session of this enabled user. -/
def Accepted (d : Deployment) (accessToken : String) (user : User) (past : List (Act World Event)) : Prop :=
  ∃ session sessionAct userAct, [userAct, sessionAct].Sublist past ∧
    Authenticated d accessToken session user sessionAct userAct

theorem Accepted.user_positive {user : User} (h : Accepted d accessToken user past) : 0 < user.id := by
  obtain ⟨session, sessionAct, userAct, -, hAuthenticated⟩ := h
  exact Database.user_positive hAuthenticated.readUser.stored

theorem Accepted.of_suffix {user : User} {past' : List (Act World Event)} (h : Accepted d accessToken user past)
    (hSuffix : past <:+ past') : Accepted d accessToken user past' := by
  obtain ⟨session, sessionAct, userAct, hSublist, hAuthenticated⟩ := h
  exact ⟨session, sessionAct, userAct, hSublist.trans hSuffix.sublist, hAuthenticated⟩

/-- One UPDATE has revoked the sessions of which the condition is so, and counted them. -/
def Revokes (condition : AuthSession → Bool) (count : Nat) (db db' : Database) : Prop :=
  count = db.countRevocable condition ∧ ∃ now, db' = db.revokeSessions condition (fun _ => now)

theorem revokes_zero {condition : AuthSession → Bool} {db db' : Database} (h : Revokes condition 0 db db') :
    db' = db := by
  obtain ⟨hCount, now, rfl⟩ := h
  have hNone : ∀ s ∈ db.authSessions.rows, (condition s && !s.revoked) = false := by
    intro s hs
    by_contra hSome
    rw [Bool.not_eq_false] at hSome
    have hPositive : 0 < db.countRevocable condition := Table.count_pos.mpr ⟨s, hs, hSome⟩
    omega
  unfold Database.revokeSessions
  rw [Table.update_of_none hNone]

theorem tells_revokeLocked {operation : String} {condition : AuthSession → Bool}
    {K : Nat → List (Act World Event) → Prop} {Z : Exception → List (Act World Event) → Prop}
    (h : ∀ count act past', Extends past past' →
      Revokes condition count act.before.database act.after.database → K count (act :: past')) :
    Tells (Database.withLockedHandle
      (AuthSessionRepository.revokeLocked operation condition (fun now _ => now) [])) past K Z := by
  refine leads_statement (admissible_tells Z) (fun _ => rfl) ?_
  intro env act past' hPast _ hAfter
  exact ⟨trivial, h _ act past' hPast ⟨rfl, env.strftimeNow, hAfter⟩⟩

theorem tells_authenticateAccessToken (hService : service.sodium = d.sodium) (hPast : Untouched past)
    {Z : Exception → List (Act World Event) → Prop} (hThrow : ∀ e past', Untouched past' → Z e past') :
    Tells (service.authenticateAccessToken accessToken) past
      (fun user past' => Accepted d accessToken user past' ∧ Untouched past') Z := by
  refine tells_untouched hPast (leads_authenticateAccessToken hService admissible_silent ?_) hThrow
  intro session user sessionAct userAct past' hSublist hAuthenticated _
  exact ⟨session, sessionAct, userAct, hSublist, hAuthenticated⟩

/-- A logout has revoked the session of its token, or has changed nothing. -/
def LoggedOut (d : Deployment) (accessToken : String) (userId : Option Int) (revoked : Bool)
    (past : List (Act World Event)) : Prop :=
  if revoked then ∃ session, userId = some session.userId ∧
    Changed past (fun older => (∃ act ∈ older, SessionRead act session) ∧ session.revoked = false ∧
      session.accessTokenHash = TokenService.hashToken d.sodium accessToken)
      (fun db db' => ∃ count, 0 < count ∧ Revokes (fun s => s.id == session.id) count db db')
  else Untouched past

/-- A look-up by the hash of a token. -/
theorem tells_findByAccessTokenHash {tokenHash : String} (hPast : Untouched past)
    {Z : Exception → List (Act World Event) → Prop} (hThrow : ∀ e past', Untouched past' → Z e past') :
    Tells (AuthSessionRepository.findByAccessTokenHash tokenHash) past (fun found past' =>
      (∀ session, found = some session →
        (∃ act ∈ past', SessionRead act session) ∧ session.accessTokenHash = tokenHash) ∧
      Untouched past') Z := by
  refine tells_untouched hPast (leads_findByAccessTokenHash admissible_silent ?_ ?_) hThrow
  · intro past' session hFound
    cases hFound
  · intro session act past' _ hSession hHash other hFound
    cases hFound
    exact ⟨⟨act, List.mem_cons_self, hSession⟩, hHash⟩

theorem tells_logoutAccessToken (hService : service.sodium = d.sodium) :
    Tells (service.logoutAccessToken accessToken) []
      (fun result past' => LoggedOut d accessToken result.userId result.revoked past') (fun _ _ => True) := by
  unfold AuthService.logoutAccessToken
  cases hEmpty : accessToken.isEmpty with
  | true =>
    rw [if_pos rfl]
    exact Fallible.leads_pure untouched_nil
  | false =>
    rw [if_neg Bool.false_ne_true]
    refine tells_bind (tells_findByAccessTokenHash untouched_nil (fun _ _ _ => trivial)) ?_
    rintro found past₁ ⟨hFound, hPast₁⟩
    cases found with
    | none => exact Fallible.leads_pure hPast₁
    | some session =>
      obtain ⟨⟨read, hRead, hSession⟩, hHash⟩ := hFound session rfl
      rw [hService] at hHash
      have hPositive : ¬ session.id ≤ 0 := by
        have hId := Database.session_positive hSession.stored
        omega
      cases hRevoked : session.revoked with
      | true =>
        simp only [hRevoked, if_true]
        exact Fallible.leads_pure hPast₁
      | false =>
        simp only [hRevoked, Bool.false_eq_true, if_false]
        unfold AuthSessionRepository.revokeById
        rw [if_neg hPositive]
        refine tells_bind (tells_bind (tells_revokeLocked (fun count act past₂ hPast₂ hRevokes => ?_))
          (fun count past₂ h => Fallible.leads_pure h)) (fun revoked past₂ h => Fallible.leads_pure h)
        by_cases hCount : 0 < count
        · unfold LoggedOut
          rw [decide_eq_true hCount, if_pos rfl]
          refine ⟨session, rfl, Changed.last (hPast₂.untouched hPast₁) ⟨⟨read, hPast₂.mem hRead, hSession⟩,
            hRevoked, hHash⟩ ⟨count, hCount, hRevokes⟩⟩
        · obtain rfl : count = 0 := by omega
          exact (hPast₂.untouched hPast₁).cons (revokes_zero hRevokes)

/-- All sessions of the user of the token have been revoked, and counted. -/
def LoggedOutAll (d : Deployment) (accessToken : String) (userId : Int) (count : Nat)
    (past : List (Act World Event)) : Prop :=
  Changed past (fun older => ∃ user, user.id = userId ∧ Accepted d accessToken user older)
    (Revokes (fun s => s.userId == userId) count)

theorem tells_logoutAllAccessToken (hService : service.sodium = d.sodium) :
    Tells (service.logoutAllAccessToken accessToken) []
      (fun result past' => LoggedOutAll d accessToken result.userId result.revokedSessions past')
      (fun _ past' => Untouched past') := by
  refine tells_bind (tells_authenticateAccessToken hService untouched_nil (fun _ _ h => h)) ?_
  rintro user past₁ ⟨hAccepted, hPast₁⟩
  have hPositive : ¬ user.id ≤ 0 := Int.not_le.mpr hAccepted.user_positive
  unfold AuthSessionRepository.revokeAllForUser
  rw [if_neg hPositive]
  refine tells_bind (tells_revokeLocked (fun count act past₂ hPast₂ hRevokes => ?_))
    (fun _ _ h => Fallible.leads_pure h)
  exact Changed.last (hPast₂.untouched hPast₁) ⟨user, rfl, hAccepted.of_suffix hPast₂.suffix⟩ hRevokes

theorem tells_authenticateCurrentSession (hService : service.sodium = d.sodium) :
    Tells (AccountSecurityService.authenticateCurrentSession service accessToken) []
      (fun current past' => Accepted d accessToken current.user past' ∧ 0 < current.session.id ∧
        Untouched past') (fun _ past' => Untouched past') := by
  refine tells_bind (tells_authenticateAccessToken hService untouched_nil (fun _ _ h => h)) ?_
  rintro user past₁ ⟨hAccepted, hPast₁⟩
  have hRead : Fallible.Leads (fun _ act => Silent act) (AuthSessionRepository.findByAccessTokenHash
      (TokenService.hashToken service.sodium accessToken)) past₁
      (fun found _ => ∀ session, found = some session → 0 < session.id) (fun _ _ => True) := by
    refine leads_findByAccessTokenHash admissible_silent ?_ ?_
    · intro past' session hFound
      cases hFound
    · intro session act past' _ hSession _ other hFound
      cases hFound
      exact Database.session_positive hSession.stored
  refine tells_bind (tells_silent hRead (fun e past' hSince => untouched_of_since hSince hPast₁)) ?_
  rintro found past₂ ⟨hFound, hSince⟩
  have hPast₂ := untouched_of_since hSince hPast₁
  cases found with
  | none => exact tells_throw hPast₂
  | some session =>
    refine tells_throwIf (fun _ => hPast₂) (fun _ => Fallible.leads_pure ⟨?_, hFound session rfl, hPast₂⟩)
    obtain ⟨newer, rfl, -⟩ := hSince
    exact hAccepted.of_suffix (List.suffix_append newer past₁)

/-- One session of the user of the token has been revoked, or nothing was to be done. -/
def SessionRevoked (d : Deployment) (accessToken : String) (sessionId userId : Int) (revoked : Bool)
    (past : List (Act World Event)) : Prop :=
  if revoked then
    Changed past (fun older => ∃ user, user.id = userId ∧ Accepted d accessToken user older)
      (fun db db' => ∃ count, 0 < count ∧
        Revokes (fun s => s.id == sessionId && s.userId == userId) count db db')
  else Untouched past ∧ ∃ user, user.id = userId ∧ Accepted d accessToken user past

theorem tells_revokeSession (hService : service.sodium = d.sodium) {sessionId : Int} :
    Tells (AccountSecurityService.revokeSession service accessToken sessionId) []
      (fun result past' => SessionRevoked d accessToken sessionId result.userId result.revoked past')
      (fun _ past' => Untouched past') := by
  refine tells_bind (tells_authenticateCurrentSession hService) ?_
  rintro current past₁ ⟨hAccepted, -, hPast₁⟩
  have hRead : Fallible.Leads (fun _ act => Silent act)
      (AuthSessionRepository.findByIdForUser sessionId current.user.id) past₁
      (fun found _ => ∀ session, found = some session → 0 < sessionId) (fun _ _ => True) := by
    refine leads_findByIdForUser admissible_silent ?_ ?_
    · intro past' session hFound
      cases hFound
    · intro session act past' _ hSession hId _ other _
      rw [← hId]
      exact Database.session_positive hSession.stored
  refine tells_bind (tells_silent hRead (fun e past' hSince => untouched_of_since hSince hPast₁)) ?_
  rintro found past₂ ⟨hFound, hSince⟩
  have hPast₂ := untouched_of_since hSince hPast₁
  obtain ⟨newer, rfl, -⟩ := hSince
  have hStill := hAccepted.of_suffix (List.suffix_append newer past₁)
  cases found with
  | none => exact tells_throw hPast₂
  | some target =>
    cases hRevoked : target.revoked with
    | true =>
      simp only [hRevoked, if_true]
      exact tells_bind (Fallible.leads_pure ⟨hPast₂, current.user, rfl, hStill⟩) (fun _ _ h => Fallible.leads_pure h)
    | false =>
      have hGuard : (decide (sessionId ≤ 0) || decide (current.user.id ≤ 0)) = false := by
        have hSession := hFound target rfl
        have hUser := hAccepted.user_positive
        simp [hSession, hUser]
      simp only [hRevoked, Bool.false_eq_true, if_false]
      unfold AuthSessionRepository.revokeByIdForUser
      rw [hGuard, if_neg Bool.false_ne_true]
      refine tells_bind (tells_bind (tells_revokeLocked (fun count act past₃ hPast₃ hRevokes => ?_))
        (fun count _ h => Fallible.leads_pure h)) (fun revoked _ h => Fallible.leads_pure h)
      by_cases hCount : 0 < count
      · unfold SessionRevoked
        rw [decide_eq_true hCount, if_pos rfl]
        exact Changed.last (hPast₃.untouched hPast₂) ⟨current.user, rfl, hStill.of_suffix hPast₃.suffix⟩
          ⟨count, hCount, hRevokes⟩
      · obtain rfl : count = 0 := by omega
        refine ⟨(hPast₃.untouched hPast₂).cons (revokes_zero hRevokes), current.user, rfl, ?_⟩
        exact hStill.of_suffix (hPast₃.suffix.trans (List.suffix_cons act past₃))

/-- The last access has changed a password and written what is named. -/
def PasswordWritten (userId : Int) (past : List (Act World Event)) : Prop :=
  ∃ act older sessionId passwordHash, past = act :: older ∧ Untouched older ∧
    Event.writes act.events = [.passwordHashUpdated userId passwordHash,
      .otherSessionsRevoked userId sessionId, .committed]

theorem tells_changePassword (hService : service.sodium = d.sodium) {currentPassword newPassword : String} :
    Tells (AccountSecurityService.changePassword service accessToken currentPassword newPassword) []
      (fun result past' => PasswordWritten result.userId past') (fun _ past' => Untouched past') := by
  refine tells_bind (tells_authenticateCurrentSession hService) ?_
  rintro current past₁ ⟨hAccepted, hSession, hPast₁⟩
  have hVerify : ∀ (password : String) (past₂ : List (Act World Event)), Untouched past₂ →
      Tells (PasswordHasher.verify service.sodium password current.user.passwordHash) past₂
        (fun _ past' => Untouched past') (fun _ past' => Untouched past') := by
    intro password past₂ hPast₂
    refine Fallible.Leads.mono (tells_silent (leads_verify (K := fun _ _ => True) admissible_silent
      (fun _ _ => trivial)) (fun _ _ hSince => untouched_of_since hSince hPast₂)) (fun _ _ h => h) ?_ (fun _ _ h => h)
    exact fun _ past' hEnd => untouched_of_since hEnd.2 hPast₂
  refine tells_throwIf (fun _ => hPast₁) (fun _ => ?_)
  refine tells_bind (hVerify currentPassword past₁ hPast₁) (fun currentValid past₂ hPast₂ => ?_)
  refine tells_throwIf (fun _ => hPast₂) (fun _ => tells_throwIf (fun _ => hPast₂) (fun _ => ?_))
  refine tells_bind (hVerify newPassword past₂ hPast₂) (fun same past₃ hPast₃ => ?_)
  refine tells_throwIf (fun _ => hPast₃) (fun _ => ?_)
  refine tells_bind (tells_silent (leads_hash (K := fun _ _ => True) admissible_silent (fun _ _ _ _ => trivial))
    (fun _ _ hSince => untouched_of_since hSince hPast₃)) ?_
  rintro newPasswordHash past₄ ⟨-, hSince⟩
  have hPast₄ := untouched_of_since hSince hPast₃
  refine tells_transaction (fun db => AccountSecurityService.settles_changePasswordIn
    hAccepted.user_positive hSession) (fun _ _ => trivial) hPast₄ (fun _ _ _ h => h) ?_ ?_
  · rintro answer act past₅ hPast₅ ⟨now, revokedAt, count, hAnswer, -, hEvents⟩
    cases hAnswer
    exact ⟨act, past₅, current.session.id, newPasswordHash, rfl, hPast₅.untouched hPast₄, hEvents⟩
  · rintro e act past₅ - ⟨now, revokedAt, count, hAnswer, -⟩
    cases hAnswer

/-- The refresh has ended in this outcome, and has changed nothing before. -/
def RefreshSettled (d : Deployment) (refreshToken : String) (r : Except Exception LoginResult)
    (past : List (Act World Event)) : Prop :=
  Changed past (fun _ => True) (fun db db' => ∃ now events,
    AuthService.RefreshOutcome db (TokenService.hashToken d.sodium refreshToken) now r db' events)

/-- The exception does not speak of a reuse. -/
def NotReuse (e : Exception) : Prop :=
  ∀ message retryAfterSeconds, e ≠ .authError .refreshTokenReused message retryAfterSeconds

theorem notReuse_of_isFault (e : Exception) (h : e.isFault = true) : NotReuse e := by
  rintro message retryAfterSeconds rfl
  cases h

theorem tells_refresh (hService : service.sodium = d.sodium) {refreshToken : String} :
    Tells (service.refresh refreshToken) [] (fun answer past' => RefreshSettled d refreshToken (.ok answer) past')
      (fun e past' => RefreshSettled d refreshToken (.error e) past' ∨
        (NotReuse e ∧ Untouched past')) := by
  refine tells_throwIf (fun _ => Or.inr ⟨(fun _ _ h => by cases h), untouched_nil⟩) (fun _ => ?_)
  refine Fallible.leads_bind (leads_currentUnixTime (admissible_tells _) (fun now past₁ hPast₁ => ?_))
  have hUntouched := hPast₁.untouched untouched_nil
  refine tells_transaction (fun db => AuthService.settles_refreshIn_throwing notReuse_of_isFault
    (fun _ _ h => by cases h) (fun _ _ h => by cases h)) notReuse_of_isFault hUntouched
    (fun e _ hAborted h => Or.inr ⟨hAborted, h⟩) ?_ ?_
  · rintro answer act past₂ hPast₂ ⟨hOutcome, -⟩
    rw [hService] at hOutcome
    exact Changed.last (hPast₂.untouched hUntouched) trivial ⟨now, _, hOutcome⟩
  · rintro e act past₂ hPast₂ ⟨hOutcome, -⟩
    rw [hService] at hOutcome
    exact Or.inl (Changed.last (hPast₂.untouched hUntouched) trivial ⟨now, _, hOutcome⟩)

end sessions

/-! ## Administrators -/

section administrators

variable {d : Deployment} {service : AuthService} {process : Nat} {accessToken roleName : String}
  {targetUserId : Int}

/-- A user whom the token has authorised has committed the action of the request. -/
def Administered (d : Deployment) (request : AdminRequest) (administratorId : Int)
    (past : List (Act World Event)) : Prop :=
  ∃ administrator, administrator.id = administratorId ∧
    Changed past (Authorised d request administrator)
      (fun db db' => AdminChange db request.targetUserId (request.action administrator) db')

theorem Authorised.of_suffix {request : AdminRequest} {administrator : User} {past past' : List (Act World Event)}
    (h : Authorised d request administrator past) (hSuffix : past <:+ past') :
    Authorised d request administrator past' := by
  obtain ⟨session, sessionAct, userAct, permissionAct, hSublist, hKnown⟩ := h
  exact ⟨session, sessionAct, userAct, permissionAct, hSublist.trans hSuffix.sublist, hKnown⟩

theorem tells_authenticateWithPermission (hService : service.sodium = d.sodium) (request : AdminRequest) :
    Tells (AdminService.authenticateWithPermission service request.accessToken request.permission) []
      (fun administrator past' => Authorised d request administrator past' ∧ Untouched past')
      (fun _ past' => Untouched past') := by
  exact tells_untouched untouched_nil (leads_authenticateWithPermission hService request admissible_silent
    (fun _ _ hAuthorised => hAuthorised)) (fun _ _ h => h)

/-- The transaction of an authorised administrator. -/
theorem tells_administer {α : Type} {request : AdminRequest} {administrator : User} {body : Tx α}
    {past : List (Act World Event)} {K : α → List (Act World Event) → Prop}
    {E : Database → Except Exception α → Database → List Event → Prop}
    (hAuthorised : Authorised d request administrator past) (hPast : Untouched past)
    (hBody : ∀ db, Transaction.Settles body db db [] (fun _ => True) (E db))
    (hE : ∀ db r db' events, E db r db' events →
      Administers db request.targetUserId (request.action administrator) r db' events)
    (hK : ∀ answer db db' events past', E db (.ok answer) db' events →
      Administered d request administrator.id past' → K answer past') :
    Tells (Database.transaction body) past K (fun _ past' => Untouched past') := by
  refine tells_transaction hBody (fun _ _ => trivial) hPast (fun _ _ _ h => h) ?_ ?_
  · intro answer act past' hPast' hEnd
    refine hK answer _ _ _ _ hEnd ⟨administrator, rfl, Changed.last (hPast'.untouched hPast) ?_ (hE _ _ _ _ hEnd).2.1⟩
    exact hAuthorised.of_suffix hPast'.suffix
  · intro e act past' _ hEnd
    obtain ⟨⟨answer, hAnswer⟩, -⟩ := hE _ _ _ _ hEnd
    cases hAnswer

theorem tells_rolesForUser {userId : Int} {past : List (Act World Event)}
    {Z : Exception → List (Act World Event) → Prop} :
    Tells (RbacRepository.rolesForUser userId) past (fun _ past' => Since Silent past past') Z := by
  have hRead : Fallible.Leads (fun _ act => Silent act) (RbacRepository.rolesForUser userId) past
      (fun _ _ => True) (fun e _ => e.isFault = true) :=
    leads_rolesForUser ⟨fun _ _ hSame hEvents => ⟨hSame, hEvents⟩, fun _ _ hFault => hFault⟩ (fun _ _ => trivial)
  exact Fallible.Leads.mono (tells_faults hRead) (fun _ _ h => h) (fun _ _ hEnd => hEnd.2) (fun _ _ h => h)

theorem Administered.of_since {request : AdminRequest} {administratorId : Int} {past past' : List (Act World Event)}
    (h : Administered d request administratorId past) (hSince : Since Silent past past') :
    Administered d request administratorId past' := by
  obtain ⟨administrator, hId, hChanged⟩ := h
  exact ⟨administrator, hId, hChanged.of_since hSince⟩

theorem tells_setUserEnabled (hService : service.sodium = d.sodium) {enabled : Bool}
    {request : AdminRequest}
    (hRequest : (Operation.setUserEnabled process accessToken targetUserId enabled).adminRequest = some request) :
    Tells (AdminService.setUserEnabled service accessToken targetUserId enabled) []
      (fun result past' => Administered d request result.administratorId past' ∧ result.user.id = targetUserId)
      (fun _ past' => Untouched past') := by
  have hAuthenticate := tells_authenticateWithPermission hService request
  cases hRequest
  refine tells_bind hAuthenticate ?_
  rintro administrator past₁ ⟨hAuthorised, hPast₁⟩
  refine tells_throwIf (fun _ => hPast₁) (fun _ => ?_)
  refine tells_bind (tells_administer hAuthorised hPast₁ (fun db => AdminService.settles_setUserEnabledIn_user)
    (fun _ _ _ _ hEnd => hEnd.administers) ?_) (fun answer past₂ h => Fallible.leads_pure h)
  rintro answer db db' events past₂ ⟨⟨answer', hAnswer, hFound⟩, -⟩ hAdministered
  cases hAnswer
  exact ⟨hAdministered, (Database.findUserById_eq_some hFound).2⟩

theorem tells_assignRole (hService : service.sodium = d.sodium) {request : AdminRequest}
    (hRequest : (Operation.assignRole process accessToken targetUserId roleName).adminRequest = some request) :
    Tells (AdminService.assignRole service accessToken targetUserId roleName) []
      (fun result past' => Administered d request result.administratorId past')
      (fun _ past' => Untouched past') := by
  have hAuthenticate := tells_authenticateWithPermission hService request
  cases hRequest
  refine tells_bind hAuthenticate ?_
  rintro administrator past₁ ⟨hAuthorised, hPast₁⟩
  refine tells_bind (tells_administer hAuthorised hPast₁ (fun db => AdminService.settles_assignRoleIn)
    (fun _ _ _ _ hEnd => hEnd) (fun _ _ _ _ _ _ h => h)) (fun answer past₂ hAdministered => ?_)
  exact tells_bind tells_rolesForUser
    (fun roles past₃ hSince => Fallible.leads_pure (hAdministered.of_since hSince))

theorem tells_revokeRole (hService : service.sodium = d.sodium) {request : AdminRequest}
    (hRequest : (Operation.revokeRole process accessToken targetUserId roleName).adminRequest = some request) :
    Tells (AdminService.revokeRole service accessToken targetUserId roleName) []
      (fun result past' => Administered d request result.administratorId past')
      (fun _ past' => Untouched past') := by
  have hAuthenticate := tells_authenticateWithPermission hService request
  cases hRequest
  refine tells_bind hAuthenticate ?_
  rintro administrator past₁ ⟨hAuthorised, hPast₁⟩
  refine tells_throwIf (fun _ => hPast₁) (fun hBase => ?_)
  refine tells_bind (tells_administer hAuthorised hPast₁
    (fun db => AdminService.settles_revokeRoleIn (by simpa using hBase)) (fun _ _ _ _ hEnd => hEnd)
    (fun _ _ _ _ _ _ h => h)) (fun answer past₂ hAdministered => ?_)
  exact tells_bind tells_rolesForUser
    (fun roles past₃ hSince => Fallible.leads_pure (hAdministered.of_since hSince))

end administrators

/-! ## Login -/

section login

variable {d : Deployment} {service : AuthService} {past : List (Act World Event)}

theorem written_cons (act : Act World Event) (past : List (Act World Event)) :
    written (act :: past) = Event.writes act.events ++ written past := by
  unfold written
  rw [observed_cons, Event.writes_append]

/-- Since `past` the call has inserted a row for this pair of tokens and written nothing else. -/
def HasIssued (service : AuthService) (userId : Int) (tokens : AuthTokenPair)
    (past past' : List (Act World Event)) : Prop :=
  ∃ row, written past' = .sessionInserted row :: written past ∧ row.userId = userId ∧
    service.SessionOf tokens row

theorem tells_create {input : CreateAuthSession} {Z : Exception → List (Act World Event) → Prop}
    (hDuplicate : ∀ message past', written past' = written past → Z (.duplicateTokenError message) past') :
    Tells (AuthSessionRepository.create input) past (fun _ past' => ∃ (db : Database) (familyId now : String),
      written past' = .sessionInserted (db.sessionRow input familyId now) :: written past) Z := by
  have hΦ := admissible_tells Z
  refine tells_throwIf_fault rfl (leads_withLockedHandle hΦ (fun past₁ hPast₁ => ?_))
  refine leads_autocommit_bind (leads_autocommit hΦ (fun _ => rfl) (fun env act hEvents hAfter => ⟨trivial, ?_⟩))
  cases hDuplicates : act.before.database.duplicatesToken input with
  | true =>
    simp only [hDuplicates, if_true] at hEvents ⊢
    intro _
    refine hDuplicate _ _ ?_
    rw [written_cons, hEvents, Event.writes_nil, List.nil_append, hPast₁.written]
  | false =>
    cases hExists : act.before.database.userExists input.userId with
    | false =>
      simp only [Bool.false_eq_true, if_false]
      intro hOwn
      cases hOwn
    | true =>
      simp only [hDuplicates, hExists, Bool.false_eq_true, if_false, if_true] at hEvents ⊢
      refine leads_autocommit_bind (leads_autocommit hΦ (fun _ => rfl) (fun _ read hRead _ => ⟨trivial, ?_⟩))
      have hWritten : written (read :: act :: past₁) = .sessionInserted (act.before.database.sessionRow input
          (AuthSessionRepository.familyIdOf input) env.strftimeNow) :: written past := by
        rw [written_cons, written_cons, hRead, hEvents, hPast₁.written]
        rfl
      simp only
      cases read.before.database.findSessionById _ with
      | none =>
        refine Fallible.leads_throw (fun hOwn => ?_)
        cases hOwn
      | some session => exact Fallible.leads_pure ⟨_, _, _, hWritten⟩

theorem tells_generateToken {sodium : Sodium} {tokenPrefix : String}
    {Z : Exception → List (Act World Event) → Prop} :
    Tells (TokenService.generateToken sodium tokenPrefix : Call GeneratedToken) past (fun token past' =>
      token.hash = TokenService.hashToken sodium token.value ∧ written past' = written past) Z := by
  refine leads_consult (admissible_tells Z) (fun _ => rfl) ?_
  intro env act hEvents _
  exact ⟨rfl, by rw [written_cons, hEvents, Event.writes_nil, List.nil_append]⟩

theorem tells_issueAttempt {userId now : Int} {familyId : String} {parentSessionId : Option Int}
    {Z : Exception → List (Act World Event) → Prop} :
    Tells (service.issueAttempt AuthSessionRepository.create userId now familyId parentSessionId) past
      (fun issued past' => match issued with
        | some tokens => HasIssued service userId tokens past past'
        | none => written past' = written past) Z := by
  refine tells_bind tells_generateToken ?_
  rintro access past₁ ⟨hAccess, hPast₁⟩
  refine tells_bind tells_generateToken ?_
  rintro refresh past₂ ⟨hRefresh, hPast₂⟩
  have hSame : written past₂ = written past := hPast₂.trans hPast₁
  refine Fallible.leads_tryCatch (Fallible.Leads.mono (tells_bind (Z := fun e past' =>
    ∃ message, e = .duplicateTokenError message ∧ written past' = written past) (tells_create ?_) ?_)
    (fun _ _ h => h) (fun _ _ h => h) ?_)
  · intro message past' hWritten
    exact ⟨message, rfl, hWritten.trans hSame⟩
  · rintro session past₃ ⟨db, family, createdAt, hWritten⟩
    rw [hSame] at hWritten
    exact Fallible.leads_pure ⟨_, hWritten, rfl, hAccess, hRefresh, rfl, rfl⟩
  · intro e past₃ hThrown
    cases e with
    | duplicateTokenError message =>
      obtain ⟨-, -, hWritten⟩ := hThrown rfl
      exact Fallible.leads_pure hWritten
    | _ =>
      refine Fallible.leads_throw (fun hOwn => ?_)
      obtain ⟨message, hDuplicate, -⟩ := hThrown hOwn
      cases hDuplicate

theorem tells_issueAttempts {userId now : Int} {familyId : String} {parentSessionId : Option Int}
    (attempts : Nat) : Tells (service.issueAttempts AuthSessionRepository.create userId now familyId
      parentSessionId attempts) past (fun tokens past' => HasIssued service userId tokens past past')
      (fun e past' => e = AuthService.tokenCreationFailed ∧ written past' = written past) := by
  induction attempts generalizing past with
  | zero => exact tells_throw ⟨rfl, rfl⟩
  | succ attempts ih =>
    refine tells_bind tells_issueAttempt (fun issued past₁ hIssued => ?_)
    cases issued with
    | some tokens => exact Fallible.leads_pure hIssued
    | none =>
      have hSame : written past₁ = written past := hIssued
      refine Fallible.Leads.mono ih (fun _ _ h => h) ?_ ?_
      · rintro tokens past₂ ⟨row, hWritten, hRow⟩
        exact ⟨row, by rw [hWritten, hSame], hRow⟩
      · intro e past₂ hThrown hOwn
        obtain ⟨hFailed, hWritten⟩ := hThrown hOwn
        exact ⟨hFailed, hWritten.trans hSame⟩

/-- A login, with `past` behind it, has issued the tokens that it answers with. -/
theorem tells_issueTokens {userId now : Int} :
    Tells (service.issueTokens userId now) past (fun tokens past' => HasIssued service userId tokens past past')
      (fun e past' => e = AuthService.tokenCreationFailed ∧ written past' = written past) := by
  refine Fallible.leads_bind (leads_consult (admissible_tells _) (fun _ => rfl) ?_)
  intro env act hEvents _
  have hSame : written (act :: past) = written past := by
    rw [written_cons, hEvents]
    rfl
  refine Fallible.Leads.mono (tells_issueAttempts 3) (fun _ _ h => h) ?_ ?_
  · rintro tokens past₁ ⟨row, hWritten, hRow⟩
    exact ⟨row, by rw [hWritten, hSame], hRow⟩
  · intro e past₁ hThrown hOwn
    obtain ⟨hFailed, hWritten⟩ := hThrown hOwn
    exact ⟨hFailed, hWritten.trans hSame⟩

theorem insertedSessions_eq (past : List (Act World Event)) :
    insertedSessions past = (written past).filterMap Event.insertedSession := by
  unfold insertedSessions written Event.writes
  rw [List.filterMap_filter]
  apply List.filterMap_congr
  intro event _
  cases event <;> rfl

/-- A login has inserted no session, and has written nothing at all before it came to issue tokens. -/
def NoSession (e : Exception) (past : List (Act World Event)) : Prop :=
  insertedSessions past = [] ∧ (e ≠ AuthService.tokenCreationFailed → written past = [])

theorem insertedSessions_of_written (h : written past = []) : insertedSessions past = [] := by
  rw [insertedSessions_eq, h, List.filterMap_nil]

theorem noSession_of_written (e : Exception) (h : written past = []) : NoSession e past :=
  ⟨insertedSessions_of_written h, fun _ => h⟩

/-- A login has inserted one session, for the user that it answers with. -/
def OneSession (service : AuthService) (answer : LoginResult) (past : List (Act World Event)) : Prop :=
  ∃ row, insertedSessions past = [row] ∧ row.userId = answer.user.id ∧ service.SessionOf answer.tokens row

theorem tells_setPasswordHash {userId : Int} {passwordHash : String} (hPast : insertedSessions past = [])
    {Z : Exception → List (Act World Event) → Prop} :
    Tells (UserRepository.setPasswordHash userId passwordHash) past
      (fun _ past' => insertedSessions past' = []) Z := by
  unfold UserRepository.setPasswordHash
  cases hGuard : (decide (userId ≤ 0) || passwordHash.isEmpty) with
  | true =>
    rw [if_pos rfl]
    exact Fallible.leads_pure hPast
  | false =>
    rw [if_neg Bool.false_ne_true]
    refine leads_statement (admissible_tells Z) (fun _ => rfl) (fun env act past₁ hPast₁ hEvents _ => ⟨trivial, ?_⟩)
    rw [insertedSessions_eq] at hPast ⊢
    rw [written_cons, List.filterMap_append, hPast₁.written, hPast, hEvents]
    cases act.before.database.userExists userId <;> rfl

/-- How a login ends that has found the password right. -/
theorem tells_openSession {user : User} {login password : String} (hPast : written past = []) :
    Tells (service.openSession user login password) past (OneSession service) NoSession := by
  refine tells_throwIf (fun _ => noSession_of_written _ hPast) (fun _ => ?_)
  -- the rest of the call, from the point where the hash needs no upgrade or has got one
  have hRest : ∀ past₁, insertedSessions past₁ = [] → Tells (do
      withProtector service.process (fun _ protector => ((), protector.recordSuccess login))
      let now ← currentUnixTime
      let tokens ← service.issueTokens user.id now
      pure (⟨user, tokens⟩ : LoginResult)) past₁ (OneSession service) NoSession := by
    intro past₁ hPast₁
    refine Fallible.leads_bind (leads_withProtector (admissible_tells _) (fun _ past₂ hPast₂ => ?_))
    refine Fallible.leads_bind (leads_currentUnixTime (admissible_tells _) (fun now past₃ hPast₃ => ?_))
    rw [insertedSessions_eq, ← hPast₂.written, ← hPast₃.written] at hPast₁
    refine Fallible.leads_bind (Fallible.Leads.mono tells_issueTokens (fun _ _ h => h) ?_ ?_)
    · rintro tokens past₄ ⟨row, hWritten, hOwner, hTokens⟩
      refine Fallible.leads_pure ⟨row, ?_, hOwner, hTokens⟩
      rw [insertedSessions_eq, hWritten, List.filterMap_cons, hPast₁]
      rfl
    · intro e past₄ hThrown hOwn
      obtain ⟨rfl, hWritten⟩ := hThrown hOwn
      refine ⟨?_, fun h => absurd rfl h⟩
      rw [insertedSessions_eq, hWritten, hPast₁]
  refine tells_bind (tells_silent (leads_needsRehash (K := fun _ _ => True) (fun _ => trivial))
    (fun e _ hSince => noSession_of_written e ((written_of_since hSince).trans hPast))) ?_
  rintro needed past₁ ⟨-, hSince⟩
  have hPast₁ := (written_of_since hSince).trans hPast
  have hNone₁ := insertedSessions_of_written hPast₁
  cases needed with
  | false => exact hRest past₁ hNone₁
  | true =>
    refine tells_bind (tells_silent (leads_hash (K := fun _ _ => True) admissible_silent (fun _ _ _ _ => trivial))
      (fun e _ hSince => noSession_of_written e ((written_of_since hSince).trans hPast₁))) ?_
    rintro upgradedHash past₂ ⟨-, hSince⟩
    have hNone₂ := insertedSessions_of_written ((written_of_since hSince).trans hPast₁)
    refine tells_bind (tells_setPasswordHash hNone₂) (fun updated past₃ hNone₃ => ?_)
    exact tells_throwIf_fault rfl (hRest past₃ hNone₃)

theorem tells_login {login password clientIp : String} :
    Tells (service.login login password clientIp) [] (OneSession service) NoSession := by
  have hReject : ∀ (name address : String) (past' : List (Act World Event)), written past' = [] →
      Tells (service.rejectLogin name address) past' (OneSession service) NoSession := by
    intro name address past' hPast'
    refine Fallible.leads_bind (leads_withProtector (admissible_tells _) (fun afterFailure past₁ hPast₁ => ?_))
    have hWritten := hPast₁.written.trans hPast'
    exact tells_throwIf (fun _ => noSession_of_written _ hWritten)
      (fun _ => tells_throw (noSession_of_written _ hWritten))
  refine tells_throwIf (fun _ => noSession_of_written _ rfl) (fun _ => ?_)
  refine Fallible.leads_bind (leads_withProtector (admissible_tells _) (fun beforeAttempt past₁ hPast₁ => ?_))
  have hWritten₁ : written past₁ = [] := hPast₁.written
  refine tells_throwIf (fun _ => noSession_of_written _ hWritten₁) (fun _ => ?_)
  refine tells_bind (tells_silent (leads_findByLogin (K := fun _ _ => True) admissible_silent
    (fun _ _ _ _ => trivial) (fun _ _ _ _ _ _ => trivial))
    (fun e _ hSince => noSession_of_written e ((written_of_since hSince).trans hWritten₁))) ?_
  rintro found past₂ ⟨-, hSince₂⟩
  have hWritten₂ := (written_of_since hSince₂).trans hWritten₁
  refine tells_bind (tells_silent (leads_verify (K := fun _ _ => True) admissible_silent (fun _ _ => trivial))
    (fun e _ hSince => noSession_of_written e ((written_of_since hSince).trans hWritten₂))) ?_
  rintro passwordValid past₃ ⟨-, hSince₃⟩
  have hWritten₃ := (written_of_since hSince₃).trans hWritten₂
  cases found with
  | none => exact hReject _ _ _ hWritten₃
  | some user =>
    cases passwordValid with
    | false => exact hReject _ _ _ hWritten₃
    | true => exact tells_openSession hWritten₃

end login

end SecureCore
