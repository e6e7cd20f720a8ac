import SecureCore.Http.AuditRoutes
import SecureCore.Http.Sample
import SecureCore.Http.Stages
import SecureCore.Net.AcceptedHeaders

/-! # The audit log over a run

Requests store what their handlers record, secure-admin stores its own events, and a start
of the server deletes old ones. -/

namespace SecureCore

set_option autoImplicit false

open Relational TrustedProxy

/-! ## Runs -/

/-- The context that the first middleware sets up for the handlers. -/
def requestAuditContext (source : RequestIdSource) (context : RequestContext) : RequestAuditContext :=
  ⟨resolveRequestId context.request source, String.ofList context.clientIp,
    String.ofList ((Fields.find context.request.fields "User-Agent").getD [])⟩

/-- The commands of secure-admin that write an event. -/
inductive AdminCommand where
  | promote
  | demote
  | assignRole
  | revokeRole
  | enable
  | disable
  deriving DecidableEq, Repr

def AdminCommand.name : AdminCommand → String
  | .promote => "promote"
  | .demote => "demote"
  | .assignRole => "assign-role"
  | .revokeRole => "revoke-role"
  | .enable => "enable"
  | .disable => "disable"

/-- What write_audit of secure-admin stores. -/
def adminAuditEvent (command : AdminCommand) (targetId : Int) (metadata : String) : CreateAuditEvent :=
  ⟨none, "admin.cli." ++ command.name, "success", "user", some targetId, "secure-admin", "local",
    "secure-admin", metadata⟩

inductive AuditStep where
  /-- A handler records a call of a request from a peer. -/
  | recorded (call : AuditedCall) (request : HttpMessage) (peer : Address) (source : RequestIdSource)
      (stored : Stored) (createdAt : Strftime)
  | administered (command : AdminCommand) (targetId : Int) (metadata : String) (stored : Stored)
      (createdAt : Strftime)
  | purged (retentionDays : Int) (cutoff : Strftime)

section run

variable (json : JsonLibrary) (config : SessionConfig)

def auditContextOf (request : HttpMessage) (peer : Address) (source : RequestIdSource) :
    RequestAuditContext :=
  requestAuditContext source (contextOf config (config.text.toText peer) request)

def AuditStep.apply (events : Table AuditEvent) : AuditStep → Table AuditEvent
  | .recorded call request peer source stored createdAt =>
    match call.record json with
    | none => events
    | some record =>
      AuditService.record events record (some (auditContextOf config request peer source)) stored createdAt
  | .administered command targetId metadata stored createdAt =>
    (AuditRepository.create events (adminAuditEvent command targetId metadata) stored createdAt).2
  | .purged retentionDays cutoff => (AuditRepository.deleteOlderThanDays events retentionDays cutoff).2

def auditRun (steps : List AuditStep) : Table AuditEvent :=
  steps.foldl (AuditStep.apply json config) Table.empty

end run

/-! ## Agents -/

/-- The first 512 bytes of an agent that are no control bytes are UTF-8. -/
def ReadableAgent (agent : List Char) : Prop :=
  ValidUtf8 (String.ofList ((agent.filter isPrintable).take 512))

/-- An agent of at most 512 bytes is readable if it is UTF-8. -/
theorem readableAgent_of_valid {agent : List Char} (hBytes : ∀ c ∈ agent, c.toNat < 256)
    (hLength : agent.length ≤ 512) (h : ValidUtf8 (String.ofList agent)) : ReadableAgent agent := by
  have hFiltered : (agent.filter isPrintable).map (fun c => UInt8.ofNat c.toNat) =
      (agent.map (fun c => UInt8.ofNat c.toNat)).filter (fun b => !(b < 0x20 || b == 0x7f)) := by
    rw [List.filter_map]
    congr 1
    apply List.filter_congr
    intro c hc
    have hByte := hBytes c hc
    have hNat : (UInt8.ofNat c.toNat).toNat = c.toNat := by
      rw [UInt8.toNat_ofNat']
      exact Nat.mod_eq_of_lt hByte
    unfold isPrintable
    rw [Function.comp_apply, Bool.eq_iff_iff]
    simp only [Bool.not_eq_true', Bool.or_eq_false_iff, decide_eq_false_iff_not, beq_eq_false_iff_ne,
      UInt8.lt_iff_toNat_lt, ne_eq, ← UInt8.toNat_inj, hNat]
    rfl
  unfold ReadableAgent
  rw [List.take_of_length_le (Nat.le_trans (List.length_filter_le _ _) hLength)]
  unfold ValidUtf8 bytesOf at h ⊢
  rw [String.toList_ofList] at h ⊢
  rw [hFiltered]
  apply h.filter
  intro b hb
  rw [UInt8.le_iff_toNat_le] at hb
  simp only [Bool.not_eq_true', Bool.or_eq_false_iff, decide_eq_false_iff_not, beq_eq_false_iff_ne,
    UInt8.lt_iff_toNat_lt, ne_eq, ← UInt8.toNat_inj]
  change 128 ≤ b.toNat at hb
  change ¬b.toNat < 32 ∧ ¬b.toNat = 127
  omega

/-- The agent of a request of which an event is stored. -/
def AuditStep.storedAgent (json : JsonLibrary) (config : SessionConfig) : AuditStep → Option (List Char)
  | .recorded call request peer source stored _ =>
    match call.record json with
    | none => none
    | some record =>
      match AuditRepository.validateInput
          (AuditService.input record (some (auditContextOf config request peer source))), stored with
      | .ok (), .created => some ((Fields.find request.fields "User-Agent").getD [])
      | .ok (), .unread _ => some ((Fields.find request.fields "User-Agent").getD [])
      | _, _ => none
  | _ => none

/-! ## Readable events -/

/-- audit_event_json and make_json_response do not throw on the event. -/
def Listable (json : JsonLibrary) (event : AuditEvent) : Prop :=
  ∃ response, makeJsonResponse json 200 (auditEventJson json event) = .ok response

/-- Every event is listable, and so is every page of them. -/
structure ReadableLog (json : JsonLibrary) (events : Table AuditEvent) : Prop where
  event : ∀ event ∈ events.rows, Listable json event
  page : ∀ filter, AuditRepository.validateFilter filter = .ok () →
    ∃ response, listAuditEvents json events filter = .ok response

variable {json : JsonLibrary}

theorem makeJsonResponse_isOk (hJson : json.Documented) (status : Nat) (body : Json) :
    (∃ response, makeJsonResponse json status body = .ok response) ↔
      ∀ text ∈ body.strings, ValidUtf8 text := by
  rw [← hJson.dump_isSome, makeJsonResponse_eq]
  cases json.dump body with
  | none =>
    refine iff_of_false ?_ Bool.false_ne_true
    rintro ⟨_, h⟩
    cases h
  | some text => exact iff_of_true ⟨_, rfl⟩ rfl

/-- The texts of an event beside the agent and the metadata. -/
def AuditEvent.texts (event : AuditEvent) : List String :=
  [event.eventType, event.outcome, event.targetType, event.requestId, event.clientIp, event.createdAt]

def AuditEvent.Sound (event : AuditEvent) : Prop := ∀ text ∈ event.texts, ValidUtf8 text

theorem strings_optionalInteger (value : Option Int) : (optionalInteger value).strings = [] := by
  cases value <;> rfl

/-- The keys of an event in JSON. -/
def auditKeys : List String :=
  ["id", "event_type", "outcome", "target_type", "request_id", "client_ip", "user_agent", "metadata",
    "created_at", "actor_user_id", "target_id"]

theorem validUtf8_auditKeys : ∀ key ∈ auditKeys, ValidUtf8 key := by
  unfold auditKeys
  simp only [List.forall_mem_cons]
  and_intros
  all_goals first
    | exact validUtf8_ofList rfl
    | exact fun _ h => absurd h List.not_mem_nil

theorem validUtf8_metadata (hJson : json.Documented) (metadataJson : String) :
    ∀ text ∈ ((json.parse metadataJson).getD (.object [])).strings, ValidUtf8 text := by
  cases hParsed : json.parse metadataJson with
  | none => exact fun _ h => absurd h List.not_mem_nil
  | some value => exact hJson.parse_strings _ _ hParsed

theorem validUtf8_auditEventJson (hJson : json.Documented) {event : AuditEvent} (h : event.Sound)
    (hAgent : ValidUtf8 event.userAgent) :
    ∀ text ∈ (auditEventJson json event).strings, ValidUtf8 text := by
  have hKeys := validUtf8_auditKeys
  have hMetadata := validUtf8_metadata hJson event.metadataJson
  have hMembers : ∀ text ∈ Json.stringsOfMembers [("id", .integer event.id),
      ("event_type", .string event.eventType), ("outcome", .string event.outcome),
      ("target_type", .string event.targetType), ("request_id", .string event.requestId),
      ("client_ip", .string event.clientIp), ("user_agent", .string event.userAgent),
      ("metadata", (json.parse event.metadataJson).getD (.object [])),
      ("created_at", .string event.createdAt)], ValidUtf8 text := by
    unfold AuditEvent.Sound AuditEvent.texts at h
    unfold auditKeys at hKeys
    simp only [Json.stringsOfMembers, Json.strings, List.forall_mem_cons, List.forall_mem_append,
      List.append_nil, List.nil_append, List.cons_append] at h hKeys ⊢
    simp only [h, hAgent, hKeys, true_and]
    exact ⟨hMetadata, fun _ h => absurd h List.not_mem_nil⟩
  intro text hText
  rcases Json.Members.mem_strings_insert hText with rfl | hTarget | hText
  · exact hKeys _ (by decide)
  · rw [strings_optionalInteger] at hTarget
    cases hTarget
  · rcases Json.Members.mem_strings_insert hText with rfl | hActor | hText
    · exact hKeys _ (by decide)
    · rw [strings_optionalInteger] at hActor
      cases hActor
    · exact hMembers text (Json.Members.mem_strings_ofList hText)

theorem find_userAgent (json : JsonLibrary) (event : AuditEvent) :
    ∃ members, auditEventJson json event = .object members ∧
    Json.Members.find members "user_agent" = some (.string event.userAgent) := by
  refine ⟨_, rfl, ?_⟩
  unfold Json.Members.ofList
  simp only [List.foldl_cons, List.foldl_nil]
  rw [Json.Members.find_insert_of_ne (by decide), Json.Members.find_insert_of_ne (by decide),
    Json.Members.find_insert_of_ne (by decide), Json.Members.find_insert_of_ne (by decide),
    Json.Members.find_insert]

theorem listable_iff (hJson : json.Documented) (event : AuditEvent) (h : event.Sound) :
    Listable json event ↔ ValidUtf8 event.userAgent := by
  unfold Listable
  rw [makeJsonResponse_isOk hJson]
  constructor
  · intro hStrings
    obtain ⟨members, hJsonEvent, hFound⟩ := find_userAgent json event
    rw [hJsonEvent] at hStrings
    exact hStrings _ (Json.Members.strings_of_find hFound List.mem_cons_self)
  · exact validUtf8_auditEventJson hJson h

/-! ## Pages -/

theorem strings_items {items : List AuditEvent} {text : String}
    (h : text ∈ Json.stringsOfItems (items.map (auditEventJson json))) :
    ∃ event ∈ items, text ∈ (auditEventJson json event).strings := by
  induction items with
  | nil => cases h
  | cons event items ih =>
    rw [List.map_cons, Json.stringsOfItems, List.mem_append] at h
    rcases h with hHead | hTail
    · exact ⟨event, List.mem_cons_self, hHead⟩
    · obtain ⟨other, hOther, hText⟩ := ih hTail
      exact ⟨other, List.mem_cons_of_mem _ hOther, hText⟩

/-- A page of listable events is listed. -/
theorem readableLog_of_listable (hJson : json.Documented) {events : Table AuditEvent}
    (h : ∀ event ∈ events.rows, Listable json event) : ReadableLog json events := by
  refine ⟨h, fun filter hFilter => ?_⟩
  have hNames : ∀ name ∈ ["events", "total", "limit", "offset"], ValidUtf8 name := by
    simp only [List.forall_mem_cons]
    exact ⟨validUtf8_ofList rfl, validUtf8_ofList rfl, validUtf8_ofList rfl, validUtf8_ofList rfl,
      fun _ h => absurd h List.not_mem_nil⟩
  unfold listAuditEvents AuditService.listEvents AuditRepository.list AuditRepository.count
  rw [hFilter]
  refine (makeJsonResponse_isOk hJson 200 _).mpr ?_
  intro text hText
  have hIn := Json.Members.mem_strings_ofList hText
  simp only [Json.stringsOfMembers, Json.strings, List.mem_cons, List.mem_append, List.not_mem_nil,
    or_false, List.nil_append] at hIn
  rcases hIn with rfl | hItems | rfl | rfl | rfl
  · exact hNames _ (by decide)
  · obtain ⟨event, hEvent, hIn⟩ := strings_items hItems
    have hRow := List.mem_of_mem_filter (List.mem_reverse.mp (List.mem_of_mem_drop (List.mem_of_mem_take hEvent)))
    exact (makeJsonResponse_isOk hJson 200 _).mp (h event hRow) text hIn
  · exact hNames _ (by decide)
  · exact hNames _ (by decide)
  · exact hNames _ (by decide)

/-- An event that is not listable takes every page with it that it is on. -/
theorem listAuditEvents_unlistable (hJson : json.Documented) {events : Table AuditEvent}
    {filter : AuditEventFilter} {page : List AuditEvent}
    (hPage : AuditRepository.list events filter = .ok page) {event : AuditEvent} (hEvent : event ∈ page)
    (h : ¬Listable json event) : listAuditEvents json events filter = .error invalidUtf8 := by
  have hItems : ∀ {items : List AuditEvent}, event ∈ items →
      ∀ text ∈ (auditEventJson json event).strings,
        text ∈ Json.stringsOfItems (items.map (auditEventJson json)) := by
    intro items hMem text hText
    induction items with
    | nil => cases hMem
    | cons first items ih =>
      rw [List.map_cons, Json.stringsOfItems, List.mem_append]
      obtain rfl | hMem := List.mem_cons.mp hMem
      · exact .inl hText
      · exact .inr (ih hMem)
  have hFilter : AuditRepository.validateFilter filter = .ok () := by
    unfold AuditRepository.list at hPage
    cases hValid : AuditRepository.validateFilter filter with
    | ok checked => rfl
    | error e =>
      rw [hValid] at hPage
      cases hPage
  unfold listAuditEvents AuditService.listEvents AuditRepository.count
  rw [hPage, hFilter]
  change makeJsonResponse json 200 _ = _
  rw [makeJsonResponse_eq]
  cases hDump : json.dump _ with
  | none => rfl
  | some text =>
    have hStrings := (hJson.dump_isSome _).mp (by rw [hDump]; rfl)
    refine absurd ((makeJsonResponse_isOk hJson 200 _).mpr (fun text hText => ?_)) h
    apply hStrings
    have hFound : ∀ (items : Json) (a b c : Json), Json.Members.find (Json.Members.ofList
        [("events", items), ("total", a), ("limit", b), ("offset", c)]) "events" = some items := by
      intro items a b c
      unfold Json.Members.ofList
      simp only [List.foldl_cons, List.foldl_nil]
      rw [Json.Members.find_insert_of_ne (by decide), Json.Members.find_insert_of_ne (by decide),
        Json.Members.find_insert_of_ne (by decide), Json.Members.find_insert]
    have hIn : text ∈ (Json.array (page.map (auditEventJson json))).strings := hItems hEvent text hText
    exact Json.Members.strings_of_find (hFound _ _ _ _) hIn

/-! ## What is stored -/

/-- The words of the recorded events. -/
def auditWords : List String :=
  ["user.register", "auth.login", "auth.login_throttled", "auth.refresh", "auth.refresh_reuse",
    "auth.logout", "auth.logout_all", "account.session_revoke", "account.password_change",
    "admin.user_enable", "admin.user_disable", "rbac.role_assign", "rbac.role_revoke",
    "audit.events.read", "success", "failure", "user", "authentication_session", "audit_event"]

theorem validUtf8_auditWords : ∀ word ∈ auditWords, ValidUtf8 word := by
  unfold auditWords
  simp only [List.forall_mem_cons]
  and_intros
  all_goals first
    | exact validUtf8_ofList rfl
    | exact fun _ h => absurd h List.not_mem_nil

/-- A record as the handlers make them: its words are known, the request fills in the rest. -/
structure Issued (record : AuditRecord) : Prop where
  words : ∀ text ∈ [record.eventType, record.outcome, record.targetType], text ∈ auditWords
  requestId : record.requestId = ""
  clientIp : record.clientIp = ""
  userAgent : record.userAgent = ""

theorem issued_auditRecord {actorUserId targetId : Option Int} {eventType outcome targetType : String}
    {metadata : List (String × Json)} {record : AuditRecord}
    (h : auditRecord json actorUserId eventType outcome targetType targetId metadata = some record)
    (hWords : ∀ text ∈ [eventType, outcome, targetType], text ∈ auditWords) : Issued record := by
  unfold auditRecord at h
  rw [Option.map_eq_some_iff] at h
  obtain ⟨text, -, rfl⟩ := h
  exact ⟨hWords, rfl, rfl, rfl⟩

theorem issued_of_record {call : AuditedCall} {record : AuditRecord} (h : call.record json = some record) :
    Issued record := by
  cases call with
  | register result =>
    cases result <;> exact issued_auditRecord h (by decide)
  | login result =>
    cases result with
    | ok userId => exact issued_auditRecord h (by decide)
    | error refusal =>
      refine issued_auditRecord h ?_
      split <;> decide
  | refresh result =>
    cases result with
    | ok userId => exact issued_auditRecord h (by decide)
    | error code =>
      refine issued_auditRecord h ?_
      split <;> decide
  | logout userId revoked => cases revoked <;> exact issued_auditRecord h (by decide)
  | logoutAll result => cases result <;> exact issued_auditRecord h (by decide)
  | revokeSession sessionId result => cases result <;> exact issued_auditRecord h (by decide)
  | changePassword result => cases result <;> exact issued_auditRecord h (by decide)
  | setUserEnabled userId enabled result =>
    cases result <;> cases enabled <;> exact issued_auditRecord h (by decide)
  | assignRole userId role result => cases result <;> exact issued_auditRecord h (by decide)
  | revokeRole userId role result => cases result <;> exact issued_auditRecord h (by decide)
  | listEvents administratorId returned offset limit => exact issued_auditRecord h (by decide)

theorem validUtf8_sanitizeText {value : String} (h : ∀ c ∈ value.toList, c.toNat < 128) (maximumSize : Nat) :
    ValidUtf8 (sanitizeText value maximumSize) := by
  apply validUtf8_of_ascii
  intro c hc
  unfold sanitizeText at hc
  rw [String.toList_ofList] at hc
  exact h c (List.mem_of_mem_filter (List.mem_of_mem_take hc))

theorem ascii_requestId {requestId : String} (h : isValidRequestId requestId = true) :
    ∀ c ∈ requestId.toList, c.toNat < 128 := by
  simp only [isValidRequestId, Bool.and_eq_true, List.all_eq_true] at h
  exact fun c hc => toNat_lt_of_requestId (h.2 c hc)

section context

variable {config : SessionConfig}

/-- The client is known by the text of an address. -/
theorem clientIp_contextOf (config : SessionConfig) (request : HttpMessage) (peer : Address) : ∃ address,
    (contextOf config (config.text.toText peer) request).clientIp = config.text.toText address := by
  unfold contextOf
  cases hResolved : config.trustedProxyResolver.resolve config.text (config.text.toText peer)
    request.fields false with
  | error e => exact ⟨peer, rfl⟩
  | ok client =>
    unfold TrustedProxyResolver.resolve at hResolved
    split at hResolved
    · cases hResolved
      exact ⟨peer, rfl⟩
    · split at hResolved
      · cases hResolved
        exact ⟨_, rfl⟩
      · obtain ⟨headers, -, hResolved⟩ := bind_eq_ok.mp hResolved
        obtain ⟨values, -, hResolved⟩ := bind_eq_ok.mp hResolved
        simp only at hResolved
        split at hResolved
        · cases hResolved
          exact ⟨_, rfl⟩
        · cases hResolved
          exact ⟨_, rfl⟩

/-- The context fills in what the handlers leave empty. -/
theorem input_issued {record : AuditRecord} (h : Issued record) (context : RequestAuditContext) :
    AuditService.input record (some context) = ⟨record.actorUserId, record.eventType, record.outcome,
      record.targetType, record.targetId, sanitizeText context.requestId 128,
      sanitizeText context.clientIp 128, sanitizeText context.userAgent 512, record.metadataJson⟩ := by
  unfold AuditService.input AuditService.complete
  simp only [Option.map_some, Option.getD_some, h.requestId, h.clientIp, h.userAgent]
  rfl

theorem sound_recorded (hText : ∀ address, ∀ c ∈ config.text.toText address, c.toNat < 128)
    {record : AuditRecord} (h : Issued record) (request : HttpMessage) (peer : Address)
    (source : RequestIdSource) (createdAt : Strftime) :
    (AuditRepository.row (AuditService.input record (some (auditContextOf config request peer source)))
      createdAt).Sound := by
  obtain ⟨address, hAddress⟩ := clientIp_contextOf config request peer
  have hRequestId := validUtf8_sanitizeText (ascii_requestId (resolveRequestId_valid request source)) 128
  have hClientIp : ValidUtf8 (sanitizeText (auditContextOf config request peer source).clientIp 128) := by
    apply validUtf8_sanitizeText
    unfold auditContextOf requestAuditContext
    rw [hAddress, String.toList_ofList]
    exact hText address
  have hWords := h.words
  rw [input_issued h]
  unfold AuditEvent.Sound AuditEvent.texts AuditRepository.row
  simp only [List.forall_mem_cons] at hWords ⊢
  exact ⟨validUtf8_auditWords _ hWords.1, validUtf8_auditWords _ hWords.2.1,
    validUtf8_auditWords _ hWords.2.2.1, hRequestId, hClientIp, validUtf8_of_ascii createdAt.2,
    fun _ h => absurd h List.not_mem_nil⟩

theorem userAgent_recorded (config : SessionConfig) {record : AuditRecord} (h : Issued record)
    (request : HttpMessage)
    (peer : Address) (source : RequestIdSource) (createdAt : Strftime) :
    ValidUtf8 (AuditRepository.row (AuditService.input record (some (auditContextOf config request peer
      source))) createdAt).userAgent ↔
        ReadableAgent ((Fields.find request.fields "User-Agent").getD []) := by
  rw [input_issued h]
  unfold AuditRepository.row auditContextOf requestAuditContext sanitizeText ReadableAgent
  simp only [String.toList_ofList]
  rfl

end context

theorem sound_administered (command : AdminCommand) (targetId : Int) (metadata : String)
    (createdAt : Strftime) :
    (AuditRepository.row (adminAuditEvent command targetId metadata) createdAt).Sound ∧
      ValidUtf8 (AuditRepository.row (adminAuditEvent command targetId metadata) createdAt).userAgent := by
  have hWords : ∀ command : AdminCommand, ∀ text ∈ ["admin.cli." ++ command.name, "success", "user",
      "secure-admin", "local"], ValidUtf8 text := by
    intro command
    cases command <;> decide +kernel
  have hOwn := hWords command
  simp only [List.forall_mem_cons] at hOwn
  constructor
  · unfold AuditEvent.Sound AuditEvent.texts AuditRepository.row adminAuditEvent
    simp only [List.forall_mem_cons]
    exact ⟨hOwn.1, hOwn.2.1, hOwn.2.2.1, hOwn.2.2.2.1, hOwn.2.2.2.2.1, validUtf8_of_ascii createdAt.2,
      fun _ h => absurd h List.not_mem_nil⟩
  · exact hOwn.2.2.2.1

/-! ## Steps and runs -/

section steps

variable {config : SessionConfig} {events : Table AuditEvent}

theorem create_cases (events : Table AuditEvent) (input : CreateAuditEvent) (stored : Stored)
    (createdAt : Strftime) :
    (AuditRepository.create events input stored createdAt).2 = events ∨
      (AuditRepository.create events input stored createdAt).2 =
        events.insert (AuditRepository.row input createdAt) := by
  unfold AuditRepository.create
  split
  · exact .inl rfl
  · exact .inl rfl
  · exact .inr rfl
  · exact .inr rfl

theorem listable_withKey (event : AuditEvent) (id : Int) (hJson : json.Documented) (h : event.Sound) :
    Listable json (Keyed.withKey id event) ↔ ValidUtf8 event.userAgent :=
  listable_iff hJson (Keyed.withKey id event) h

/-- A step stores one event with known texts, or none at all. -/
theorem apply_cases (json : JsonLibrary) (hText : ∀ address, ∀ c ∈ config.text.toText address, c.toNat < 128)
    (events : Table AuditEvent) (step : AuditStep) :
    step.storedAgent json config = none ∧
        (∀ event ∈ (step.apply json config events).rows, event ∈ events.rows) ∨
      ∃ row, step.apply json config events = events.insert row ∧ row.Sound ∧
        (ValidUtf8 row.userAgent ↔ ∀ agent ∈ step.storedAgent json config, ReadableAgent agent) := by
  cases step with
  | recorded call request peer source stored createdAt =>
    simp only [AuditStep.apply, AuditStep.storedAgent]
    cases hRecord : call.record json with
    | none => exact .inl ⟨rfl, fun _ h => h⟩
    | some record =>
      have hIssued := issued_of_record hRecord
      have hSound := sound_recorded hText hIssued request peer source createdAt
      have hAgent := userAgent_recorded config hIssued request peer source createdAt
      simp only [AuditService.record, AuditRepository.create]
      cases AuditRepository.validateInput
          (AuditService.input record (some (auditContextOf config request peer source))) with
      | error e => exact .inl ⟨rfl, fun _ h => h⟩
      | ok checked =>
        cases stored with
        | refused e => exact .inl ⟨rfl, fun _ h => h⟩
        | created => exact .inr ⟨_, rfl, hSound, hAgent.trans (by simp)⟩
        | unread e => exact .inr ⟨_, rfl, hSound, hAgent.trans (by simp)⟩
  | administered command targetId metadata stored createdAt =>
    obtain ⟨hSound, hAgent⟩ := sound_administered command targetId metadata createdAt
    rcases create_cases events (adminAuditEvent command targetId metadata) stored createdAt with hSame | hNew
    · left
      refine ⟨rfl, fun event hEvent => ?_⟩
      rw [AuditStep.apply, hSame] at hEvent
      exact hEvent
    · exact .inr ⟨_, hNew, hSound, iff_of_true hAgent (fun _ h => nomatch h)⟩
  | purged retentionDays cutoff =>
    left
    refine ⟨rfl, fun event hEvent => ?_⟩
    rw [AuditStep.apply, AuditRepository.deleteOlderThanDays] at hEvent
    split at hEvent
    · exact hEvent
    · exact (Table.mem_delete.mp hEvent).1

/-- The log stays listable over a step if and only if the agent of the step is readable. -/
theorem apply_listable_iff (hJson : json.Documented)
    (hText : ∀ address, ∀ c ∈ config.text.toText address, c.toNat < 128)
    (hEvents : ∀ event ∈ events.rows, Listable json event) (step : AuditStep) :
    (∀ event ∈ (step.apply json config events).rows, Listable json event) ↔
      ∀ agent ∈ step.storedAgent json config, ReadableAgent agent := by
  rcases apply_cases json hText events step with ⟨hNone, hKept⟩ | ⟨row, hNew, hSound, hAgent⟩
  · rw [hNone]
    exact iff_of_true (fun event hEvent => hEvents event (hKept event hEvent)) (fun _ h => nomatch h)
  · rw [hNew, ← hAgent, ← listable_withKey row events.nextKey hJson hSound]
    constructor
    · intro h
      exact h _ (Table.mem_insert.mpr (.inr rfl))
    · intro h event hEvent
      rcases Table.mem_insert.mp hEvent with hOld | rfl
      · exact hEvents event hOld
      · exact h

theorem auditRun_listable (hJson : json.Documented)
    (hText : ∀ address, ∀ c ∈ config.text.toText address, c.toNat < 128) {steps : List AuditStep}
    (hSteps : ∀ step ∈ steps, ∀ agent ∈ step.storedAgent json config, ReadableAgent agent)
    (hEvents : ∀ event ∈ events.rows, Listable json event) :
    ∀ event ∈ (steps.foldl (AuditStep.apply json config) events).rows, Listable json event := by
  induction steps generalizing events with
  | nil => exact hEvents
  | cons step steps ih =>
    rw [List.foldl_cons]
    apply ih (fun other hOther => hSteps other (List.mem_cons_of_mem _ hOther))
    exact (apply_listable_iff hJson hText hEvents step).mpr (hSteps step List.mem_cons_self)

end steps

/-- The log stays readable as long as no event is stored for an agent that is not. -/
theorem audit_log_readable_iff (hJson : json.Documented) {config : SessionConfig}
    (hText : ∀ address, ∀ c ∈ config.text.toText address, c.toNat < 128) (steps : List AuditStep) :
    (∀ n, ReadableLog json (auditRun json config (steps.take n))) ↔
      ∀ step ∈ steps, ∀ agent ∈ step.storedAgent json config, ReadableAgent agent := by
  constructor
  · intro h step hStep
    obtain ⟨n, hn, rfl⟩ := List.mem_iff_getElem.mp hStep
    have hAfter := (h (n + 1)).event
    unfold auditRun at hAfter
    rw [List.take_succ_eq_append_getElem hn, List.foldl_append, List.foldl_cons, List.foldl_nil] at hAfter
    exact (apply_listable_iff hJson hText (h n).event steps[n]).mp hAfter
  · intro h n
    apply readableLog_of_listable hJson
    apply auditRun_listable hJson hText
    · exact fun step hStep => h step (List.mem_of_mem_take hStep)
    · exact fun event hEvent => absurd hEvent List.not_mem_nil

/-! ## A login from an agent that is not UTF-8 -/

namespace Sample

theorem ascii_octet (n : Nat) : ∀ c ∈ (toString n).toList, c.toNat < 128 := by
  intro c hc
  have hDigit : c ∈ Nat.toDigits 10 n := by
    rw [← Nat.toList_repr]
    exact hc
  have hIsDigit := Nat.isDigit_of_mem_toDigits (by decide) (by decide) hDigit
  apply toNat_lt_of_alphanum
  unfold Char.isAlphanum
  rw [hIsDigit, Bool.or_true]

theorem ascii_dottedQuads : ∀ address, ∀ c ∈ dottedQuads.toText address, c.toNat < 128 := by
  intro address c hc
  cases address with
  | v4 value =>
    simp only [dottedQuads, List.mem_append, List.mem_cons, or_assoc] at hc
    rcases hc with hc | rfl | hc | rfl | hc | rfl | hc
    · exact ascii_octet _ c hc
    · decide
    · exact ascii_octet _ c hc
    · decide
    · exact ascii_octet _ c hc
    · decide
    · exact ascii_octet _ c hc
  | v6 bytes scopeId => cases hc

theorem ascii_of_all {text : List Char} (h : text.all (fun c => c.toNat < 128) = true) :
    ∀ c ∈ text, c.toNat < 128 := fun c hc => of_decide_eq_true (List.all_eq_true.mp h c hc)

/-- A failed login by an agent. -/
def failedLogin (agent : List Char) : AuditStep :=
  .recorded (.login (.error (.invalidCredentials, 0)))
    ⟨11, "POST", "/v1/auth/login".toList, [⟨"User-Agent", agent⟩], "{}"⟩ (.v4 0xc0000201#32) ⟨1, 1⟩
    .created ⟨"2026-01-01T00:00:00.000Z", ascii_of_all (by decide)⟩

def firstPage : AuditEventFilter := ⟨none, "", "", 50, 0⟩

theorem bytes_ofList (chars : List Char) : bytesOf (String.ofList chars) =
    chars.map (fun c => UInt8.ofNat c.toNat) := by
  rw [bytesOf, String.toList_ofList]

/-- Letters and then a byte that begins a longer character. -/
theorem not_readableAgent {agent front : List Char} {last : Char}
    (hKept : (agent.filter isPrintable).take 512 = front ++ [last])
    (hFront : ∀ c ∈ front, c.toNat < 128) (hLast : 128 ≤ UInt8.ofNat last.toNat) :
    ¬ ReadableAgent agent := by
  unfold ReadableAgent ValidUtf8
  rw [hKept, bytes_ofList, List.map_append, List.map_singleton]
  apply Utf8.not_valid_concat _ hLast
  intro b hb
  obtain ⟨c, hc, rfl⟩ := List.mem_map.mp hb
  have hLess := hFront c hc
  rw [UInt8.lt_iff_toNat_lt, UInt8.toNat_ofNat']
  change c.toNat % 256 < 128
  omega

theorem length_sanitizeText_le (text : String) (maximumSize : Nat) :
    (sanitizeText text maximumSize).length ≤ maximumSize := by
  unfold sanitizeText
  rw [String.length_ofList]
  exact List.length_take_le _ _

/-- The event of a failed login is stored, whatever the agent. -/
theorem storedAgent_failedLogin (agent : List Char) :
    (failedLogin agent).storedAgent compactJson sessionConfig = some agent := by
  obtain ⟨record, hRecord, hOwn⟩ : ∃ record,
      (AuditedCall.login (.error (.invalidCredentials, 0))).record compactJson = some record ∧
        (record.eventType.length, record.outcome, record.targetType.length,
          record.metadataJson.length) = (10, "failure", 4, 32) := by
    decide +kernel
  simp only [Prod.mk.injEq] at hOwn
  obtain ⟨hType, hOutcome, hTarget, hMetadata⟩ := hOwn
  have hIssued := issued_of_record hRecord
  have hChecked : ∀ context, AuditRepository.validateInput
      (AuditService.input record (some context)) = .ok () := by
    intro context
    have hRequestId := length_sanitizeText_le context.requestId 128
    have hClientIp := length_sanitizeText_le context.clientIp 128
    have hUserAgent := length_sanitizeText_le context.userAgent 512
    have hSome : record.eventType.isEmpty = false ∧ record.metadataJson.isEmpty = false := by
      constructor
      · rw [← Bool.not_eq_true, String.isEmpty_iff]
        rintro hEmpty
        simp [hEmpty] at hType
      · rw [← Bool.not_eq_true, String.isEmpty_iff]
        rintro hEmpty
        simp [hEmpty] at hMetadata
    simp [input_issued hIssued, AuditRepository.validateInput, hSome, hType, hOutcome, hTarget, hMetadata,
      Nat.not_lt.mpr hRequestId, Nat.not_lt.mpr hClientIp, Nat.not_lt.mpr hUserAgent]
  have hName : iequals "User-Agent" "User-Agent" = true := by decide +kernel
  simp only [failedLogin, AuditStep.storedAgent, hRecord, hChecked]
  simp [Fields.find, Fields.valuesOf, hName]

theorem listed_failedLogin {agent : List Char} (h : ¬ ReadableAgent agent) :
    listAuditEvents compactJson (auditRun compactJson sessionConfig [failedLogin agent]) firstPage =
      .error invalidUtf8 := by
  have hStored := storedAgent_failedLogin agent
  have hText : ∀ address, ∀ c ∈ sessionConfig.text.toText address, c.toNat < 128 := ascii_dottedQuads
  obtain ⟨hNone, -⟩ | ⟨row, hRun, hSound, hAgent⟩ :=
    apply_cases compactJson hText Table.empty (failedLogin agent)
  · rw [hStored] at hNone
    cases hNone
  · have hUnlistable : ¬ Listable compactJson (Keyed.withKey 1 row) := by
      rw [listable_withKey row 1 compactJson_documented hSound, hAgent, hStored]
      intro hReadable
      exact h (hReadable agent rfl)
    have hEvents : auditRun compactJson sessionConfig [failedLogin agent] =
        Table.empty.insert row := hRun
    rw [hEvents]
    exact listAuditEvents_unlistable compactJson_documented rfl List.mem_cons_self hUnlistable

def thrownBy : Except Thrown HttpResponse → Option Thrown
  | .ok _ => none
  | .error thrown => some thrown

end Sample

/-- One byte from ISO 8859-1, or a character of two bytes that the cut at 512 splits. -/
theorem audit_log_unreadable :
    Sample.thrownBy (listAuditEvents Sample.compactJson (auditRun Sample.compactJson Sample.sessionConfig
        [Sample.failedLogin "agent\u00e9".toList]) Sample.firstPage) = some invalidUtf8 ∧
      Sample.thrownBy (listAuditEvents Sample.compactJson (auditRun Sample.compactJson Sample.sessionConfig
        [Sample.failedLogin (List.replicate 511 'a' ++ ['\u00c3', '\u00a9'])])
          Sample.firstPage) = some invalidUtf8 := by
  have hShort : ¬ ReadableAgent "agent\u00e9".toList := by
    have hKept : (("agent\u00e9".toList).filter isPrintable).take 512 = "agent".toList ++ ['\u00e9'] := by
      decide +kernel
    exact Sample.not_readableAgent hKept (Sample.ascii_of_all (by decide)) (by decide)
  have hLong : ¬ ReadableAgent (List.replicate 511 'a' ++ ['\u00c3', '\u00a9']) := by
    have hKept : ((List.replicate 511 'a' ++ ['\u00c3', '\u00a9']).filter isPrintable).take 512 =
        List.replicate 511 'a' ++ ['\u00c3'] := by
      decide +kernel
    apply Sample.not_readableAgent hKept _ (by decide)
    intro c hc
    rw [List.eq_of_mem_replicate hc]
    decide
  constructor
  · rw [Sample.listed_failedLogin hShort]
    rfl
  · rw [Sample.listed_failedLogin hLong]
    rfl

theorem audit_log_readable_sample :
    (∀ n, ReadableLog Sample.compactJson (auditRun Sample.compactJson Sample.sessionConfig
        ([Sample.failedLogin "agent".toList].take n))) ↔
      ∀ step ∈ [Sample.failedLogin "agent".toList],
        ∀ agent ∈ step.storedAgent Sample.compactJson Sample.sessionConfig, ReadableAgent agent :=
  audit_log_readable_iff Sample.compactJson_documented Sample.ascii_dottedQuads
    [Sample.failedLogin "agent".toList]

end SecureCore
