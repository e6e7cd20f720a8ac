import SecureCore.Http.PathParameters
import SecureCore.Http.RbacRoutes
import SecureCore.System.AuditLog
import SecureCore.System.BuiltInRoles

/-! # What becomes of a revocation

revoke_role_handler puts the role of the path into JSON as it is, also where it reports that
the service has refused. Which roles it can report is settled here. -/

namespace SecureCore

set_option autoImplicit false

open Interleaving

/-! ## Objects of texts -/

/-- Values that are printed in one piece. -/
def isScalar : Json → Bool
  | .null | .boolean _ | .integer _ | .string _ => true
  | _ => false

/-- dump() without an indent puts no blanks between tokens, and escapes quotes, backslashes
and control characters only. -/
def JsonLibrary.DumpsCompactly (json : JsonLibrary) : Prop :=
  ∀ (members : Json.Members) (text : String), (∀ member ∈ members, isScalar member.2 = true) →
    json.dump (.object members) = some text → text = Json.printText (.object members)

/-- How long the text of a value is in JSON. -/
def quotedLength (text : String) : Nat := (Json.printString text).length

theorem roleMembers_reason (role name : String) :
    Json.Members.ofList [("role", .string role), ("reason", .string name)] =
      [("reason", .string name), ("role", .string role)] :=
  Json.Members.insert_of_lt (show "reason" < "role" by decide) [] _

theorem roleMembers_changed (role : String) (changed : Bool) :
    Json.Members.ofList [("role", .string role), ("changed", .boolean changed)] =
      [("changed", .boolean changed), ("role", .string role)] :=
  Json.Members.insert_of_lt (show "changed" < "role" by decide) [] _

theorem length_reason (role name : String) :
    (Json.printText (.object [("reason", .string name), ("role", .string role)])).length =
      quotedLength role + quotedLength name + 19 := by
  have hReason : (Json.printString "reason").length = 8 := rfl
  have hRole : (Json.printString "role").length = 6 := rfl
  rw [Json.printText, String.length_ofList]
  simp only [Json.print, Json.printMembers, Json.separator, List.length_cons, List.length_append,
    hReason, hRole, quotedLength, if_true, if_false, Bool.false_eq_true, List.length_nil]
  omega

theorem length_changed_le (role : String) (changed : Bool) :
    (Json.printText (.object [("changed", .boolean changed), ("role", .string role)])).length ≤
      quotedLength role + 25 := by
  have hChanged : (Json.printString "changed").length = 9 := rfl
  have hRole : (Json.printString "role").length = 6 := rfl
  have hTrue : "true".toList.length = 4 := rfl
  have hFalse : "false".toList.length = 5 := rfl
  rw [Json.printText, String.length_ofList]
  cases changed <;>
    simp only [Json.print, Json.printMembers, Json.separator, List.length_cons, List.length_append,
      hChanged, hRole, hTrue, hFalse, quotedLength, if_true, if_false, Bool.false_eq_true,
      List.length_nil] <;>
    omega

/-! ## Texts that are UTF-8 -/

theorem validUtf8_builtIn : ∀ row ∈ Migration.builtInRoles ++ Migration.builtInPermissions,
    ValidUtf8 row.1 ∧ ValidUtf8 row.2 := by
  have hAscii : ∀ row ∈ Migration.builtInRoles ++ Migration.builtInPermissions,
      row.1.toList.all (fun c => c.toNat < 128) = true ∧ row.2.toList.all (fun c => c.toNat < 128) = true := by
    decide
  intro row hRow
  obtain ⟨hName, hDescription⟩ := hAscii row hRow
  rw [← @String.ofList_toList row.1, ← @String.ofList_toList row.2]
  exact ⟨validUtf8_ofList hName, validUtf8_ofList hDescription⟩

theorem Role.BuiltIn.valid {role : Role} (h : role.BuiltIn) :
    ValidUtf8 role.name ∧ ValidUtf8 role.description :=
  validUtf8_builtIn _ (List.mem_append_left _ h.described)

theorem quotedLength_builtIn {role : String} (h : AdminService.isBuiltInRole role = true) :
    ValidUtf8 role ∧ quotedLength role ≤ 16 := by
  have hShort : ∀ row ∈ Migration.builtInRoles, quotedLength row.1 ≤ 16 := by decide
  obtain ⟨row, hRow, rfl⟩ := List.mem_map.mp (List.contains_iff_mem.mp h)
  exact ⟨(validUtf8_builtIn row (List.mem_append_left _ hRow)).1, hShort row hRow⟩

/-- The strings of an object are those of its members as they are listed. -/
theorem validUtf8_object {members : Json.Members}
    (h : ∀ text ∈ Json.stringsOfMembers members, ValidUtf8 text) :
    ∀ text ∈ (Json.object (Json.Members.ofList members)).strings, ValidUtf8 text := by
  intro text hText
  rw [Json.strings] at hText
  exact h text (Json.Members.mem_strings_ofList hText)

theorem validUtf8_permissionJson {p : Permission}
    (hp : (p.name, p.description) ∈ Migration.builtInPermissions) :
    ∀ text ∈ (permissionJson p).strings, ValidUtf8 text := by
  obtain ⟨hName, hDescription⟩ := validUtf8_builtIn _ (List.mem_append_right _ hp)
  apply validUtf8_object
  simp only [Json.stringsOfMembers, Json.strings, List.nil_append, List.append_nil, List.cons_append,
    List.forall_mem_cons]
  refine ⟨validUtf8_ofList rfl, validUtf8_ofList rfl, hName, validUtf8_ofList rfl, hDescription,
    List.forall_mem_nil _⟩

theorem validUtf8_items {α : Type} {toJson : α → Json} {items : List α}
    (h : ∀ item ∈ items, ∀ text ∈ (toJson item).strings, ValidUtf8 text) :
    ∀ text ∈ Json.stringsOfItems (items.map toJson), ValidUtf8 text := by
  induction items with
  | nil => nofun
  | cons item items ih =>
    obtain ⟨hItem, hItems⟩ := List.forall_mem_cons.mp h
    rw [List.map_cons, Json.stringsOfItems, List.forall_mem_append]
    exact ⟨hItem, ih hItems⟩

theorem validUtf8_roleJson {role : Role} (h : role.BuiltIn) :
    ∀ text ∈ (roleJson role).strings, ValidUtf8 text := by
  obtain ⟨hName, hDescription⟩ := h.valid
  apply validUtf8_object
  simp only [Json.stringsOfMembers, Json.strings, List.nil_append, List.append_nil, List.cons_append,
    List.forall_mem_cons]
  refine ⟨validUtf8_ofList rfl, validUtf8_ofList rfl, hName, validUtf8_ofList rfl, hDescription,
    validUtf8_ofList rfl, validUtf8_ofList rfl, ?_⟩
  exact validUtf8_items (fun p hp => validUtf8_permissionJson (h.permissions p hp))

theorem validUtf8_roleChangeJson {role : String} (hRole : ValidUtf8 role) {result : RoleChangeResult}
    (hRoles : ∀ role ∈ result.roles, role.BuiltIn) :
    ∀ text ∈ (roleChangeJson role result).strings, ValidUtf8 text := by
  apply validUtf8_object
  simp only [Json.stringsOfMembers, rolesJson, Json.strings, List.nil_append, List.append_nil,
    List.cons_append, List.forall_mem_cons]
  refine ⟨validUtf8_ofList rfl, validUtf8_ofList rfl, hRole, validUtf8_ofList rfl,
    validUtf8_ofList rfl, ?_⟩
  exact validUtf8_items (fun role hMem => validUtf8_roleJson (hRoles role hMem))

/-! ## The role of the path -/

theorem decodeComponent_ne_nil {value decoded : List Char} {plusAsSpace : Bool} (hValue : value ≠ [])
    (h : decodeComponent value plusAsSpace = some decoded) : decoded ≠ [] := by
  rintro rfl
  unfold decodeComponent at h
  split at h
  · exact hValue rfl
  · split at h
    · split at h
      · split at h
        · cases h
        · obtain ⟨behind, -, hCons⟩ := Option.map_eq_some_iff.mp h
          cases hCons
      · cases h
    · obtain ⟨behind, -, hCons⟩ := Option.map_eq_some_iff.mp h
      cases hCons

/-- No parameter of a path that matches is empty. -/
theorem matchSegments_ne_nil {segments : List RouteSegment} {texts : List (List Char)}
    {parameters result : RouteParameters}
    (hStart : ∀ name value, parameters.lookup name = some value → value ≠ [])
    (h : matchSegments parameters segments texts = some result) :
    ∀ name value, result.lookup name = some value → value ≠ [] := by
  induction segments generalizing parameters texts with
  | nil =>
    rw [matchSegments] at h
    · cases h
      exact hStart
    · exact fun _ _ _ _ hSegments _ => by cases hSegments
  | cons segment segments ih =>
    cases texts with
    | nil =>
      rw [matchSegments] at h
      · cases h
        exact hStart
      · exact fun _ _ _ _ _ hTexts => by cases hTexts
    | cons text texts =>
      rw [matchSegments] at h
      split at h
      · split at h
        · cases h
        · exact ih hStart h
      · split at h
        · cases h
        · rename_i hText
          split at h
          · cases h
          · rename_i decoded hDecoded
            refine ih ?_ h
            intro name value hLookup
            rw [lookup_emplace] at hLookup
            rcases Option.or_eq_some_iff.mp hLookup with hOld | ⟨-, hNew⟩
            · exact hStart name value hOld
            · split at hNew
              · cases hNew
                exact decodeComponent_ne_nil (by simpa using hText) hDecoded
              · cases hNew

theorem revokeRoleParameters_ne_nil {target : List Char} {parameters : RouteParameters}
    (h : revokeRoleParameters target = some parameters) {name value : List Char}
    (hLookup : parameters.lookup name = some value) : value ≠ [] := by
  unfold revokeRoleParameters at h
  split at h
  · unfold matchPattern at h
    simp only at h
    split at h
    · cases h
    · refine matchSegments_ne_nil ?_ h name value hLookup
      intro other value hOther
      rw [AList.lookup_empty] at hOther
      cases hOther
  · cases h

/-! ## Refusals -/

/-- The exceptions that the handler catches. -/
def Refusal.ofException : Exception → Option Refusal
  | .authError code _ _ => some (.auth code)
  | .adminError code _ => some (.admin code)
  | _ => none

def documentedStatuses : List Nat := [200, 401, 403, 404, 409]

section handler

variable {json : JsonLibrary}

/-- What the handler answers to a refusal. -/
def refusalResponse (json : JsonLibrary) : Refusal → Except Thrown HttpResponse
  | .auth code => authErrorResponse json code
  | .admin code => adminErrorResponse json code
  | _ => .error .unknown

def revocationRefusals : List Refusal :=
  AdminService.revocationErrors.filterMap Refusal.ofException

theorem refusal_of_error {e : Exception} (he : e ∈ AdminService.revocationErrors) :
    ∃ refusal ∈ revocationRefusals, Refusal.ofException e = some refusal := by
  have hEach : ∀ e ∈ AdminService.revocationErrors, (Refusal.ofException e).isSome = true := by decide
  obtain ⟨refusal, hRefusal⟩ := Option.isSome_iff_exists.mp (hEach e he)
  exact ⟨refusal, List.mem_filterMap.mpr ⟨e, he, hRefusal⟩, hRefusal⟩

theorem validUtf8_refusal (refusal : Refusal) : ValidUtf8 refusal.name := by
  rcases refusal with code | code | code | code <;> cases code <;> exact validUtf8_ofList rfl

theorem makeJsonError_status (hJson : json.Documented) (status : Nat) {errorCode : String}
    (hCode : ValidUtf8 errorCode) :
    ∃ response, makeJsonError json status errorCode = .ok response ∧ response.status = status := by
  obtain ⟨text, -, hText⟩ := makeJsonError_ok hJson status hCode
  exact ⟨_, hText, rfl⟩

theorem authErrorResponse_status (hJson : json.Documented) (code : AuthErrorCode) :
    ∃ response, authErrorResponse json code = .ok response ∧ response.status = authErrorStatus code := by
  obtain ⟨response, hResponse, hStatus⟩ :=
    makeJsonError_status hJson (authErrorStatus code) (validUtf8_refusal (.auth code))
  change makeJsonError json (authErrorStatus code) (authErrorName code) = .ok response at hResponse
  rw [authErrorResponse, hResponse]
  refine ⟨_, rfl, ?_⟩
  split
  · exact hStatus
  · exact hStatus

/-- Every refusal of a revocation has a documented status. -/
theorem refusalResponse_status (hJson : json.Documented) {refusal : Refusal}
    (h : refusal ∈ revocationRefusals) :
    ∃ response, refusalResponse json refusal = .ok response ∧ response.status ∈ documentedStatuses := by
  have hListed : revocationRefusals = [.auth .invalidAccessToken, .auth .accessTokenExpired,
      .auth .accountDisabled, .admin .forbidden, .admin .cannotRemoveBaseRole, .admin .userNotFound,
      .admin .roleNotFound, .admin .cannotRemoveLastSuperAdmin] := by decide
  have hAuth : ∀ code, authErrorStatus code ∈ documentedStatuses → ∃ response,
      refusalResponse json (.auth code) = .ok response ∧ response.status ∈ documentedStatuses := by
    intro code hStatus
    obtain ⟨response, hResponse, hSame⟩ := authErrorResponse_status hJson code
    exact ⟨response, hResponse, hSame ▸ hStatus⟩
  have hAdmin : ∀ (status : Nat) (chars : List Char), chars.all (fun c => c.toNat < 128) = true →
      status ∈ documentedStatuses → ∃ response,
        makeJsonError json status (String.ofList chars) = .ok response ∧
          response.status ∈ documentedStatuses := by
    intro status chars hAscii hStatus
    obtain ⟨response, hResponse, hSame⟩ := makeJsonError_status hJson status (validUtf8_ofList hAscii)
    exact ⟨response, hResponse, hSame ▸ hStatus⟩
  rw [hListed] at h
  simp only [List.mem_cons, List.not_mem_nil, or_false] at h
  rcases h with rfl | rfl | rfl | rfl | rfl | rfl | rfl | rfl
  · exact hAuth _ (by decide)
  · exact hAuth _ (by decide)
  · exact hAuth _ (by decide)
  · exact hAdmin 403 _ rfl (by decide)
  · exact hAdmin 409 _ rfl (by decide)
  · exact hAdmin 404 _ rfl (by decide)
  · exact hAdmin 404 _ rfl (by decide)
  · exact hAdmin 409 _ rfl (by decide)

/-! ## The handler -/

theorem outcome_lift {α : Type} (a : α) (rest : α → AuditingHandler HttpResponse) :
    AuditingHandler.outcome (AuditingHandler.lift (.ok a) >>= rest) = AuditingHandler.outcome (rest a) :=
  rfl

theorem outcome_record (record : Option AuditRecord) (response : Except Thrown HttpResponse) :
    AuditingHandler.outcome (do
      AuditingHandler.record record
      AuditingHandler.lift response) =
    match record with
      | some record => (response, [record])
      | none => (.error invalidUtf8, []) := by
  cases record with
  | none => rfl
  | some record => rfl

variable {request : HttpMessage} {parameters : RouteParameters} {token : String} {userId : Int}
variable {role : List Char}

/-- The handler behind the checks of the request. -/
theorem outcome_revokeRoleHandler (json : JsonLibrary)
    (revokeRole : String → Int → String → Except Exception RoleChangeResult) (hToken : bearerToken request = some token)
    (hId : requirePathInteger parameters "id" 1 (2 ^ 63 - 1) = .ok userId)
    (hRole : parameters.lookup "role".toList = some role) (hNonempty : role ≠ [])
    {call : Except Refusal (Int × Bool)} {response : Except Thrown HttpResponse}
    (hService : match revokeRole token userId (String.ofList role) with
      | .ok result => call = .ok (result.administratorId, result.changed) ∧
        response = makeJsonResponse json 200 (roleChangeJson (String.ofList role) result)
      | .error e => ∃ refusal, Refusal.ofException e = some refusal ∧ call = .error refusal ∧
        response = refusalResponse json refusal) :
    (revokeRoleHandler json revokeRole request parameters).outcome =
      match (AuditedCall.revokeRole userId (String.ofList role) call).record json with
        | some record => (response, [record])
        | none => (.error invalidUtf8, []) := by
  obtain ⟨c, rest, rfl⟩ := List.exists_cons_of_ne_nil hNonempty
  unfold revokeRoleHandler
  rw [hToken]
  simp only [hId, hRole, outcome_lift]
  cases hOutcome : revokeRole token userId (String.ofList (c :: rest)) with
  | ok result =>
    rw [hOutcome] at hService
    obtain ⟨rfl, rfl⟩ := hService
    exact outcome_record _ _
  | error e =>
    rw [hOutcome] at hService
    obtain ⟨refusal, hRefusal, rfl, rfl⟩ := hService
    cases e <;> cases hRefusal <;> exact outcome_record _ _

end handler

/-! ## The records -/

theorem metadataJson_input (record : AuditRecord) (context : Option RequestAuditContext) :
    ∃ requestId clientIp userAgent, AuditService.input record context =
      ⟨record.actorUserId, record.eventType, record.outcome, record.targetType, record.targetId,
        sanitizeText requestId 128, sanitizeText clientIp 128, sanitizeText userAgent 512,
        record.metadataJson⟩ := by
  cases context with
  | none => exact ⟨_, _, _, rfl⟩
  | some context => exact ⟨_, _, _, rfl⟩

/-- Whether the repository accepts a record of a revocation is decided by its metadata. -/
theorem validateInput_revocation {record : AuditRecord} (hEvent : record.eventType = "rbac.role_revoke")
    (hOutcome : record.outcome = "success" ∨ record.outcome = "failure")
    (hTarget : record.targetType = "user") (context : Option RequestAuditContext) :
    AuditRepository.validateInput (AuditService.input record context) = .ok () ↔
      1 ≤ record.metadataJson.length ∧ record.metadataJson.length ≤ 8192 := by
  obtain ⟨requestId, clientIp, userAgent, hInput⟩ := metadataJson_input record context
  have hRequestId := Sample.length_sanitizeText_le requestId 128
  have hClientIp := Sample.length_sanitizeText_le clientIp 128
  have hUserAgent := Sample.length_sanitizeText_le userAgent 512
  have hNamed : ("rbac.role_revoke".isEmpty || decide (96 < "rbac.role_revoke".length)) = false := by
    decide
  have hKnown : (record.outcome != "success" && record.outcome != "failure") = false := by
    rcases hOutcome with h | h <;> rw [h] <;> rfl
  have hEmpty : record.metadataJson.isEmpty = decide (record.metadataJson.length = 0) := by
    rw [Bool.eq_iff_iff, String.isEmpty_iff, decide_eq_true_eq, String.length_eq_zero_iff]
  rw [hInput]
  simp only [AuditRepository.validateInput, hEvent, hTarget, hNamed, hKnown, hEmpty,
    Nat.not_lt.mpr hRequestId, Nat.not_lt.mpr hClientIp, Nat.not_lt.mpr hUserAgent, Bool.false_eq_true,
    if_false, show ¬64 < "user".length by decide, Bool.or_eq_true, decide_eq_true_eq]
  split
  · rename_i hRefused
    refine iff_of_false (fun hOk => by cases hOk) ?_
    omega
  · rename_i hAccepted
    refine iff_of_true rfl ?_
    omega

section reported

variable {json : JsonLibrary}

theorem makeJsonResponse_status {status : Nat} {body : Json} {response : HttpResponse}
    (h : makeJsonResponse json status body = .ok response) : response.status = status := by
  rw [makeJsonResponse_eq] at h
  split at h
  · cases h
  · cases h
    rfl

/-- The dump of sorted metadata that are texts or booleans: its text, or nothing. -/
theorem dump_cases (hJson : json.Documented) (hCompact : json.DumpsCompactly) (members : Json.Members)
    (hScalar : ∀ member ∈ members, isScalar member.2 = true) :
    (¬(∀ text ∈ (Json.object members).strings, ValidUtf8 text) ∧ json.dump (.object members) = none) ∨
      ((∀ text ∈ (Json.object members).strings, ValidUtf8 text) ∧
        json.dump (.object members) = some (Json.printText (.object members))) := by
  have hSome := hJson.dump_isSome (.object members)
  cases hDump : json.dump (.object members) with
  | none =>
    rw [hDump, Option.isSome_none] at hSome
    exact .inl ⟨fun hValid => absurd (hSome.mpr hValid) Bool.false_ne_true, rfl⟩
  | some text =>
    rw [hDump, Option.isSome_some] at hSome
    exact .inr ⟨hSome.mp rfl, congrArg some (hCompact members text hScalar hDump)⟩

/-- The record of a refusal: none for a role that is not UTF-8, and one whose metadata grow
with the role else. -/
theorem record_refused (hJson : json.Documented) (hCompact : json.DumpsCompactly) (userId : Int)
    (role : String) (refusal : Refusal) :
    (¬ValidUtf8 role ∧ (AuditedCall.revokeRole userId role (.error refusal)).record json = none) ∨
      (ValidUtf8 role ∧ ∃ metadata, metadata.length = quotedLength role + quotedLength refusal.name + 19 ∧
        (AuditedCall.revokeRole userId role (.error refusal)).record json =
          some ⟨none, "rbac.role_revoke", "failure", "user", some userId, metadata, "", "", ""⟩) := by
  have hRecord : (AuditedCall.revokeRole userId role (.error refusal)).record json =
      (json.dump (.object [("reason", .string refusal.name), ("role", .string role)])).map
        (fun text => ⟨none, "rbac.role_revoke", "failure", "user", some userId, text, "", "", ""⟩) := by
    rw [← roleMembers_reason]
    rfl
  have hStrings : (∀ text ∈ (Json.object [("reason", .string refusal.name), ("role", .string role)]).strings,
      ValidUtf8 text) ↔ ValidUtf8 role := by
    simp only [Json.strings, Json.stringsOfMembers, List.cons_append, List.nil_append,
      List.forall_mem_cons]
    refine ⟨fun h => h.2.2.2.1, fun h => ⟨validUtf8_ofList rfl, validUtf8_refusal refusal, validUtf8_ofList rfl, h,
      List.forall_mem_nil _⟩⟩
  have hScalar : ∀ member ∈ [("reason", Json.string refusal.name), ("role", Json.string role)],
      isScalar member.2 = true := by
    simp only [List.forall_mem_cons]
    exact ⟨rfl, rfl, List.forall_mem_nil _⟩
  rcases dump_cases hJson hCompact _ hScalar with ⟨hInvalid, hDump⟩ | ⟨hValid, hDump⟩
  · rw [hStrings] at hInvalid
    refine .inl ⟨hInvalid, ?_⟩
    rw [hRecord, hDump]
    rfl
  · rw [hStrings] at hValid
    refine .inr ⟨hValid, _, length_reason role refusal.name, ?_⟩
    rw [hRecord, hDump]
    rfl

/-- The record of a role that has been taken away. -/
theorem record_changed (hJson : json.Documented) (hCompact : json.DumpsCompactly)
    (userId administratorId : Int) {role : String} (hRole : ValidUtf8 role) (changed : Bool) :
    ∃ metadata, 1 ≤ metadata.length ∧ metadata.length ≤ quotedLength role + 25 ∧
      (AuditedCall.revokeRole userId role (.ok (administratorId, changed))).record json =
        some ⟨some administratorId, "rbac.role_revoke", "success", "user", some userId, metadata, "", "", ""⟩ := by
  have hScalar : ∀ member ∈ [("changed", Json.boolean changed), ("role", Json.string role)],
      isScalar member.2 = true := by
    simp only [List.forall_mem_cons]
    exact ⟨rfl, rfl, List.forall_mem_nil _⟩
  rcases dump_cases hJson hCompact _ hScalar with ⟨hInvalid, hDump⟩ | ⟨hValid, hDump⟩
  · apply absurd _ hInvalid
    simp only [Json.strings, Json.stringsOfMembers, List.cons_append, List.nil_append,
      List.forall_mem_cons]
    exact ⟨validUtf8_ofList rfl, validUtf8_ofList rfl, hRole, List.forall_mem_nil _⟩
  · refine ⟨_, ?_, length_changed_le role changed, ?_⟩
    · rw [Json.printText, String.length_ofList, Json.print, List.length_cons]
      omega
    · change (json.dump (.object (Json.Members.ofList [("role", .string role),
        ("changed", .boolean changed)]))).map _ = _
      rw [roleMembers_changed, hDump]
      rfl

/-- A documented answer, and exactly one event, which the repository accepts. -/
def Reported (outcome : Except Thrown HttpResponse × List AuditRecord)
    (context : Option RequestAuditContext) : Prop :=
  ∃ response record, outcome = (.ok response, [record]) ∧ response.status ∈ documentedStatuses ∧
    record.eventType = "rbac.role_revoke" ∧
    AuditRepository.validateInput (AuditService.input record context) = .ok ()

/-- The role can be written into JSON, and with the reason of the refusal it fits into the
metadata of an event. -/
def Reportable (role : String) (result : Except Exception RoleChangeResult) : Prop :=
  ValidUtf8 role ∧ ∀ e refusal, result = .error e → Refusal.ofException e = some refusal →
    quotedLength role + quotedLength refusal.name + 19 ≤ 8192

/-- A call of revoke_role among other calls, whose accesses meet these worlds. -/
def revokeRoleMeeting (service : AuthService) (inputs : Nat → Nat → Surroundings) (worlds : Nat → World)
    (token : String) (userId : Int) (role : String) : Except Exception RoleChangeResult :=
  (AdminService.revokeRole service token userId role).run.meeting inputs worlds

/-- A revocation is answered and reported if and only if its role is UTF-8 and short enough
for the refusal. -/
theorem role_revocation_reported_iff (hJson : json.Documented) (hCompact : json.DumpsCompactly)
    (service : AuthService) (request : HttpMessage) (parameters : RouteParameters) (token : String)
    (userId : Int) (role : List Char) (inputs : Nat → Nat → Surroundings) (worlds : Nat → World)
    (context : Option RequestAuditContext)
    (hRoute : revokeRoleParameters request.target = some parameters)
    (hToken : bearerToken request = some token)
    (hId : requirePathInteger parameters "id" 1 (2 ^ 63 - 1) = .ok userId)
    (hRole : parameters.lookup "role".toList = some role)
    (hCalm : ∀ n k, (inputs n k).failure = none) (hWorlds : ∀ n, Reached (worlds n)) :
    Reported (revokeRoleHandler json (revokeRoleMeeting service inputs worlds) request
      parameters).outcome context ↔
      Reportable (String.ofList role)
        (revokeRoleMeeting service inputs worlds token userId (String.ofList role)) := by
  have hNonempty := revokeRoleParameters_ne_nil hRoute hRole
  have hService := (AdminService.answers_revokeRole service token userId (String.ofList role)).meeting
    hCalm (fun n => (hWorlds n).builtIn)
  change Fallible.Ends _ _ (revokeRoleMeeting service inputs worlds token userId (String.ofList role)) _ at hService
  unfold Reported Reportable
  cases hResult : revokeRoleMeeting service inputs worlds token userId (String.ofList role) with
  | ok result =>
    rw [hResult] at hService
    obtain ⟨hBuiltIn, hRoles⟩ := hService
    obtain ⟨hValid, hShort⟩ := quotedLength_builtIn hBuiltIn
    obtain ⟨response, hResponse⟩ :=
      (makeJsonResponse_isOk hJson 200 _).mpr (validUtf8_roleChangeJson hValid hRoles)
    obtain ⟨metadata, hSome, hLength, hRecord⟩ :=
      record_changed hJson hCompact userId result.administratorId hValid result.changed
    have hOutcome := outcome_revokeRoleHandler json (revokeRoleMeeting service inputs worlds) hToken hId
      hRole hNonempty (by rw [hResult]; exact ⟨rfl, rfl⟩)
    rw [hRecord, hResponse] at hOutcome
    refine iff_of_true ⟨response, _, hOutcome, ?_, rfl, ?_⟩ ⟨hValid, nofun⟩
    · rw [makeJsonResponse_status hResponse]
      decide
    · rw [validateInput_revocation rfl (.inl rfl) rfl]
      change 1 ≤ metadata.length ∧ metadata.length ≤ 8192
      omega
  | error e =>
    rw [hResult] at hService
    obtain ⟨refusal, hListed, hRefusal⟩ := refusal_of_error hService
    obtain ⟨response, hResponse, hStatus⟩ := refusalResponse_status hJson hListed
    have hOutcome := outcome_revokeRoleHandler json (revokeRoleMeeting service inputs worlds) hToken hId
      hRole hNonempty (by rw [hResult]; exact ⟨refusal, hRefusal, rfl, rfl⟩)
    rcases record_refused hJson hCompact userId (String.ofList role) refusal with
      ⟨hInvalid, hRecord⟩ | ⟨hValid, metadata, hLength, hRecord⟩
    · rw [hRecord] at hOutcome
      refine iff_of_false ?_ (fun h => hInvalid h.1)
      rintro ⟨other, record, hOther, -⟩
      rw [hOutcome] at hOther
      cases hOther
    · rw [hRecord, hResponse] at hOutcome
      constructor
      · rintro ⟨other, record, hOther, -, -, hAccepted⟩
        rw [hOutcome] at hOther
        cases hOther
        rw [validateInput_revocation rfl (.inr rfl) rfl] at hAccepted
        refine ⟨hValid, ?_⟩
        intro e' refusal' hSame hRefusal'
        cases hSame
        cases hRefusal.symm.trans hRefusal'
        rw [← hLength]
        exact hAccepted.2
      · rintro ⟨-, hFits⟩
        refine ⟨response, _, hOutcome, hStatus, rfl, ?_⟩
        have hBound := hFits e refusal rfl hRefusal
        rw [validateInput_revocation rfl (.inr rfl) rfl]
        change 1 ≤ metadata.length ∧ metadata.length ≤ 8192
        omega

end reported

/-! ## Samples -/

namespace Sample

open Relational

theorem compactJson_dumpsCompactly : compactJson.DumpsCompactly := by
  intro members text _ h
  change (if hasUtf8 (.object members) then some (Json.printText (.object members)) else none) =
    some text at h
  split at h
  · exact (Option.some.inj h).symm
  · cases h

/-- The accounts of the sample right behind migration 5. -/
def migratedWorld : World := ⟨Migration.createRbac database.users database.authSessions "" "", world.protectors⟩

theorem reached_migratedWorld : Reached migratedWorld :=
  ⟨Unit, inferInstance, deployment, fun _ => .authenticate 0 "", database.users, database.authSessions,
    "", "", world.protectors, [], rfl⟩

/-- DELETE of a role by a client whose token nobody has issued. -/
def revocation (segment : List Char) : HttpMessage :=
  ⟨11, "DELETE", "/v1/admin/users/1/roles/".toList ++ segment, [⟨"Host", "localhost".toList⟩,
    ⟨"Authorization", "Bearer unknown".toList⟩], ""⟩

def revocationResult : String → Int → String → Except Exception RoleChangeResult :=
  revokeRoleMeeting (service 0) (fun _ => calm "") (fun _ => migratedWorld)

theorem bearerToken_revocation (segment : List Char) :
    bearerToken (revocation segment) = some "unknown" := by
  have hFind : Fields.find (revocation segment).fields "Authorization" = some "Bearer unknown".toList := by
    change Fields.find [⟨"Host", "localhost".toList⟩, ⟨"Authorization", "Bearer unknown".toList⟩]
      "Authorization" = _
    decide +kernel
  unfold bearerToken
  rw [hFind]
  decide

theorem revocation_parameters {segment role : List Char}
    (h : (revokeRoleParameters (revocation segment).target).map (fun parameters =>
      (parameters.lookup "id".toList, parameters.lookup "role".toList)) = some (some ['1'], some role)) :
    ∃ parameters, revokeRoleParameters (revocation segment).target = some parameters ∧
      requirePathInteger parameters "id" 1 (2 ^ 63 - 1) = .ok 1 ∧
      parameters.lookup "role".toList = some role := by
  obtain ⟨parameters, hRoute, hLookups⟩ := Option.map_eq_some_iff.mp h
  obtain ⟨hId, hRole⟩ := Prod.mk.inj hLookups
  refine ⟨parameters, hRoute, ?_, hRole⟩
  have hParsed : parseInteger ['1'] 1 (2 ^ 63 - 1) = some 1 := by decide +kernel
  unfold requirePathInteger
  rw [hId, Option.bind_some, hParsed]

theorem revocationResult_unknown (role : String) :
    revocationResult "unknown" 1 role = .error AuthService.invalidAccessToken := by
  rfl

/-- The byte 255 as a role: the handler throws while it reports that the token is unknown. -/
theorem role_revocation_escapes :
    ∃ parameters, revokeRoleParameters (revocation "%ff".toList).target = some parameters ∧
      bearerToken (revocation "%ff".toList) = some "unknown" ∧
      requirePathInteger parameters "id" 1 (2 ^ 63 - 1) = .ok 1 ∧
      parameters.lookup "role".toList = some [Char.ofNat 255] ∧ Reached migratedWorld ∧
      (revokeRoleHandler compactJson revocationResult (revocation "%ff".toList) parameters).outcome =
        (.error invalidUtf8, []) ∧
      ∀ context, ¬Reported (revokeRoleHandler compactJson revocationResult (revocation "%ff".toList)
        parameters).outcome context := by
  obtain ⟨parameters, hRoute, hId, hRole⟩ := @revocation_parameters "%ff".toList [Char.ofNat 255]
    (by decide +kernel)
  have hToken := bearerToken_revocation "%ff".toList
  have hRecord : (AuditedCall.revokeRole 1 (String.ofList [Char.ofNat 255])
      (.error (.auth .invalidAccessToken))).record compactJson = none := by
    decide +kernel
  have hOutcome := outcome_revokeRoleHandler compactJson revocationResult hToken hId hRole (by decide)
    (by rw [revocationResult_unknown]; exact ⟨_, rfl, rfl, rfl⟩)
  rw [hRecord] at hOutcome
  refine ⟨parameters, hRoute, hToken, hId, hRole, reached_migratedWorld, hOutcome, ?_⟩
  rintro context ⟨response, record, hReported, -⟩
  rw [hOutcome] at hReported
  cases hReported

/-- A role that the table has is reported to a client that is refused. -/
theorem role_revocation_reported_iff_sample :
    ∃ parameters, Reported (revokeRoleHandler compactJson revocationResult
      (revocation "auditor".toList) parameters).outcome none := by
  obtain ⟨parameters, hRoute, hId, hRole⟩ := @revocation_parameters "auditor".toList "auditor".toList
    (by decide +kernel)
  refine ⟨parameters, ?_⟩
  refine (role_revocation_reported_iff compactJson_documented compactJson_dumpsCompactly (service 0)
    (revocation "auditor".toList) parameters "unknown" 1 "auditor".toList (fun _ => calm "")
    (fun _ => migratedWorld) none hRoute (bearerToken_revocation _) hId hRole (fun _ _ => rfl)
    (fun _ => reached_migratedWorld)).mpr ⟨validUtf8_ofList rfl, ?_⟩
  intro e refusal hResult hRefusal
  have hUnknown := revocationResult_unknown (String.ofList "auditor".toList)
  cases hUnknown.symm.trans hResult
  cases hRefusal
  decide

end Sample

end SecureCore
