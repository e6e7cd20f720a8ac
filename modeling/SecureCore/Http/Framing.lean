import SecureCore.Http.Session

/-! # Framed responses

Every response on its way out either has its Content-Length already or is a JSON error,
which gets it together with the request id. -/

namespace SecureCore

set_option autoImplicit false

open TrustedProxy

/-! ## Fields beside the framing -/

/-- The fields that decide over the framing and the connection. -/
def framingNames : List String := ["Connection", "Content-Length", "Content-Type"]

def Clear (headers : List (String × List Char)) : Prop :=
  ∀ name ∈ headers.map Prod.fst, ∀ framing ∈ framingNames, iequals name framing = false

namespace Clear

variable {name : String} {value : List Char} {headers second : List (String × List Char)}

theorem nil : Clear [] := fun _ hName => absurd hName List.not_mem_nil

theorem cons (h : ∀ framing ∈ framingNames, iequals name framing = false) (hRest : Clear headers) :
    Clear ((name, value) :: headers) := by
  intro other hOther
  rcases List.mem_cons.mp hOther with rfl | hOther
  · exact h
  · exact hRest other hOther

theorem append (hFirst : Clear headers) (hSecond : Clear second) : Clear (headers ++ second) := by
  intro other hOther
  rw [List.map_append, List.mem_append] at hOther
  exact hOther.elim (hFirst other) (hSecond other)

theorem ite {condition : Prop} [Decidable condition] (hFirst : Clear headers) (hSecond : Clear second) :
    Clear (if condition then headers else second) := by
  split
  · exact hFirst
  · exact hSecond

end Clear

theorem securityHeaders_clear (context : RequestContext) (policy : HstsPolicy) :
    Clear (securityHeaders context policy) := by
  apply Clear.append
  · exact .cons (by decide) (.cons (by decide) (.cons (by decide) (.cons (by decide)
      (.cons (by decide) (.cons (by decide) .nil)))))
  · exact .ite (.cons (by decide) .nil) .nil

theorem corsHeaders_clear (policy : CorsPolicy) (origin : List Char) (preflight : Bool) :
    Clear (corsHeaders policy origin preflight) := by
  apply Clear.append
  · apply Clear.append
    · exact .ite (.cons (by decide) .nil) (.cons (by decide) (.cons (by decide) .nil))
    · exact .ite (.cons (by decide) .nil) .nil
  · exact .cons (by decide) (.cons (by decide) (.cons (by decide) (.cons (by decide) .nil)))

namespace HttpResponse

variable {response : HttpResponse} {headers : List (String × List Char)}

theorem valuesOf_setAll {name : String} (h : ∀ other ∈ headers.map Prod.fst, iequals other name = false) :
    (response.setAll headers).fields.valuesOf name = response.fields.valuesOf name := by
  induction headers generalizing response with
  | nil => rfl
  | cons header headers ih =>
    have hRest : ((response.set header.1 header.2).setAll headers).fields.valuesOf name = _ :=
      ih (fun other hOther => h other (List.mem_cons_of_mem _ hOther))
    exact hRest.trans (Fields.valuesOf_set_of_ne (h header.1 List.mem_cons_self) _ _)

@[simp] theorem setAll_body (response : HttpResponse) (headers : List (String × List Char)) :
    (response.setAll headers).body = response.body := by
  induction headers generalizing response with
  | nil => rfl
  | cons header headers ih => exact ih (response.set header.1 header.2)

@[simp] theorem setAll_status (response : HttpResponse) (headers : List (String × List Char)) :
    (response.setAll headers).status = response.status := by
  induction headers generalizing response with
  | nil => rfl
  | cons header headers ih => exact ih (response.set header.1 header.2)

@[simp] theorem setAll_version (response : HttpResponse) (headers : List (String × List Char)) :
    (response.setAll headers).version = response.version := by
  induction headers generalizing response with
  | nil => rfl
  | cons header headers ih => exact ih (response.set header.1 header.2)

theorem keepAlive_setAll (h : Clear headers) : (response.setAll headers).keepAlive = response.keepAlive := by
  unfold keepAlive
  rw [setAll_version]
  exact Fields.keepAlive_congr (valuesOf_setAll (fun name hName => h name hName _ (by decide))) _

end HttpResponse

/-! ## Completed responses -/

/-- The Content-Length is there once, and it is right. -/
def Framed (response : HttpResponse) : Prop :=
  response.fields.valuesOf "Content-Length" = [Nat.toDigits 10 response.body.length]

/-- A result that has the body and the type of a response and is complete. -/
structure Finished (response result : HttpResponse) (keepAlive : Bool) : Prop where
  status : result.status = response.status
  body : result.body = response.body
  keepAlive : result.keepAlive = keepAlive
  framed : Framed result
  contentType : result.fields.valuesOf "Content-Type" = response.fields.valuesOf "Content-Type"

theorem framed_contentLength (response : HttpResponse) : Framed response.contentLength := by
  unfold Framed HttpResponse.contentLength
  rw [Fields.valuesOf_dropChunked (by decide), Fields.valuesOf_set_self]

theorem prepared_cases (response : HttpResponse) (keepAlive : Bool) :
    response.bodiless = true ∧ (∃ e, (response.setKeepAlive keepAlive).preparePayload.mapError
        Thrown.standard = .error (.standard e)) ∨
      ∃ result, (response.setKeepAlive keepAlive).preparePayload.mapError Thrown.standard = .ok result ∧
        Finished response result keepAlive := by
  unfold HttpResponse.preparePayload
  split
  · rename_i hBodiless
    rw [Bool.and_eq_true] at hBodiless
    exact .inl ⟨hBodiless.1, _, rfl⟩
  · refine .inr ⟨_, rfl, rfl, rfl, ?_, framed_contentLength _, ?_⟩
    · rw [HttpResponse.keepAlive_contentLength, HttpResponse.keepAlive_setKeepAlive]
    · rw [HttpResponse.valuesOf_contentLength (by decide) (by decide)]
      exact Fields.valuesOf_setKeepAlive (by decide) _ _ _

theorem finish_cases (response : HttpResponse) {headers : List (String × List Char)} (h : Clear headers)
    (version : Nat) (keepAlive : Bool) :
    response.bodiless = true ∧ (∃ e, response.finish version headers keepAlive = .error (.standard e)) ∨
      ∃ result, response.finish version headers keepAlive = .ok result ∧
        Finished response result keepAlive := by
  have hNames : ∀ other ∈ (("Server", "SecureCore".toList) :: headers).map Prod.fst,
      iequals other "Content-Type" = false := by
    intro other hOther
    rcases List.mem_cons.mp hOther with rfl | hOther
    · decide
    · exact h other hOther _ (by decide)
  rcases prepared_cases ((response.setVersion version).setAll
      (("Server", "SecureCore".toList) :: headers)) keepAlive with
    ⟨hBodiless, e, hError⟩ | ⟨result, hResult, hFinished⟩
  · left
    unfold HttpResponse.bodiless at hBodiless ⊢
    rw [HttpResponse.setAll_status] at hBodiless
    exact ⟨hBodiless, e, hError⟩
  · right
    refine ⟨result, hResult, ?_, ?_, hFinished.keepAlive, hFinished.framed, ?_⟩
    · exact hFinished.status.trans (HttpResponse.setAll_status _ _)
    · exact hFinished.body.trans (HttpResponse.setAll_body _ _)
    · exact hFinished.contentType.trans (HttpResponse.valuesOf_setAll hNames)

/-! ## Error bodies -/

def ApiError.texts (error : ApiError) : List String :=
  error.code :: error.message :: error.details.flatMap (fun detail => [detail.field, detail.reason])

/-- All texts of the error are UTF-8. -/
def ApiError.Valid (error : ApiError) : Prop := ∀ text ∈ error.texts, ValidUtf8 text

section error

variable (error : ApiError)

theorem ofList_pair {first second : String} (hOrder : ¬second < first) (hNe : second ≠ first)
    (x y : Json) : Json.Members.ofList [(first, x), (second, y)] = [(first, x), (second, y)] := by
  unfold Json.Members.ofList
  rw [List.foldl_cons, List.foldl_cons, List.foldl_nil, Json.Members.insert,
    Json.Members.insert_of_gt hOrder hNe, Json.Members.insert]

theorem toJson_detail (detail : ApiErrorDetail) : detail.toJson =
    .object [("field", .string detail.field), ("reason", .string detail.reason)] := by
  unfold ApiErrorDetail.toJson
  rw [ofList_pair (by decide) (by decide)]

theorem toJson_error : error.toJson = .object (
    if error.details.isEmpty then [("code", .string error.code), ("message", .string error.message)]
    else [("code", .string error.code), ("details", .array (error.details.map ApiErrorDetail.toJson)),
      ("message", .string error.message)]) := by
  have hPair : Json.Members.ofList [("code", .string error.code), ("message", .string error.message)] =
      [("code", .string error.code), ("message", .string error.message)] :=
    ofList_pair (by decide) (by decide) _ _
  unfold ApiError.toJson
  simp only [hPair]
  rw [Json.Members.insert_of_gt (by decide) (by decide), Json.Members.insert_of_lt (by decide)]

theorem properItems_details (details : List ApiErrorDetail) :
    Json.properItems (details.map ApiErrorDetail.toJson) = true := by
  induction details with
  | nil => rfl
  | cons detail details ih =>
    have hSorted : Json.Sorted [("field", .string detail.field), ("reason", .string detail.reason)] := by
      change ["field", "reason"].Pairwise (· < ·)
      decide
    rw [List.map_cons, Json.properItems, ih, toJson_detail, Json.Members.proper_object hSorted rfl]
    rfl

theorem proper_error : error.toJson.proper = true := by
  rw [toJson_error]
  split
  · apply Json.Members.proper_object
    · change ["code", "message"].Pairwise (· < ·)
      decide
    · rfl
  · apply Json.Members.proper_object
    · change ["code", "details", "message"].Pairwise (· < ·)
      decide
    · simp only [Json.properMembers, Json.proper, properItems_details]
      rfl

theorem strings_details (details : List ApiErrorDetail) :
    Json.stringsOfItems (details.map ApiErrorDetail.toJson) =
      details.flatMap (fun detail => ["field", detail.field, "reason", detail.reason]) := by
  induction details with
  | nil => rfl
  | cons detail details ih =>
    rw [List.map_cons, Json.stringsOfItems, ih, toJson_detail]
    rfl

/-- The strings of an error are its texts and names of members. -/
theorem strings_error : (∀ text ∈ error.toJson.strings, ValidUtf8 text) ↔ error.Valid := by
  have hNames : ∀ name ∈ ["code", "message", "details", "field", "reason"], ValidUtf8 name := by
    simp only [List.forall_mem_cons]
    exact ⟨validUtf8_ofList rfl, validUtf8_ofList rfl, validUtf8_ofList rfl, validUtf8_ofList rfl,
      validUtf8_ofList rfl, fun _ h => absurd h List.not_mem_nil⟩
  have hDetails : (∀ text ∈ Json.stringsOfItems (error.details.map ApiErrorDetail.toJson), ValidUtf8 text) ↔
      ∀ text ∈ error.details.flatMap (fun detail => [detail.field, detail.reason]), ValidUtf8 text := by
    rw [strings_details]
    constructor
    · intro h text hText
      obtain ⟨detail, hDetail, hIn⟩ := List.mem_flatMap.mp hText
      apply h text (List.mem_flatMap.mpr ⟨detail, hDetail, ?_⟩)
      simp only [List.mem_cons, List.not_mem_nil, or_false] at hIn ⊢
      exact hIn.elim (fun h => .inr (.inl h)) (fun h => .inr (.inr (.inr h)))
    · intro h text hText
      obtain ⟨detail, hDetail, hIn⟩ := List.mem_flatMap.mp hText
      simp only [List.mem_cons, List.not_mem_nil, or_false] at hIn
      have hOwn : ∀ text ∈ [detail.field, detail.reason], ValidUtf8 text :=
        fun text hText => h text (List.mem_flatMap.mpr ⟨detail, hDetail, hText⟩)
      rcases hIn with rfl | rfl | rfl | rfl
      · exact hNames _ (by decide)
      · exact hOwn _ List.mem_cons_self
      · exact hNames _ (by decide)
      · exact hOwn _ (List.mem_cons_of_mem _ List.mem_cons_self)
  rw [toJson_error]
  unfold ApiError.Valid ApiError.texts
  cases hEmpty : error.details with
  | nil =>
    rw [List.isEmpty_nil, if_pos rfl]
    change (∀ text ∈ ["code", error.code, "message", error.message], ValidUtf8 text) ↔ _
    simp [hNames]
  | cons detail details =>
    rw [List.isEmpty_cons, if_neg Bool.false_ne_true]
    rw [hEmpty] at hDetails
    change (∀ text ∈ "code" :: error.code :: "details" ::
      (Json.stringsOfItems ((detail :: details).map ApiErrorDetail.toJson) ++
        ["message", error.message]), ValidUtf8 text) ↔ _
    simp only [List.forall_mem_cons, List.forall_mem_append, hDetails]
    simp [hNames, and_comm]

end error

section ready

variable {json : JsonLibrary}

/-- A text of an object with an error object in it. -/
def HasError (json : JsonLibrary) (text : String) : Prop :=
  ∃ body error, json.parse text = some (.object body) ∧
    Json.Members.find body "error" = some (.object error)

/-- Either the framing is there, or the request id will bring it. -/
structure Ready (json : JsonLibrary) (response : HttpResponse) : Prop where
  labelled : HasError json response.body → responseIsJson response = true
  framed : Framed response ∨ HasError json response.body

theorem responseIsJson_congr {first second : HttpResponse}
    (h : first.fields.valuesOf "Content-Type" = second.fields.valuesOf "Content-Type") :
    responseIsJson first = responseIsJson second := by
  unfold responseIsJson Fields.find
  rw [h]

theorem Ready.setAll {response : HttpResponse} (h : Ready json response)
    {headers : List (String × List Char)} (hClear : Clear headers) : Ready json (response.setAll headers) := by
  have hType : (response.setAll headers).fields.valuesOf "Content-Type" = _ :=
    HttpResponse.valuesOf_setAll (fun name hName => hClear name hName _ (by decide))
  have hLength : (response.setAll headers).fields.valuesOf "Content-Length" = _ :=
    HttpResponse.valuesOf_setAll (fun name hName => hClear name hName _ (by decide))
  constructor
  · rw [HttpResponse.setAll_body, responseIsJson_congr hType]
    exact h.labelled
  · unfold Framed
    rw [HttpResponse.setAll_body, hLength]
    exact h.framed

theorem Finished.ready {response result : HttpResponse} {keepAlive : Bool}
    (h : Finished response result keepAlive)
    (hLabelled : HasError json response.body → responseIsJson response = true) : Ready json result := by
  constructor
  · rw [h.body, responseIsJson_congr h.contentType]
    exact hLabelled
  · exact .inl h.framed

/-! ## JSON responses -/

/-- The response that make_json_response builds around a text. -/
def jsonResponse (status : Nat) (text : String) : HttpResponse :=
  { { HttpResponse.initial with status := status }.set "Content-Type"
    "application/json; charset=utf-8".toList with body := text }

theorem responseIsJson_jsonResponse (status : Nat) (text : String) :
    responseIsJson (jsonResponse status text) = true := by
  have hType : (jsonResponse status text).fields.valuesOf "Content-Type" =
      ["application/json; charset=utf-8".toList] := Fields.valuesOf_set_self _ _ _
  unfold responseIsJson Fields.find
  rw [hType]
  decide

theorem keepAlive_jsonResponse (status : Nat) (text : String) :
    (jsonResponse status text).keepAlive = true := rfl

theorem makeJsonResponse_eq (json : JsonLibrary) (status : Nat) (body : Json) :
    makeJsonResponse json status body = match json.dump body with
      | none => .error invalidUtf8
      | some text => .ok (jsonResponse status text) := rfl

theorem proper_errorBody (error : ApiError) :
    (Json.object (Json.Members.ofList [("error", error.toJson)])).proper = true := by
  apply Json.Members.proper_object
  · exact List.pairwise_singleton _ _
  · change (error.toJson.proper && true) = true
    rw [proper_error]
    rfl

theorem strings_errorBody (error : ApiError) :
    (∀ text ∈ (Json.object (Json.Members.ofList [("error", error.toJson)])).strings, ValidUtf8 text) ↔
      error.Valid := by
  have hName : ValidUtf8 "error" := validUtf8_ofList rfl
  rw [← strings_error]
  change (∀ text ∈ "error" :: (error.toJson.strings ++ []), ValidUtf8 text) ↔ _
  rw [List.append_nil, List.forall_mem_cons]
  exact and_iff_right hName

/-- An error becomes a response if its texts are UTF-8, and an exception else. -/
theorem makeApiErrorResponse_cases (hJson : json.Documented) (status : Nat) (error : ApiError) :
    ¬error.Valid ∧ makeApiErrorResponse json status error = .error invalidUtf8 ∨
      error.Valid ∧ ∃ text, HasError json text ∧
        makeApiErrorResponse json status error = .ok (jsonResponse status text) := by
  have hDump := (hJson.dump_isSome _).trans (strings_errorBody error)
  unfold makeApiErrorResponse
  rw [makeJsonResponse_eq]
  cases hText : json.dump (.object (Json.Members.ofList [("error", error.toJson)])) with
  | none =>
    left
    rw [hText, Option.isSome_none] at hDump
    exact ⟨fun hValid => absurd (hDump.mpr hValid) Bool.false_ne_true, rfl⟩
  | some text =>
    right
    have hParse := hJson.parse_dump _ text (proper_errorBody error) hText
    rw [hText, Option.isSome_some] at hDump
    refine ⟨hDump.mp rfl, text, ?_, rfl⟩
    rw [toJson_error] at hParse
    exact ⟨_, _, hParse, rfl⟩

theorem valid_defaultApiErrorMessage (errorCode : String) :
    ValidUtf8 (defaultApiErrorMessage errorCode) := by
  unfold defaultApiErrorMessage
  split <;> exact validUtf8_ofList rfl

theorem makeJsonError_ok (hJson : json.Documented) (status : Nat) {errorCode : String}
    (hCode : ValidUtf8 errorCode) : ∃ text, HasError json text ∧
      makeJsonError json status errorCode = .ok (jsonResponse status text) := by
  rcases makeApiErrorResponse_cases hJson status ⟨errorCode, defaultApiErrorMessage errorCode, []⟩ with
    ⟨hInvalid, -⟩ | ⟨-, text, hText⟩
  · apply absurd _ hInvalid
    unfold ApiError.Valid ApiError.texts
    simp only [List.flatMap_nil, List.forall_mem_cons]
    exact ⟨hCode, valid_defaultApiErrorMessage errorCode, fun _ h => absurd h List.not_mem_nil⟩
  · exact ⟨text, hText⟩

theorem Ready.jsonResponse {text : String} (h : HasError json text) (status : Nat) :
    Ready json (jsonResponse status text) :=
  ⟨fun _ => responseIsJson_jsonResponse status text, .inr h⟩

end ready

end SecureCore
