import SecureCore.Http.Framing

/-! # What every response carries -/

namespace SecureCore

set_option autoImplicit false

open TrustedProxy

variable {json : JsonLibrary}

/-- A response as the client should get it. -/
structure Answered (json : JsonLibrary) (requestId : String) (response : HttpResponse) : Prop where
  header : response.fields.valuesOf "X-Request-ID" = [requestId.toList]
  framed : Framed response
  error : ∀ body error, json.parse response.body = some (.object body) →
    Json.Members.find body "error" = some (.object error) →
    Json.Members.find error "request_id" = some (.string requestId)

/-! ## Request ids -/

theorem toNat_lt_of_alphanum {c : Char} (h : c.isAlphanum = true) : c.toNat < 128 := by
  have hValue : c.toNat = c.val.toNat := rfl
  have hRanges : ((decide ('A'.val ≤ c.val ∧ c.val ≤ 'Z'.val) ||
      decide ('a'.val ≤ c.val) && decide (c.val ≤ 'z'.val)) ||
        decide ('0'.val ≤ c.val) && decide (c.val ≤ '9'.val)) = true := h
  simp only [Bool.or_eq_true, Bool.and_eq_true, decide_eq_true_eq, UInt32.le_iff_toNat_le] at hRanges
  have hBounds : 'Z'.val.toNat = 90 ∧ 'z'.val.toNat = 122 ∧ '9'.val.toNat = 57 := ⟨rfl, rfl, rfl⟩
  omega

theorem toNat_lt_of_requestId {c : Char} (h : isValidRequestIdCharacter c = true) :
    c.toNat < 128 := by
  simp only [isValidRequestIdCharacter, Bool.or_eq_true, beq_iff_eq] at h
  rcases h with ((h | rfl) | rfl) | rfl
  · exact toNat_lt_of_alphanum h
  · decide
  · decide
  · decide

theorem validUtf8_of_valid {requestId : String} (h : isValidRequestId requestId = true) :
    ValidUtf8 requestId := by
  simp only [isValidRequestId, Bool.and_eq_true, List.all_eq_true] at h
  exact validUtf8_of_ascii (fun c hc => toNat_lt_of_requestId (h.2 c hc))

theorem attach_of_not_hasError (response : HttpResponse) (h : ¬HasError json response.body)
    (requestId : String) : attachRequestIdToApiError json response requestId = .ok response := by
  unfold attachRequestIdToApiError
  split
  · rfl
  · split
    · rename_i body hBody
      split
      · rename_i error hError
        exact absurd ⟨body, error, hBody, hError⟩ h
      · rfl
    · rfl

/-- The object of a body with the request id in its error. -/
def labelled (body error : Json.Members) (requestId : String) : Json :=
  .object (Json.Members.insert body "error"
    (.object (Json.Members.insert error "request_id" (.string requestId))))

section labelled

variable {body error : Json.Members} {requestId : String}

theorem proper_labelled (h : (Json.object body).proper = true)
    (hError : Json.Members.find body "error" = some (.object error)) :
    (labelled body error requestId).proper = true := by
  have hMembers : Json.properMembers body = true := by
    rw [Json.proper, Bool.and_eq_true] at h
    exact h.2
  have hInner : (Json.object error).proper = true := Json.Members.proper_of_find hError hMembers
  exact Json.Members.proper_insert h (Json.Members.proper_insert hInner rfl)

theorem strings_labelled (h : ∀ text ∈ Json.stringsOfMembers body, ValidUtf8 text)
    (hError : Json.Members.find body "error" = some (.object error)) (hId : ValidUtf8 requestId) :
    ∀ text ∈ (labelled body error requestId).strings, ValidUtf8 text := by
  have hNames : ValidUtf8 "error" ∧ ValidUtf8 "request_id" :=
    ⟨validUtf8_ofList rfl, validUtf8_ofList rfl⟩
  intro text hText
  rcases Json.Members.mem_strings_insert hText with rfl | hInner | hOuter
  · exact hNames.1
  · rcases Json.Members.mem_strings_insert hInner with rfl | hValue | hOld
    · exact hNames.2
    · rw [List.mem_singleton.mp hValue]
      exact hId
    · exact h text (Json.Members.strings_of_find hError hOld)
  · exact h text hOuter

end labelled

/-- The error of a body gets the request id, and the response its Content-Length. -/
theorem attach_of_error (hJson : json.Documented) {response : HttpResponse}
    (hLabelled : responseIsJson response = true) {body error : Json.Members}
    (hBody : json.parse response.body = some (.object body))
    (hError : Json.Members.find body "error" = some (.object error)) {requestId : String}
    (hId : isValidRequestId requestId = true) :
    response.bodiless = true ∧ (∃ e, attachRequestIdToApiError json response requestId = .error e) ∨
      response.bodiless = false ∧ ∃ text, attachRequestIdToApiError json response requestId =
          .ok ({ response with body := text } : HttpResponse).contentLength ∧
        json.parse text = some (labelled body error requestId) := by
  have hId' : requestId.isEmpty = false := by
    simp only [isValidRequestId, Bool.and_eq_true, Bool.not_eq_true'] at hId
    exact hId.1.1
  have hBody' : response.body.isEmpty = false := by
    cases hEmpty : response.body.isEmpty with
    | false => rfl
    | true =>
      have hNone := hJson.parse_nothing response.body (.inl (String.isEmpty_iff.mp hEmpty))
      exact absurd (hNone.symm.trans hBody) (fun h => nomatch h)
  have hDump : ∃ text, json.dump (labelled body error requestId) = some text := by
    rw [← Option.isSome_iff_exists, hJson.dump_isSome]
    exact strings_labelled (hJson.parse_strings _ _ hBody) hError (validUtf8_of_valid hId)
  obtain ⟨text, hText⟩ := hDump
  have hParse := hJson.parse_dump _ text (proper_labelled (hJson.parse_proper _ _ hBody) hError) hText
  have hResult : attachRequestIdToApiError json response requestId =
      ({ response with body := text } : HttpResponse).preparePayload.mapError .standard := by
    unfold labelled at hText
    unfold attachRequestIdToApiError
    rw [hId', hBody', hLabelled]
    simp only [Bool.not_true, Bool.or_self, Bool.false_eq_true, if_false, hBody, hError, hText]
  have hLength : (text.length != 0) = true := by
    rw [bne_iff_ne]
    intro hZero
    have hNone := hJson.parse_nothing text (.inl (String.length_eq_zero_iff.mp hZero))
    exact absurd (hNone.symm.trans hParse) (fun h => nomatch h)
  have hPrepared : ({ response with body := text } : HttpResponse).preparePayload =
      if response.bodiless then .error (.invalidArgument "invalid response body")
      else .ok ({ response with body := text } : HttpResponse).contentLength := by
    change (if response.bodiless && text.length != 0 then _ else _) = _
    rw [hLength, Bool.and_true]
  rw [hResult, hPrepared]
  cases response.bodiless with
  | true => exact .inl ⟨rfl, _, rfl⟩
  | false => exact .inr ⟨rfl, text, rfl, hParse⟩

theorem attach_of_hasError (hJson : json.Documented) (response : HttpResponse)
    (hLabelled : responseIsJson response = true) (h : HasError json response.body) {requestId : String}
    (hId : isValidRequestId requestId = true) :
    response.bodiless = true ∧ (∃ e, attachRequestIdToApiError json response requestId = .error e) ∨
      response.bodiless = false ∧ ∃ text body error, attachRequestIdToApiError json response requestId =
          .ok ({ response with body := text } : HttpResponse).contentLength ∧
        json.parse text = some (labelled body error requestId) := by
  obtain ⟨body, error, hBody, hError⟩ := h
  rcases attach_of_error hJson hLabelled hBody hError hId with hThrown | ⟨hBodied, text, hResult, hParse⟩
  · exact .inl hThrown
  · exact .inr ⟨hBodied, text, body, error, hResult, hParse⟩

/-- An error in a response that may have no body, so that the id finds no place. -/
def Barred (json : JsonLibrary) (response : HttpResponse) : Prop :=
  response.bodiless = true ∧ HasError json response.body

/-- The id goes into the header, and into the body of an error. -/
theorem applyRequestId_cases (hJson : json.Documented) {response : HttpResponse}
    (hReady : Ready json response) {requestId : String} (hId : isValidRequestId requestId = true) :
    Barred json response ∧ (∃ e, applyRequestId json response requestId = .error e) ∨
      ¬Barred json response ∧ ∃ result, applyRequestId json response requestId = .ok result ∧
        Answered json requestId result ∧ result.keepAlive = response.keepAlive := by
  have hHeader : (response.set "X-Request-ID" requestId.toList).fields.valuesOf "X-Request-ID" =
      [requestId.toList] := Fields.valuesOf_set_self _ _ _
  have hKept : (response.set "X-Request-ID" requestId.toList).keepAlive = response.keepAlive :=
    HttpResponse.keepAlive_set (by decide) _
  have hLength : (response.set "X-Request-ID" requestId.toList).fields.valuesOf "Content-Length" =
      response.fields.valuesOf "Content-Length" := Fields.valuesOf_set_of_ne (by decide) _ _
  have hType : (response.set "X-Request-ID" requestId.toList).fields.valuesOf "Content-Type" =
      response.fields.valuesOf "Content-Type" := Fields.valuesOf_set_of_ne (by decide) _ _
  by_cases hHasError : HasError json response.body
  · have hLabelled := (responseIsJson_congr hType).trans (hReady.labelled hHasError)
    rcases attach_of_hasError hJson (response.set "X-Request-ID" requestId.toList)
      hLabelled hHasError hId with ⟨hBodiless, hThrown⟩ | ⟨hBodied, text, body, error, hResult, hParse⟩
    · exact .inl ⟨⟨hBodiless, hHasError⟩, hThrown⟩
    · right
      refine ⟨fun hBarred => Bool.false_ne_true (hBodied.symm.trans hBarred.1), _, hResult,
        ⟨?_, framed_contentLength _, ?_⟩, ?_⟩
      · exact (HttpResponse.valuesOf_contentLength (by decide) (by decide) _).trans hHeader
      · intro body' error' hBody' hError'
        cases hParse.symm.trans hBody'
        rw [Json.Members.find_insert] at hError'
        cases hError'
        exact Json.Members.find_insert _ _ _
      · exact (HttpResponse.keepAlive_contentLength _).trans hKept
  · right
    have hFramed : Framed response := hReady.framed.resolve_right hHasError
    have hSame : applyRequestId json response requestId =
        .ok (response.set "X-Request-ID" requestId.toList) :=
      attach_of_not_hasError (response.set "X-Request-ID" requestId.toList) hHasError requestId
    refine ⟨fun hBarred => hHasError hBarred.2, _, hSame, ⟨hHeader, ?_, ?_⟩, hKept⟩
    · unfold Framed
      rw [hLength]
      exact hFramed
    · intro body error hBody hError
      exact absurd ⟨body, error, hBody, hError⟩ hHasError

end SecureCore
