import SecureCore.Http.Message

/-! # What setting a field does to a message

Each setter is known by the values that the fields of a name have afterwards. -/

namespace SecureCore

set_option autoImplicit false

open TrustedProxy

/-! ## Token lists -/

theorem not_mem_of_mem_splitOn {separator : Char} {value piece : List Char}
    (h : piece ∈ value.splitOn separator) : separator ∉ piece := by
  induction value generalizing piece with
  | nil =>
    rw [List.splitOn_nil, List.mem_singleton] at h
    rw [h]
    exact List.not_mem_nil
  | cons c value ih =>
    rw [List.splitOn_cons_eq_if_modifyHead] at h
    split at h
    · rcases List.mem_cons.mp h with rfl | hRest
      · exact List.not_mem_nil
      · exact ih hRest
    · rename_i hOther
      cases hPieces : value.splitOn separator with
      | nil =>
        rw [hPieces] at h
        cases h
      | cons first rest =>
        rw [hPieces] at h ih
        rcases List.mem_cons.mp h with rfl | hRest
        · rw [List.mem_cons, not_or]
          exact ⟨fun hEq => hOther (beq_iff_eq.mpr hEq.symm), ih List.mem_cons_self⟩
        · exact ih (List.mem_cons_of_mem _ hRest)

theorem mem_of_mem_trimChars {value : List Char} {c : Char} (h : c ∈ trimChars value) : c ∈ value :=
  (List.dropWhile_sublist isBlank).subset
    ((List.rdropWhile_prefix isBlank (value.dropWhile isBlank)).subset h)

/-- What the tokens of a list are like. -/
structure CleanToken (token : List Char) : Prop where
  nonempty : token ≠ []
  noComma : ',' ∉ token
  trimmed : trimChars token = token

theorem clean_of_mem_tokens {value token : List Char} (h : token ∈ tokens value) : CleanToken token := by
  unfold tokens at h
  rw [List.mem_filter, List.mem_map] at h
  obtain ⟨⟨piece, hPiece, rfl⟩, hNonempty⟩ := h
  refine ⟨by simpa using hNonempty, ?_, trimChars_trimChars piece⟩
  exact fun hComma => not_mem_of_mem_splitOn hPiece (mem_of_mem_trimChars hComma)

theorem tokens_joinTokens {list : List (List Char)} (h : ∀ token ∈ list, CleanToken token) :
    tokens (joinTokens list) = list := by
  cases list with
  | nil => rfl
  | cons first rest =>
    have hPieces : ∀ piece ∈ first :: rest.map (fun token => ' ' :: token), ',' ∉ piece := by
      intro piece hPiece
      rcases List.mem_cons.mp hPiece with rfl | hPiece
      · exact (h _ List.mem_cons_self).noComma
      · obtain ⟨token, hToken, rfl⟩ := List.mem_map.mp hPiece
        rw [List.mem_cons, not_or]
        exact ⟨by decide, (h token (List.mem_cons_of_mem _ hToken)).noComma⟩
    have hTrimmed : (rest.map (fun token => ' ' :: token)).map trimChars = rest := by
      rw [List.map_map]
      conv_rhs => rw [← List.map_id rest]
      apply List.map_congr_left
      intro token hToken
      exact (h token (List.mem_cons_of_mem _ hToken)).trimmed
    unfold tokens joinTokens
    rw [List.splitOn_intercalate ',' hPieces (List.cons_ne_nil _ _), List.map_cons, hTrimmed,
      (h first List.mem_cons_self).trimmed, List.filter_eq_self]
    intro token hToken
    simpa using (h token hToken).nonempty

/-! ## Fields -/

namespace Fields

variable {fields : Fields} {name other : String}

theorem iequals_iff (a b : String) : iequals a b = true ↔ lowercaseCopy a = lowercaseCopy b := by
  unfold iequals
  exact beq_iff_eq

theorem valuesOf_append (first second : Fields) :
    valuesOf (first ++ second) name = first.valuesOf name ++ second.valuesOf name := by
  unfold valuesOf
  rw [List.filter_append, List.map_append]

@[simp] theorem valuesOf_erase_self (fields : Fields) (name : String) :
    (fields.erase name).valuesOf name = [] := by
  unfold valuesOf erase
  rw [List.filter_filter, List.map_eq_nil_iff, List.filter_eq_nil_iff]
  intro field _
  simp

theorem valuesOf_erase_of_ne (h : iequals other name = false) (fields : Fields) :
    (fields.erase other).valuesOf name = fields.valuesOf name := by
  unfold valuesOf erase
  rw [List.filter_filter]
  congr 1
  apply List.filter_congr
  intro field _
  cases hName : iequals field.name name with
  | false => rfl
  | true =>
    cases hOther : iequals field.name other with
    | false => rfl
    | true =>
      rw [iequals_iff] at hName hOther
      rw [← Bool.not_eq_true, iequals_iff] at h
      exact absurd (hOther.symm.trans hName) h

@[simp] theorem valuesOf_set_self (fields : Fields) (name : String) (value : List Char) :
    (fields.set name value).valuesOf name = [value] := by
  unfold set
  rw [valuesOf_append, valuesOf_erase_self]
  simp [valuesOf, iequals]

theorem valuesOf_set_of_ne (h : iequals other name = false) (fields : Fields) (value : List Char) :
    (fields.set other value).valuesOf name = fields.valuesOf name := by
  unfold set
  rw [valuesOf_append, valuesOf_erase_of_ne h]
  simp [valuesOf, h]

theorem valuesOf_setTokens_of_ne (h : iequals other name = false) (fields : Fields)
    (list : List (List Char)) : (fields.setTokens other list).valuesOf name = fields.valuesOf name := by
  unfold setTokens
  split
  · exact valuesOf_erase_of_ne h fields
  · exact valuesOf_set_of_ne h fields _

theorem find_setTokens (fields : Fields) (name : String) (list : List (List Char)) :
    (fields.setTokens name list).find name = if list.isEmpty then none else some (joinTokens list) := by
  unfold setTokens find
  cases list with
  | nil => rw [List.isEmpty_nil, if_pos rfl, if_pos rfl, valuesOf_erase_self, List.head?_nil]
  | cons token rest =>
    rw [List.isEmpty_cons, if_neg Bool.false_ne_true, if_neg Bool.false_ne_true, valuesOf_set_self,
      List.head?_cons]

theorem valuesOf_dropChunked (h : iequals "Transfer-Encoding" name = false) (fields : Fields) :
    fields.dropChunked.valuesOf name = fields.valuesOf name := by
  unfold dropChunked
  split
  · rfl
  · exact valuesOf_setTokens_of_ne h _ _

theorem valuesOf_setKeepAlive (h : iequals "Connection" name = false) (fields : Fields) (version : Nat)
    (value : Bool) : (fields.setKeepAlive version value).valuesOf name = fields.valuesOf name := by
  unfold setKeepAlive
  exact valuesOf_setTokens_of_ne h _ _

theorem keepAlive_congr {second : Fields} (h : fields.valuesOf "Connection" = second.valuesOf "Connection")
    (version : Nat) : fields.keepAlive version = second.keepAlive version := by
  unfold keepAlive find
  rw [h]

/-- What keep_alive finds in a token list that was set. -/
theorem keepAlive_setTokens {list : List (List Char)} (h : ∀ token ∈ list, CleanToken token)
    (fields : Fields) (version : Nat) : (fields.setTokens "Connection" list).keepAlive version =
      if version < 11 then list.any (isToken "keep-alive") else !list.any (isToken "close") := by
  unfold keepAlive hasToken
  rw [find_setTokens]
  cases list with
  | nil =>
    rw [List.isEmpty_nil, if_pos rfl, List.any_nil, List.any_nil, Bool.not_false]
    change decide (11 ≤ version) = if version < 11 then false else true
    split
    · exact decide_eq_false (by omega)
    · exact decide_eq_true (by omega)
  | cons token rest =>
    rw [List.isEmpty_cons, if_neg Bool.false_ne_true]
    simp only [tokens_joinTokens h]

theorem keepAlive_setKeepAlive (fields : Fields) (version : Nat) (value : Bool) :
    (fields.setKeepAlive version value).keepAlive version = value := by
  have hClean : ∀ token ∈ tokens ((fields.find "Connection").getD []), CleanToken token :=
    fun token hToken => clean_of_mem_tokens hToken
  have hAdded : ∀ name : String, CleanToken name.toList → ∀ kept : List (List Char),
      (∀ token ∈ kept, CleanToken token) →
      let list := if kept.any (isToken name) then kept else kept ++ [name.toList]
      (∀ token ∈ list, CleanToken token) ∧ list.any (isToken name) = true := by
    intro name hName kept hKept
    simp only
    split
    · rename_i hPresent
      exact ⟨hKept, hPresent⟩
    · constructor
      · intro token hToken
        rcases List.mem_append.mp hToken with hOld | hNew
        · exact hKept token hOld
        · exact List.mem_singleton.mp hNew ▸ hName
      · simp [isToken]
  have hDropped : ∀ (name : String) (kept : List (List Char)),
      (kept.filter (fun token => !isToken name token)).any (isToken name) = false := by
    intro name kept
    simp
  have hKeepAlive : CleanToken "keep-alive".toList := ⟨by decide, by decide, by decide⟩
  have hClose : CleanToken "close".toList := ⟨by decide, by decide, by decide⟩
  unfold setKeepAlive
  simp only
  generalize tokens ((fields.find "Connection").getD []) = list at hClean
  by_cases hVersion : version < 11
  · simp only [hVersion, if_true, decide_true]
    have hKept : ∀ token ∈ list.filter (fun token => !isToken "close" token), CleanToken token :=
      fun token hToken => hClean token (List.mem_filter.mp hToken).1
    cases value with
    | true =>
      obtain ⟨hList, hAny⟩ := hAdded "keep-alive" hKeepAlive _ hKept
      rw [beq_self_eq_true, if_pos rfl, keepAlive_setTokens hList, if_pos hVersion, hAny]
    | false =>
      rw [if_neg (by decide), keepAlive_setTokens, if_pos hVersion, hDropped]
      exact fun token hToken => hKept token (List.mem_filter.mp hToken).1
  · simp only [hVersion, if_false, decide_false]
    have hKept : ∀ token ∈ list.filter (fun token => !isToken "keep-alive" token), CleanToken token :=
      fun token hToken => hClean token (List.mem_filter.mp hToken).1
    cases value with
    | false =>
      obtain ⟨hList, hAny⟩ := hAdded "close" hClose _ hKept
      rw [beq_self_eq_true, if_pos rfl, keepAlive_setTokens hList, if_neg hVersion, hAny]
      rfl
    | true =>
      rw [if_neg (by decide), keepAlive_setTokens, if_neg hVersion, hDropped]
      · rfl
      · exact fun token hToken => hKept token (List.mem_filter.mp hToken).1

end Fields

/-! ## Responses -/

namespace HttpResponse

variable {response : HttpResponse} {name : String}

@[simp] theorem keepAlive_setKeepAlive (response : HttpResponse) (value : Bool) :
    (response.setKeepAlive value).keepAlive = value := Fields.keepAlive_setKeepAlive _ _ _

theorem keepAlive_set (h : iequals name "Connection" = false) (value : List Char) :
    (response.set name value).keepAlive = response.keepAlive :=
  Fields.keepAlive_congr (Fields.valuesOf_set_of_ne h _ _) _

theorem valuesOf_contentLength (h : iequals "Content-Length" name = false)
    (hChunked : iequals "Transfer-Encoding" name = false) (response : HttpResponse) :
    response.contentLength.fields.valuesOf name = response.fields.valuesOf name := by
  unfold contentLength
  rw [Fields.valuesOf_dropChunked hChunked, Fields.valuesOf_set_of_ne h]

@[simp] theorem keepAlive_contentLength (response : HttpResponse) :
    response.contentLength.keepAlive = response.keepAlive :=
  Fields.keepAlive_congr (valuesOf_contentLength (by decide) (by decide) response) _

/-- A message whose connection is not kept is always followed by its end. -/
theorem needEof_of_not_keepAlive (h : response.keepAlive = false) : response.needEof = true := by
  unfold needEof
  rw [h]
  split <;> rfl

end HttpResponse

end SecureCore
