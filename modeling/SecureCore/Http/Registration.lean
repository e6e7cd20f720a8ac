import SecureCore.Http.QueryReaders
import SecureCore.Http.Sample
import SecureCore.System.ServiceRules

/-! # Registration: the route and the service

The rules of register_handler and those of UserService::register_user are written twice. The
route trims and looks at positions, the service trims, lowercases and looks again. -/

namespace SecureCore

set_option autoImplicit false

open Interleaving RequestValidation

/-! ## register_handler -/

/-- A check of a value that may be missing. -/
def JsonObjectValidator.check (validator : JsonObjectValidator) (value : Option String) (valid : String → Bool)
    (field reason : String) : JsonObjectValidator :=
  if value.any (fun value => !valid value) then validator.addError field reason else validator

def registrationFields (body : Json.Members) : Except Thrown (String × String × String) :=
  let validator : JsonObjectValidator := { object := body }
  let (username, validator) := validator.requiredString "username" 1 254
  let (email, validator) := validator.requiredString "email" 1 254
  let (password, validator) := validator.requiredString "password" 1 128
  let validator := validator.check username validUsernameInput "username"
    "must contain 3 to 32 ASCII letters, digits, '_' or '-'"
  let validator := validator.check email validEmailInput "email" "must be a valid email address"
  let validator := validator.check password validPasswordInput "password"
    "must contain between 8 and 128 bytes"
  validator.throwIfInvalid.map (fun _ => (username.getD "", email.getD "", password.getD ""))

/-- The handler up to its call of the service. -/
def registrationInput (json : JsonLibrary) (request : HttpMessage) :
    Except Thrown (String × String × String) := do
  let body ← parseJsonObject json request
  registrationFields body

/-! ## The rules agree -/

theorem length_lowercaseChars (value : List Char) : (lowercaseChars value).length = value.length :=
  List.length_map _

theorem findFrom_lowercaseChars {c : Char} (hc : ∀ other, toLower other = c ↔ other = c) (value : List Char)
    (start : Nat) : findFrom (lowercaseChars value) c start = findFrom value c start := by
  have hSame : (fun other => toLower other == c) = fun other => other == c := by
    funext other
    rw [Bool.eq_iff_iff, beq_iff_eq, beq_iff_eq]
    exact hc other
  rw [findFrom, findFrom, lowercaseChars, ← List.map_drop, List.findIdx?_map]
  exact congrArg _ (congrArg (fun p => List.findIdx? p (value.drop start)) hSame)

theorem toNat_toLower (c : Char) :
    (toLower c).toNat = if 65 ≤ c.toNat ∧ c.toNat ≤ 90 then c.toNat + 32 else c.toNat := by
  have hUpper : ('A' ≤ c ∧ c ≤ 'Z') ↔ 65 ≤ c.toNat ∧ c.toNat ≤ 90 := Iff.rfl
  rw [toLower]
  split <;> rename_i h
  · have hEach : ∀ i : Fin 26, (Char.ofNat (65 + i + 32)).toNat = 65 + i + 32 := by decide
    obtain ⟨hLow, hHigh⟩ := hUpper.mp h
    have hLetter := hEach ⟨c.toNat - 65, by omega⟩
    rw [if_pos ⟨hLow, hHigh⟩]
    simpa only [Nat.add_sub_cancel' hLow] using hLetter
  · rw [if_neg (fun hBounds => h (hUpper.mpr hBounds))]

/-- Lowercasing neither makes nor moves a character that is no letter. -/
theorem toLower_eq_iff {c : Char} (hc : c.toNat < 65) (other : Char) : toLower other = c ↔ other = c := by
  rw [← Char.toNat_inj, ← Char.toNat_inj, toNat_toLower]
  split <;> omega

theorem isSpace_toLower (c : Char) : isSpace (toLower c) = isSpace c := by
  have hBlanks (blank : Char) (hBlank : blank.toNat < 65) : (toLower c == blank) = (c == blank) := by
    rw [Bool.eq_iff_iff, beq_iff_eq, beq_iff_eq]
    exact toLower_eq_iff hBlank c
  rw [isSpace, isSpace, hBlanks ' ' (by decide), hBlanks '\t' (by decide), hBlanks '\n' (by decide),
    hBlanks '\x0b' (by decide), hBlanks '\x0c' (by decide), hBlanks '\r' (by decide)]

theorem validEmailBytes_lowercaseChars (value : List Char) :
    validEmailBytes (lowercaseChars value) = validEmailBytes value := by
  have hSpaces : (lowercaseChars value).all (fun c => !isSpace c) = value.all (fun c => !isSpace c) := by
    rw [lowercaseChars, List.all_map]
    congr 1
    funext c
    rw [Function.comp_apply, isSpace_toLower]
  rw [validEmailBytes, validEmailBytes]
  simp only [length_lowercaseChars, findFrom_lowercaseChars (toLower_eq_iff (by decide : '@'.toNat < 65)),
    findFrom_lowercaseChars (toLower_eq_iff (by decide : '.'.toNat < 65)), hSpaces]

theorem userService_isSpace (c : Char) : UserService.isSpace c = isSpace c := by
  have hBounds : ('\t' ≤ c ∧ c ≤ '\r') ↔ 9 ≤ c.toNat ∧ c.toNat ≤ 13 := Iff.rfl
  have hCode (blank : Char) : c = blank ↔ c.toNat = blank.toNat := Char.toNat_inj.symm
  rw [UserService.isSpace, isSpace, Bool.eq_iff_iff]
  simp only [Bool.or_eq_true, Bool.and_eq_true, decide_eq_true_eq, beq_iff_eq, hBounds, hCode]
  simp only [Char.reduceToNat]
  omega

theorem findIdx_of_findFrom {text : List Char} {c : Char} {start position : Nat}
    (h : findFrom text c start = some position) :
    position = start + (text.drop start).findIdx (fun other => other == c) ∧ position < text.length := by
  have hBounds := findFrom_bounds h
  obtain ⟨index, hIndex, rfl⟩ := Option.map_eq_some_iff.mp h
  exact ⟨by rw [(List.findIdx?_eq_some_iff_findIdx_eq.mp hIndex).2], hBounds.2⟩

theorem findIdx_of_findFrom_none {text : List Char} {c : Char} {start : Nat}
    (h : findFrom text c start = none) :
    (text.drop start).findIdx (fun other => other == c) = (text.drop start).length :=
  List.findIdx?_eq_none_iff_findIdx_eq.mp (Option.map_eq_none_iff.mp h)

theorem contains_eq_findFrom (text : List Char) (c : Char) (start : Nat) :
    (text.drop start).contains c = (findFrom text c start).isSome := by
  rw [Bool.eq_iff_iff, List.contains_iff_mem, Option.isSome_iff_ne_none, ne_eq, findFrom_eq_none, not_not]

/-- The positions that the route works with are those that the service finds. -/
theorem isValidEmail_eq (email : String) : UserService.isValidEmail email = validEmailBytes email.toList := by
  rw [UserService.isValidEmail, validEmailBytes]
  generalize email.toList = bytes
  have hSpaces : bytes.all (fun c => !UserService.isSpace c) = bytes.all (fun c => !isSpace c) := by
    congr 1
    funext c
    rw [userService_isSpace]
  simp only [hSpaces]
  cases hAt : findFrom bytes '@' 0 with
  | none =>
    have hEnd := findIdx_of_findFrom_none hAt
    rw [List.drop_zero] at hEnd
    simp [hEnd]
  | some atPosition =>
    obtain ⟨hPosition, hLess⟩ := findIdx_of_findFrom hAt
    rw [List.drop_zero, Nat.zero_add] at hPosition
    rw [← hPosition, List.drop_drop, contains_eq_findFrom]
    have hEmpty : (bytes.drop (atPosition + 1)).isEmpty = decide (bytes.length ≤ atPosition + 1) := by
      rw [Bool.eq_iff_iff, List.isEmpty_iff, List.drop_eq_nil_iff, decide_eq_true_eq]
    rw [hEmpty]
    cases hDot : findFrom bytes '.' (atPosition + 2) with
    | none =>
      have hEnd := findIdx_of_findFrom_none hDot
      simp [hDot, hEnd, Nat.add_assoc]
    | some dotPosition =>
      obtain ⟨hDotPosition, hDotLess⟩ := findIdx_of_findFrom hDot
      rw [show atPosition + 2 = atPosition + 1 + 1 from rfl] at hDotPosition
      have hDotBounds := (findFrom_bounds hDot).1
      have hRest : (bytes.drop (atPosition + 1 + 1)).findIdx (fun other => other == '.') + 1 <
          (bytes.drop (atPosition + 1 + 1)).length ↔ ¬bytes.length ≤ dotPosition + 1 := by
        rw [List.length_drop]
        omega
      rw [Bool.eq_iff_iff]
      simp only [hRest, hDot, Bool.and_eq_true, decide_eq_true_eq, bne_iff_ne, Bool.not_eq_true']
      grind

theorem validUsernameInput_eq (username : String) :
    validUsernameInput username = UserService.isValidUsername (trimCopy username) := by
  have hShort : (3 ≤ (trimCopy username).length ∧ (trimCopy username).length ≤ 32) ↔
      ¬((trimCopy username).length < 3 ∨ 32 < (trimCopy username).length) := by omega
  rw [validUsernameInput, UserService.isValidUsername, ← Bool.decide_and]
  by_cases h : (trimCopy username).length < 3 ∨ 32 < (trimCopy username).length
  · rw [if_pos h, decide_eq_false (fun hLong => hShort.mp hLong h), Bool.false_and]
  · rw [if_neg h, decide_eq_true (hShort.mpr h), Bool.true_and]
    rfl

theorem validEmailInput_eq (email : String) :
    validEmailInput email = UserService.isValidEmail (lowercaseCopy (trimCopy email)) := by
  rw [isValidEmail_eq, lowercaseCopy, String.toList_ofList, validEmailBytes_lowercaseChars]
  rfl

theorem validPasswordInput_eq (password : String) :
    validPasswordInput password = UserService.isValidPassword password := rfl

/-! ## What the route lets through -/

namespace JsonObjectValidator

variable {validator : JsonObjectValidator} {field : String} {minimumSize maximumSize : Nat}

/-- The member of an object that `requiredString` accepts. -/
def Holds (object : Json.Members) (field : String) (minimumSize maximumSize : Nat) (value : String) : Prop :=
  object.find field = some (.string value) ∧ minimumSize ≤ value.length ∧ value.length ≤ maximumSize

theorem requiredString_of_holds (validator : JsonObjectValidator) {value : String}
    (h : Holds validator.object field minimumSize maximumSize value) :
    validator.requiredString field minimumSize maximumSize = (some value, validator) := by
  obtain ⟨hFind, hLeast, hMost⟩ := h
  rw [requiredString, hFind]
  exact if_neg (by omega)

theorem addError_details_ne (reason : String) : (validator.addError field reason).details ≠ [] := by
  rw [addError]
  exact List.append_ne_nil_of_right_ne_nil _ (List.cons_ne_nil _ _)

/-- A reader that notes no error has found its value. -/
theorem holds_of_requiredString (h : (validator.requiredString field minimumSize maximumSize).2.details = []) :
    ∃ value, Holds validator.object field minimumSize maximumSize value := by
  rw [requiredString] at h
  split at h
  · exact absurd h (addError_details_ne _)
  · rename_i value hFind
    split at h
    · exact absurd h (addError_details_ne _)
    · exact ⟨value, hFind, by omega, by omega⟩
  · exact absurd h (addError_details_ne _)

theorem details_of_requiredString (h : (validator.requiredString field minimumSize maximumSize).2.details = []) :
    validator.details = [] := by
  obtain ⟨value, hHolds⟩ := holds_of_requiredString h
  rw [requiredString_of_holds validator hHolds] at h
  exact h

theorem check_of_valid {value : String} {valid : String → Bool} (h : valid value = true) (reason : String) :
    validator.check (some value) valid field reason = validator := by
  rw [check, Option.any_some, h]
  rfl

theorem of_check {value : Option String} {valid : String → Bool} {reason : String}
    (h : (validator.check value valid field reason).details = []) :
    (∀ text, value = some text → valid text = true) ∧ validator.details = [] := by
  rw [check] at h
  split at h
  · exact absurd h (addError_details_ne _)
  · rename_i hAny
    refine ⟨?_, h⟩
    rintro text rfl
    simpa using hAny

theorem of_throwIfInvalid {α : Type} {f : Unit → α} {a : α} (h : validator.throwIfInvalid.map f = .ok a) :
    validator.details = [] ∧ f () = a := by
  rw [throwIfInvalid] at h
  split at h
  · rename_i hEmpty
    cases h
    exact ⟨List.isEmpty_iff.mp hEmpty, rfl⟩
  · cases h

end JsonObjectValidator

/-- A body with the three members, each as the route wants it. -/
structure RouteAccepts (body : Json.Members) (username email password : String) : Prop where
  holdsUsername : JsonObjectValidator.Holds body "username" 1 254 username
  validUsername : validUsernameInput username = true
  holdsEmail : JsonObjectValidator.Holds body "email" 1 254 email
  validEmail : validEmailInput email = true
  holdsPassword : JsonObjectValidator.Holds body "password" 1 128 password
  validPassword : validPasswordInput password = true

theorem registrationFields_of_accepts {body : Json.Members} {username email password : String}
    (h : RouteAccepts body username email password) :
    registrationFields body = .ok (username, email, password) := by
  have hUsername := JsonObjectValidator.requiredString_of_holds { object := body } h.holdsUsername
  have hEmail := JsonObjectValidator.requiredString_of_holds { object := body } h.holdsEmail
  have hPassword := JsonObjectValidator.requiredString_of_holds { object := body } h.holdsPassword
  simp only [registrationFields, hUsername, hEmail, hPassword, JsonObjectValidator.check_of_valid h.validUsername,
    JsonObjectValidator.check_of_valid h.validEmail, JsonObjectValidator.check_of_valid h.validPassword]
  rfl

/-- Once an error is noted nothing takes it back, so each reader and each check has passed. -/
theorem accepts_of_registrationFields {body : Json.Members} {username email password : String}
    (h : registrationFields body = .ok (username, email, password)) :
    RouteAccepts body username email password := by
  simp only [registrationFields] at h
  obtain ⟨hDetails, hAnswer⟩ := JsonObjectValidator.of_throwIfInvalid h
  obtain ⟨hValidPassword, hDetails⟩ := JsonObjectValidator.of_check hDetails
  obtain ⟨hValidEmail, hDetails⟩ := JsonObjectValidator.of_check hDetails
  obtain ⟨hValidUsername, hDetails⟩ := JsonObjectValidator.of_check hDetails
  have hDetailsEmail := JsonObjectValidator.details_of_requiredString hDetails
  have hDetailsUsername := JsonObjectValidator.details_of_requiredString hDetailsEmail
  obtain ⟨username', hUsername⟩ := JsonObjectValidator.holds_of_requiredString hDetailsUsername
  have hFirst := JsonObjectValidator.requiredString_of_holds _ hUsername
  simp only [hFirst] at hDetails hDetailsEmail hValidUsername hValidEmail hValidPassword hAnswer
  obtain ⟨email', hEmail⟩ := JsonObjectValidator.holds_of_requiredString hDetailsEmail
  have hSecond := JsonObjectValidator.requiredString_of_holds _ hEmail
  simp only [hSecond] at hDetails hValidEmail hValidPassword hAnswer
  obtain ⟨password', hPassword⟩ := JsonObjectValidator.holds_of_requiredString hDetails
  have hThird := JsonObjectValidator.requiredString_of_holds _ hPassword
  simp only [hThird, Option.getD_some, Prod.mk.injEq] at hValidPassword hAnswer
  obtain ⟨rfl, rfl, rfl⟩ := hAnswer
  exact ⟨hUsername, hValidUsername _ rfl, hEmail, hValidEmail _ rfl, hPassword, hValidPassword _ rfl⟩

/-! ## What the service stores -/

theorem trimCopy_of_all {value : String} (h : ∀ c ∈ value.toList, isBlank c = false) : trimCopy value = value := by
  rw [trimCopy, trimChars_eq_self, String.ofList_toList]
  · exact fun c hc => h c (List.mem_of_mem_head? hc)
  · exact fun c hc => h c (List.mem_of_mem_getLast? hc)

theorem isBlank_eq_false {c : Char} (h : isSpace c = false) : isBlank c = false := by
  simp only [isSpace, Bool.or_eq_false_iff] at h
  simp only [isBlank, Bool.or_eq_false_iff]
  tauto

/-- No byte of a name is blank, so trimming it again changes nothing. -/
theorem validUsernameInput_of_isValidUsername {username : String} (h : UserService.isValidUsername username = true) :
    validUsernameInput username = true := by
  have hBytes := h
  rw [UserService.isValidUsername, Bool.and_eq_true, List.all_eq_true] at hBytes
  have hBlanks : ∀ c ∈ username.toList, isBlank c = false := by
    intro c hc
    by_contra hBlank
    have hCases : c = ' ' ∨ c = '\t' ∨ c = '\r' ∨ c = '\n' := by
      simp only [isBlank, Bool.not_eq_false, Bool.or_eq_true, beq_iff_eq] at hBlank
      tauto
    have hByte := hBytes.2 c hc
    obtain rfl | rfl | rfl | rfl := hCases <;> exact absurd hByte (by decide)
  rw [validUsernameInput_eq, trimCopy_of_all hBlanks, h]

theorem all_of_validEmailBytes {value : List Char} (h : validEmailBytes value = true) :
    ∀ c ∈ value, isSpace c = false := by
  rw [validEmailBytes] at h
  split at h
  · cases h
  · split at h
    · cases h
    · split at h
      · cases h
      · split at h
        · cases h
        · split at h
          · cases h
          · simpa using h

theorem validEmailInput_of_isValidEmail {email : String}
    (h : UserService.isValidEmail (lowercaseCopy email) = true) : validEmailInput email = true := by
  rw [isValidEmail_eq, lowercaseCopy, String.toList_ofList, validEmailBytes_lowercaseChars] at h
  have hBlanks : ∀ c ∈ email.toList, isBlank c = false :=
    fun c hc => isBlank_eq_false (all_of_validEmailBytes h c hc)
  rw [validEmailInput, trimCopy_of_all hBlanks, h]

theorem length_of_isValidUsername {username : String} (h : UserService.isValidUsername username = true) :
    3 ≤ username.length ∧ username.length ≤ 32 := by
  rw [UserService.isValidUsername] at h
  simp only [Bool.and_eq_true, decide_eq_true_eq] at h
  exact h.1

theorem length_of_isValidEmail {email : String} (h : UserService.isValidEmail email = true) :
    3 ≤ email.length ∧ email.length ≤ 254 := by
  rw [isValidEmail_eq, validEmailBytes] at h
  split at h
  · cases h
  · rw [← String.length_toList]
    omega

theorem length_lowercaseCopy (value : String) : (lowercaseCopy value).length = value.length := by
  rw [lowercaseCopy, ← String.length_toList, String.toList_ofList, length_lowercaseChars, String.length_toList]

/-- The route lets through whatever reads like what the service has stored. -/
theorem accepts_of_valid {username address password : String} {body : Json.Members}
    (hUsername : UserService.isValidUsername username = true)
    (hEmail : UserService.isValidEmail (lowercaseCopy address) = true)
    (hPassword : UserService.isValidPassword password = true)
    (hFindUsername : body.find "username" = some (.string username))
    (hFindEmail : body.find "email" = some (.string address))
    (hFindPassword : body.find "password" = some (.string password)) :
    RouteAccepts body username address password := by
  have hName := length_of_isValidUsername hUsername
  have hAddress := length_of_isValidEmail hEmail
  rw [length_lowercaseCopy] at hAddress
  have hWord : 8 ≤ password.length ∧ password.length ≤ 128 := by
    simpa [UserService.isValidPassword] using hPassword
  exact ⟨⟨hFindUsername, by omega, by omega⟩, validUsernameInput_of_isValidUsername hUsername,
    ⟨hFindEmail, by omega, by omega⟩, validEmailInput_of_isValidEmail hEmail,
    ⟨hFindPassword, by omega, by omega⟩, hPassword⟩

/-- An access of a registration: the users stay as they are, or one is inserted whom the route
would let through under the same name and password and any spelling of the address. -/
def StoresAcceptable (password : String) (_ : List (Act World Event)) (act : Act World Event) : Prop :=
  act.after.database = act.before.database ∨ ∃ (input : CreateUser) (now : String),
    act.after.database = act.before.database.insertUser input now ∧
    ∀ (body : Json.Members) (address : String), lowercaseCopy address = input.email →
      body.find "username" = some (.string input.username) → body.find "email" = some (.string address) →
      body.find "password" = some (.string password) →
      registrationFields body = .ok (input.username, address, password)

theorem registration_validators_agree :
    (∀ username email password : String,
      validUsernameInput username = UserService.isValidUsername (trimCopy username) ∧
      validEmailInput email = UserService.isValidEmail (lowercaseCopy (trimCopy email)) ∧
      validPasswordInput password = UserService.isValidPassword password) ∧
    (∀ json request username email password sodium,
      registrationInput json request = .ok (username, email, password) →
      Fallible.Leads (fun _ _ => True) (UserService.registerUser sodium username email password) []
        (fun _ _ => True) (fun e _ => ∀ code message, e = .registrationError code message →
          code = .duplicateUser)) ∧
    ∀ sodium username email password, Fallible.Leads (StoresAcceptable password)
      (UserService.registerUser sodium username email password) [] (fun _ _ => True) (fun _ _ => True) := by
  refine ⟨fun username email password => ⟨validUsernameInput_eq username, validEmailInput_eq email,
    validPasswordInput_eq password⟩, ?_, ?_⟩
  · intro json request username email password sodium hInput
    obtain ⟨body, hAccepts⟩ : ∃ body, RouteAccepts body username email password := by
      cases hBody : parseJsonObject json request with
      | error thrown =>
        rw [registrationInput, hBody] at hInput
        cases hInput
      | ok body =>
        rw [registrationInput, hBody] at hInput
        exact ⟨body, accepts_of_registrationFields hInput⟩
    have hName := hAccepts.validUsername
    have hAddress := hAccepts.validEmail
    have hWord := hAccepts.validPassword
    rw [validUsernameInput_eq] at hName
    rw [validEmailInput_eq] at hAddress
    rw [validPasswordInput_eq] at hWord
    refine leads_registerUser ⟨fun _ _ _ _ => trivial, ?_⟩ ?_ ?_ ?_ ?_ (fun _ _ _ _ _ _ _ _ _ _ => trivial)
    · rintro _ _ hFault code message rfl
      cases hFault
    · exact fun h => absurd hName (by simp [h])
    · exact fun h => absurd hAddress (by simp [h])
    · exact fun h => absurd hWord (by simp [h])
    · rintro _ code message hError
      cases hError
      rfl
  · intro sodium username email password
    refine leads_registerUser ⟨fun _ _ hSame _ => .inl hSame, fun _ _ _ => trivial⟩ (fun _ => trivial)
      (fun _ => trivial) (fun _ => trivial) (fun _ => trivial) ?_
    intro passwordHash now past' act hName hAddress hWord _ hAfter _
    refine .inr ⟨_, now, hAfter, ?_⟩
    intro body address hSpelling hFindUsername hFindEmail hFindPassword
    have hEmail : UserService.isValidEmail (lowercaseCopy address) = true := by rw [hSpelling]; exact hAddress
    exact registrationFields_of_accepts
      (accepts_of_valid hName hEmail hWord hFindUsername hFindEmail hFindPassword)

namespace Sample

/-- A blank before the name and a large letter in the address. -/
def newcomer : Json.Members :=
  [("email", .string "A@b.c"), ("password", .string "12345678"), ("username", .string " ann")]

def registration : HttpMessage :=
  ⟨11, "POST", "/v1/auth/register".toList, [⟨"Content-Type", "application/json".toList⟩],
    Json.printText (.object newcomer)⟩

theorem registrationInput_newcomer :
    registrationInput compactJson registration = .ok (" ann", "A@b.c", "12345678") := by
  have hUtf8 : hasUtf8 (.object newcomer) = true := by decide +kernel
  have hDump : compactJson.dump (.object newcomer) = some (Json.printText (.object newcomer)) := by
    change (if hasUtf8 (.object newcomer) then some (Json.printText (.object newcomer)) else none) = _
    rw [hUtf8]
    rfl
  have hParse := compactJson_documented.parse_dump (.object newcomer) _ (by decide +kernel) hDump
  have hBody : parseJsonObject compactJson registration = .ok newcomer := by
    rw [parseJsonObject, if_neg (by decide +kernel), if_neg (by decide +kernel)]
    rw [show registration.body = Json.printText (.object newcomer) from rfl, hParse]
  rw [registrationInput, hBody]
  exact (by decide +kernel : registrationFields newcomer = .ok (" ann", "A@b.c", "12345678"))

theorem registration_validators_agree_sample : validEmailInput "A@b.c " = true ∧
    ∀ sodium, Fallible.Leads (fun _ _ => True)
      (UserService.registerUser sodium " ann" "A@b.c" "12345678") [] (fun _ _ => True)
      (fun e _ => ∀ code message, e = .registrationError code message → code = .duplicateUser) := by
  refine ⟨?_, fun sodium => ?_⟩
  · rw [(registration_validators_agree.1 " ann" "A@b.c " "12345678").2.1]
    decide +kernel
  · exact registration_validators_agree.2.1 compactJson registration _ _ _ sodium registrationInput_newcomer

end Sample

end SecureCore
