import SecureCore.Http.ApiError

/-! # Request ids -/

namespace SecureCore

set_option autoImplicit false

def isValidRequestIdCharacter (c : Char) : Bool := c.isAlphanum || c == '-' || c == '_' || c == '.'

def isValidRequestId (requestId : String) : Bool :=
  !requestId.isEmpty && requestId.length ≤ 64 && requestId.toList.all isValidRequestIdCharacter

/-- The reading of the steady clock and the counter that a new id is made of. -/
structure RequestIdSource where
  timestamp : Int
  sequence : Nat

def generateRequestId (source : RequestIdSource) : String :=
  String.ofList (Nat.toDigits 16 (source.timestamp % 2 ^ 64).toNat ++
    '-' :: Nat.toDigits 16 (source.sequence % 2 ^ 64))

def resolveRequestId (request : HttpMessage) (source : RequestIdSource) : String :=
  match Fields.find request.fields "X-Request-ID" with
  | none => generateRequestId source
  | some value =>
    if isValidRequestId (String.ofList value) then String.ofList value else generateRequestId source

def applyRequestId (json : JsonLibrary) (response : HttpResponse) (requestId : String) :
    Except Thrown HttpResponse :=
  attachRequestIdToApiError json (response.set "X-Request-ID" requestId.toList) requestId

theorem digitChar_alphanum {n : Nat} (h : n < 16) : (Nat.digitChar n).isAlphanum = true := by
  have hEach : ∀ i : Fin 16, (Nat.digitChar i).isAlphanum = true := by decide
  exact hEach ⟨n, h⟩

theorem alphanum_of_mem_toDigits {n : Nat} {c : Char} (h : c ∈ Nat.toDigits 16 n) :
    c.isAlphanum = true := by
  induction n using Nat.strongRecOn with
  | ind n ih =>
    rcases Nat.lt_or_ge n 16 with hLess | hMore
    · rw [Nat.toDigits_of_lt_base hLess, List.mem_singleton] at h
      rw [h]
      exact digitChar_alphanum hLess
    · rw [Nat.toDigits_of_base_le (by decide) hMore, List.mem_append, List.mem_singleton] at h
      rcases h with hFront | rfl
      · exact ih (n / 16) (by omega) hFront
      · exact digitChar_alphanum (Nat.mod_lt _ (by decide))

theorem generateRequestId_valid (source : RequestIdSource) :
    isValidRequestId (generateRequestId source) = true := by
  have hTime : (source.timestamp % 2 ^ 64).toNat < 16 ^ 16 := by omega
  have hSequence : source.sequence % 2 ^ 64 < 16 ^ 16 := by omega
  rw [← Nat.length_toDigits_le_iff (by decide) (by decide)] at hTime hSequence
  have hCharacters : ∀ c ∈ Nat.toDigits 16 (source.timestamp % 2 ^ 64).toNat ++
      '-' :: Nat.toDigits 16 (source.sequence % 2 ^ 64), isValidRequestIdCharacter c = true := by
    intro c hc
    unfold isValidRequestIdCharacter
    rcases List.mem_append.mp hc with hc | hc
    · rw [alphanum_of_mem_toDigits hc]
      rfl
    · rcases List.mem_cons.mp hc with rfl | hc
      · rfl
      · rw [alphanum_of_mem_toDigits hc]
        rfl
  unfold isValidRequestId generateRequestId
  rw [String.toList_ofList, List.all_eq_true.mpr hCharacters, String.length_ofList, Bool.and_true,
    Bool.and_eq_true, decide_eq_true_eq, List.length_append, List.length_cons]
  constructor
  · simp
  · omega

theorem resolveRequestId_valid (request : HttpMessage) (source : RequestIdSource) :
    isValidRequestId (resolveRequestId request source) = true := by
  unfold resolveRequestId
  split
  · exact generateRequestId_valid source
  · split
    · rename_i hValid
      exact hValid
    · exact generateRequestId_valid source

end SecureCore
