import Mathlib.Data.String.Basic
import SecureCore.Http.Middleware
import SecureCore.Http.RequestValidation
import SecureCore.Ordered.Search

/-! # The constructor of CorsPolicy -/

namespace SecureCore

set_option autoImplicit false

open RequestValidation

namespace CorsPolicy

def containsSpaceOrControl (value : List Char) : Bool :=
  value.any (fun character => isSpace character || decide (character.toNat < 0x20) || character.toNat == 0x7f)

def authorityStart (origin : List Char) : Option Nat :=
  if "http://".toList.isPrefixOf origin then some 7
  else if "https://".toList.isPrefixOf origin then some 8
  else none

def validExactOrigin (origin : List Char) : Bool :=
  if origin.isEmpty || containsSpaceOrControl origin then false
  else match authorityStart origin with
    | none => false
    | some start =>
      if origin.length ≤ start then false
      else
        let authority := origin.drop start
        if authority.contains '/' || authority.contains '?' || authority.contains '#' || authority.contains '@' then
          false
        else !authority.isEmpty

/-- The loop over the origins stops at the first that is neither the wildcard nor valid. -/
def firstInvalid (allowedOrigins : List String) : Option String :=
  allowedOrigins.find? (fun origin => origin != "*" && !validExactOrigin origin.toList)

def make (allowedOrigins : List String) (allowCredentials : Bool) (maxAgeSeconds : Nat) :
    Except Exception CorsPolicy :=
  let wildcard := allowedOrigins.contains "*"
  if allowedOrigins.isEmpty then .error (.invalidArgument "CORS allowed origin list must not be empty")
  else match firstInvalid allowedOrigins with
    | some origin => .error (.invalidArgument ("Invalid CORS origin: " ++ origin))
    | none =>
      if wildcard && allowedOrigins.length != 1 then
        .error (.invalidArgument "CORS wildcard cannot be combined with exact origins")
      else if wildcard && allowCredentials then
        .error (.invalidArgument "CORS credentials cannot be enabled with wildcard origin")
      else if Ordered.hasEqualNeighbours (Ordered.sort allowedOrigins) then
        .error (.invalidArgument "CORS allowed origins must not contain duplicates")
      else .ok ⟨Ordered.sort allowedOrigins, wildcard, allowCredentials, maxAgeSeconds⟩

/-- CorsPolicy::allows with its binary search. -/
def search (policy : CorsPolicy) (origin : List Char) : Bool :=
  if policy.wildcard then true else Ordered.binarySearch policy.allowedOrigins (String.ofList origin)

/-! ## Accepted policies -/

/-- What the constructor demands of its arguments. -/
structure Acceptable (allowedOrigins : List String) (allowCredentials : Bool) : Prop where
  nonempty : allowedOrigins ≠ []
  valid : ∀ origin ∈ allowedOrigins, origin = "*" ∨ validExactOrigin origin.toList = true
  alone : "*" ∈ allowedOrigins → allowedOrigins.length = 1 ∧ allowCredentials = false
  nodup : allowedOrigins.Nodup

variable {allowedOrigins : List String} {allowCredentials : Bool} {maxAgeSeconds : Nat} {policy : CorsPolicy}

theorem firstInvalid_eq_none : firstInvalid allowedOrigins = none ↔
    ∀ origin ∈ allowedOrigins, origin = "*" ∨ validExactOrigin origin.toList = true := by
  rw [firstInvalid, List.find?_eq_none]
  refine forall₂_congr (fun origin _ => ?_)
  rw [Bool.and_eq_true, bne_iff_ne, Bool.not_eq_true', not_and_or, not_not, Bool.not_eq_false]

theorem make_eq_ok_iff : make allowedOrigins allowCredentials maxAgeSeconds = .ok policy ↔
    Acceptable allowedOrigins allowCredentials ∧
      policy = ⟨Ordered.sort allowedOrigins, allowedOrigins.contains "*", allowCredentials, maxAgeSeconds⟩ := by
  constructor
  · intro h
    rw [make] at h
    split at h
    · cases h
    · rename_i hNonempty
      split at h
      · cases h
      · rename_i hValid
        split at h
        · cases h
        · rename_i hAlone
          split at h
          · cases h
          · rename_i hCredentials
            split at h
            · cases h
            · rename_i hNodup
              cases h
              rw [Ordered.sort_hasEqualNeighbours, not_not] at hNodup
              refine ⟨⟨by simpa using hNonempty, firstInvalid_eq_none.mp hValid, ?_, hNodup⟩, rfl⟩
              intro hWildcard
              have hContains : allowedOrigins.contains "*" = true := List.contains_iff_mem.mpr hWildcard
              rw [hContains] at hAlone hCredentials
              exact ⟨by simpa using hAlone, by simpa using hCredentials⟩
  · rintro ⟨hAcceptable, rfl⟩
    have hAlone : ¬(allowedOrigins.contains "*" && allowedOrigins.length != 1) = true := by
      rw [Bool.and_eq_true, List.contains_iff_mem, bne_iff_ne]
      exact fun h => h.2 (hAcceptable.alone h.1).1
    have hCredentials : ¬(allowedOrigins.contains "*" && allowCredentials) = true := by
      rw [Bool.and_eq_true, List.contains_iff_mem]
      exact fun h => by simp [(hAcceptable.alone h.1).2] at h
    have hNodup : ¬Ordered.hasEqualNeighbours (Ordered.sort allowedOrigins) = true := by
      rw [Ordered.sort_hasEqualNeighbours, not_not]
      exact hAcceptable.nodup
    rw [make, if_neg (by simpa using hAcceptable.nonempty), firstInvalid_eq_none.mpr hAcceptable.valid]
    simp only [if_neg hAlone, if_neg hCredentials, if_neg hNodup]

/-- The list of an accepted policy is sorted, so the binary search finds what it holds. -/
theorem search_eq (h : make allowedOrigins allowCredentials maxAgeSeconds = .ok policy) (origin : List Char) :
    policy.search origin = policy.allows origin := by
  obtain ⟨-, rfl⟩ := make_eq_ok_iff.mp h
  have hSearch : Ordered.binarySearch (Ordered.sort allowedOrigins) (String.ofList origin) =
      (Ordered.sort allowedOrigins).contains (String.ofList origin) := by
    rw [Bool.eq_iff_iff, Ordered.binarySearch_iff (Ordered.sort_pairwise _), List.contains_iff_mem]
  rw [search, allows, hSearch]
  cases allowedOrigins.contains "*" <;> rfl

/-- What an accepted policy allows is what it was made of. -/
theorem allows_iff (h : make allowedOrigins allowCredentials maxAgeSeconds = .ok policy) (origin : List Char) :
    policy.allows origin = true ↔ "*" ∈ allowedOrigins ∨ String.ofList origin ∈ allowedOrigins := by
  obtain ⟨-, rfl⟩ := make_eq_ok_iff.mp h
  rw [allows, Bool.or_eq_true, List.contains_iff_mem, List.contains_iff_mem,
    (Ordered.sort_perm allowedOrigins).mem_iff]

end CorsPolicy

end SecureCore
