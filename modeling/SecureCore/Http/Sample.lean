import SecureCore.Http.Session
import SecureCore.Net.ClientAddress

/-! # A server on which requests can be computed

The JSON library reads and prints the compact form; what it reads and prints is UTF-8, and
it reads what it has printed, as the real one is documented to do. -/

namespace SecureCore

set_option autoImplicit false

namespace Sample

def hasUtf8 (value : Json) : Bool := decide (∀ text ∈ value.strings, ValidUtf8 text)

def compactJson : JsonLibrary where
  parse text := (Json.readWhole text).filter (fun value => value.proper && hasUtf8 value)
  dump value := if hasUtf8 value then some (Json.printText value) else none

theorem compactJson_accepts {text : String} {value : Json} (h : compactJson.parse text = some value) :
    value.proper = true ∧ ∀ text ∈ value.strings, ValidUtf8 text := by
  have hFiltered := (Option.filter_eq_some_iff.mp h).2
  rw [Bool.and_eq_true] at hFiltered
  exact ⟨hFiltered.1, of_decide_eq_true hFiltered.2⟩

theorem readWhole_nothing {text : String} (h : text = "" ∨ text.toList.head? = some '#') :
    Json.readWhole text = none := by
  unfold Json.readWhole
  rcases h with rfl | hHead
  · rfl
  · cases hText : text.toList with
    | nil =>
      rw [hText] at hHead
      cases hHead
    | cons c rest =>
      rw [hText] at hHead
      cases hHead
      rfl

theorem compactJson_documented : compactJson.Documented where
  dump_isSome value := by
    change (if hasUtf8 value then some (Json.printText value) else none).isSome = true ↔ _
    cases h : hasUtf8 value with
    | true => exact iff_of_true rfl (of_decide_eq_true h)
    | false => exact iff_of_false Bool.false_ne_true (of_decide_eq_false h)
  parse_strings _ _ h := (compactJson_accepts h).2
  parse_proper _ _ h := (compactJson_accepts h).1
  parse_nothing text h := by
    change (Json.readWhole text).filter _ = none
    rw [readWhole_nothing h]
    rfl
  parse_dump value text hProper h := by
    change (if hasUtf8 value then some (Json.printText value) else none) = some text at h
    split at h
    · rename_i hUtf8
      cases h
      change (Json.readWhole (Json.printText value)).filter _ = some value
      rw [Json.readWhole_printText]
      exact Option.filter_eq_some_iff.mpr ⟨rfl, Bool.and_eq_true_iff.mpr ⟨hProper, hUtf8⟩⟩
    · cases h

/-- Neither HSTS nor CORS. -/
def sessionConfig : SessionConfig := ⟨dottedQuads, proxies, ⟨false, 0, false, false⟩, ⟨[], false, false, 0⟩⟩

/-- A login whose body is no JSON, by a client that closes the connection. -/
def brokenLogin : HttpMessage :=
  ⟨11, "POST", "/v1/auth/login".toList, [⟨"Host", "localhost".toList⟩, ⟨"X-Request-ID", "login-1".toList⟩,
    ⟨"Content-Type", "application/json".toList⟩, ⟨"Connection", "close".toList⟩], "\x7b"⟩

/-- What the handler throws on it. -/
def invalidJson : Thrown :=
  .api 400 ⟨"invalid_json", defaultApiErrorMessage "invalid_json", []⟩

def calmServer : Surrounding :=
  ⟨⟨1, 1⟩, ⟨2, 2⟩, .accepted, ⟨true, 0, 0, 0⟩, .thrown invalidJson, false, false⟩

end Sample

end SecureCore
