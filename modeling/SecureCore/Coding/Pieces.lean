import Mathlib.Data.List.Basic

/-! # Codings by pieces

A text is a coding of a list of symbols if it is made of one piece for each symbol. A
symbol may have many pieces, so a list may have many codings. -/

namespace Coding

set_option autoImplicit false

variable {α β : Type}

inductive Encodes (code : α → List β → Prop) : List α → List β → Prop
  | nil : Encodes code [] []
  | cons {a : α} {piece : List β} {value : List α} {text : List β} (hPiece : code a piece)
      (hRest : Encodes code value text) : Encodes code (a :: value) (piece ++ text)

variable {code : α → List β → Prop} {value : List α} {text : List β}

/-- What holds of the symbols of every piece holds of the whole text. -/
theorem Encodes.forall_mem {p : β → Prop} (hCode : ∀ a piece, code a piece → ∀ b ∈ piece, p b)
    (h : Encodes code value text) : ∀ b ∈ text, p b := by
  induction h with
  | nil => exact nofun
  | cons hPiece _ ih =>
    intro b hb
    rcases List.mem_append.mp hb with hb | hb
    · exact hCode _ _ hPiece b hb
    · exact ih b hb

theorem Encodes.ne_nil (hCode : ∀ a piece, code a piece → piece ≠ []) (h : Encodes code value text)
    (hValue : value ≠ []) : text ≠ [] := by
  cases h with
  | nil => exact absurd rfl hValue
  | cons hPiece _ =>
    intro hText
    exact hCode _ _ hPiece (List.append_eq_nil_iff.mp hText).1

/-- A decoder that takes one piece off the front of any text inverts every coding. -/
theorem Encodes.decode {m : Type → Type} [Applicative m] [LawfulApplicative m]
    (decode : List β → m (List α)) (hNil : decode [] = pure [])
    (hCons : ∀ a piece rest, code a piece →
      decode (piece ++ rest) = (fun value => a :: value) <$> decode rest)
    (h : Encodes code value text) : decode text = pure value := by
  induction h with
  | nil => exact hNil
  | cons hPiece _ ih => rw [hCons _ _ _ hPiece, ih, map_pure]

end Coding
