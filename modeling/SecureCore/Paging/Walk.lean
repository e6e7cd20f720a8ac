import Mathlib.Data.List.Infix
import Mathlib.Data.List.Chain

/-! # Reading changing contents page by page

A reader asks for one page after the other, at offsets that grow by the size of a page,
until it gets a short one. Between two of its requests the contents change. Contents
that grow at their end are read without a gap and without a repetition. Where new
elements come in at the front and old ones go at the end, whatever stays is read. -/

namespace Paging

set_option autoImplicit false

variable {α : Type} {size offset : Nat}

def page (size offset : Nat) (contents : List α) : List α := (contents.drop offset).take size

/-- The pages that a reader takes, from an offset on, out of the contents that it meets. -/
inductive Walk (size : Nat) : Nat → List (List α) → List (List α) → Prop
  | stop (offset : Nat) (contents : List α) : Walk size offset [contents] [page size offset contents]
  | next {offset : Nat} {contents : List α} {later pages : List (List α)}
      (hFull : (page size offset contents).length = size) (hRest : Walk size (offset + size) later pages) :
      Walk size offset (contents :: later) (page size offset contents :: pages)

namespace Walk

variable {met pages : List (List α)}

theorem met_ne_nil (h : Walk size offset met pages) : met ≠ [] := by
  cases h <;> exact List.cons_ne_nil _ _

theorem pages_ne_nil (h : Walk size offset met pages) : pages ≠ [] := by
  cases h <;> exact List.cons_ne_nil _ _

theorem length_eq (h : Walk size offset met pages) : pages.length = met.length := by
  induction h with
  | stop => rfl
  | next _ _ ih => rw [List.length_cons, List.length_cons, ih]

/-- Each page is cut from one of the contents met. -/
theorem mem_pages (h : Walk size offset met pages) {read : List α} (hRead : read ∈ pages) :
    ∃ contents ∈ met, ∃ start, read = page size start contents := by
  induction h with
  | stop offset contents => exact ⟨contents, List.mem_cons_self, offset, List.mem_singleton.mp hRead⟩
  | @next offset contents later pages hFull hRest ih =>
    rcases List.mem_cons.mp hRead with rfl | hLater
    · exact ⟨contents, List.mem_cons_self, offset, rfl⟩
    · obtain ⟨contents', hMem, hPage⟩ := ih hLater
      exact ⟨contents', List.mem_cons_of_mem _ hMem, hPage⟩

/-- A full page stays as it is while the contents grow at their end. -/
theorem page_of_prefix {contents grown : List α} (hGrown : contents <+: grown)
    (hFull : (page size offset contents).length = size) : page size offset grown = page size offset contents := by
  obtain ⟨added, rfl⟩ := hGrown
  have hEnough : size ≤ (contents.drop offset).length := by
    rw [page, List.length_take] at hFull
    omega
  rw [page, page, List.drop_append, List.take_append_of_le_length hEnough]

theorem flatten_eq (h : Walk size offset met pages) (hGrows : met.Pairwise (· <+: ·)) :
    pages.flatten = ((met.getLast h.met_ne_nil).drop offset).take (pages.length * size) := by
  induction h with
  | stop offset contents =>
    simp only [List.flatten_cons, List.flatten_nil, List.append_nil, List.getLast_singleton,
      List.length_singleton, Nat.one_mul, page]
  | @next offset contents later pages hFull hRest ih =>
    rw [List.pairwise_cons] at hGrows
    have hPrefix := hGrows.1 _ (List.getLast_mem hRest.met_ne_nil)
    rw [List.getLast_cons hRest.met_ne_nil, List.flatten_cons, ih hGrows.2, ← page_of_prefix hPrefix hFull,
      page, ← List.drop_drop, ← List.take_add, List.length_cons, Nat.succ_mul, Nat.add_comm]

/-- A short last page says that the contents end there. -/
theorem length_lt (h : Walk size offset met pages) (hShort : (pages.getLast h.pages_ne_nil).length < size) :
    (met.getLast h.met_ne_nil).length < offset + pages.length * size := by
  induction h with
  | stop offset contents =>
    rw [List.getLast_singleton, page, List.length_take, List.length_drop] at hShort
    rw [List.getLast_singleton, List.length_singleton]
    omega
  | @next offset contents later pages hFull hRest ih =>
    rw [List.getLast_cons hRest.pages_ne_nil] at hShort
    have hRestShort := ih hShort
    rw [List.getLast_cons hRest.met_ne_nil, List.length_cons, Nat.succ_mul]
    omega

/-- Read to the end, the pages are the contents that the last page was taken from. -/
theorem flatten_of_short (h : Walk size offset met pages) (hGrows : met.Pairwise (· <+: ·))
    (hShort : (pages.getLast h.pages_ne_nil).length < size) :
    pages.flatten = (met.getLast h.met_ne_nil).drop offset := by
  have hLength := h.length_lt hShort
  rw [h.flatten_eq hGrows, List.take_of_length_le]
  rw [List.length_drop]
  omega

end Walk

/-! ## Elements that come in at the front -/

/-- Some elements went at the end and others, all of them new, came in at the front. -/
def Shifted (before after : List α) : Prop :=
  ∃ added kept dropped, before = kept ++ dropped ∧ after = added ++ kept ∧ ∀ x ∈ added, x ∉ before

namespace Shifted

variable {before after : List α}

theorem refl (contents : List α) : Shifted contents contents :=
  ⟨[], contents, [], by simp, by simp, by simp⟩

/-- What stays does not come nearer to the front. -/
theorem mem_drop (h : Shifted before after) (hNodup : before.Nodup) {x : α}
    (hBefore : x ∈ before.drop offset) (hAfter : x ∈ after) : x ∈ after.drop offset := by
  obtain ⟨added, kept, dropped, rfl, rfl, hNew⟩ := h
  have hOld : x ∈ kept ++ dropped := List.mem_of_mem_drop hBefore
  have hKept : x ∈ kept := (List.mem_append.mp hAfter).resolve_left (fun hAdded => hNew x hAdded hOld)
  have hBehind : x ∈ kept.drop offset := by
    rw [← List.take_append_drop offset kept, List.mem_append] at hKept
    refine hKept.resolve_left (fun hFront => ?_)
    rw [← List.take_append_drop offset (kept ++ dropped), List.nodup_append] at hNodup
    refine hNodup.2.2 x ?_ x hBefore rfl
    rw [List.take_append]
    exact List.mem_append_left _ hFront
  rw [List.drop_append, List.mem_append]
  refine .inr ?_
  have hSplit : kept.drop offset = (kept.drop (offset - added.length)).drop (offset - (offset - added.length)) := by
    rw [List.drop_drop]
    congr 1
    omega
  rw [hSplit] at hBehind
  exact List.mem_of_mem_drop hBehind

end Shifted

/-- Whatever is there all the time is on one of the pages. -/
theorem Walk.mem_flatten {met pages : List (List α)} (h : Walk size offset met pages)
    (hShifted : met.IsChain Shifted) (hNodup : ∀ contents ∈ met, contents.Nodup)
    (hShort : (pages.getLast h.pages_ne_nil).length < size) {x : α} (hStays : ∀ contents ∈ met, x ∈ contents)
    (hAhead : x ∈ (met.head h.met_ne_nil).drop offset) : x ∈ pages.flatten := by
  induction h with
  | stop offset contents =>
    rw [List.head_singleton] at hAhead
    rw [List.getLast_singleton, page, List.length_take] at hShort
    rw [List.flatten_cons, List.flatten_nil, List.append_nil, page, List.take_of_length_le (by omega)]
    exact hAhead
  | @next offset contents later pages hFull hRest ih =>
    rw [List.head_cons] at hAhead
    rw [List.getLast_cons hRest.pages_ne_nil] at hShort
    rw [List.flatten_cons, List.mem_append]
    rw [← List.take_append_drop size (contents.drop offset), List.mem_append, List.drop_drop] at hAhead
    rcases hAhead with hHere | hLater
    · exact .inl hHere
    · refine .inr (ih (List.IsChain.tail hShifted) (fun c hc => hNodup c (List.mem_cons_of_mem _ hc)) hShort
        (fun c hc => hStays c (List.mem_cons_of_mem _ hc)) ?_)
      obtain ⟨following, rest, rfl⟩ := List.exists_cons_of_ne_nil hRest.met_ne_nil
      rw [List.head_cons]
      rw [List.isChain_cons_cons] at hShifted
      exact hShifted.1.mem_drop (hNodup contents List.mem_cons_self) hLater
        (hStays following (List.mem_cons_of_mem _ List.mem_cons_self))

end Paging
