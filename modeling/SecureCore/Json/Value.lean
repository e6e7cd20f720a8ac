import Mathlib.Algebra.Group.Int.Defs
import Mathlib.Data.List.Basic

/-! # JSON values

Objects hold their members in the order of the keys, each key once; numbers are 64-bit
integers of either sign or doubles, known by their bits. -/

set_option autoImplicit false

inductive Json where
  | null
  | boolean (value : Bool)
  | integer (value : Int)
  | float (bits : BitVec 64)
  | string (value : String)
  | array (items : List Json)
  | object (members : List (String × Json))

namespace Json

abbrev Members := List (String × Json)

mutual

/-- All strings in a value, the keys of its objects among them. -/
def strings : Json → List String
  | string value => [value]
  | array items => stringsOfItems items
  | object members => stringsOfMembers members
  | _ => []

def stringsOfItems : List Json → List String
  | [] => []
  | item :: items => strings item ++ stringsOfItems items

def stringsOfMembers : Members → List String
  | [] => []
  | (key, value) :: members => key :: (strings value ++ stringsOfMembers members)

end

def Sorted (members : Members) : Prop := (members.map Prod.fst).Pairwise (· < ·)

mutual

/-- A value that a document can stand for: no infinity, no NaN, no repeated key. -/
def proper : Json → Bool
  | integer value => -2 ^ 63 ≤ value && value < 2 ^ 64
  | float bits => bits.extractLsb' 52 11 != BitVec.allOnes 11
  | array items => properItems items
  | object members => (members.map Prod.fst).Pairwise (· < ·) && properMembers members
  | _ => true

def properItems : List Json → Bool
  | [] => true
  | item :: items => proper item && properItems items

def properMembers : Members → Bool
  | [] => true
  | (_, value) :: members => proper value && properMembers members

end

namespace Members

def find (members : Members) (key : String) : Option Json :=
  (members.find? (fun member => member.1 == key)).map Prod.snd

/-- The member of this key is put in, or gets the new value. -/
def insert (members : Members) (key : String) (value : Json) : Members :=
  match members with
  | [] => [(key, value)]
  | member :: rest =>
    if key < member.1 then (key, value) :: member :: rest
    else if key = member.1 then (key, value) :: rest
    else member :: insert rest key value

/-- The object of a list of members in any order. -/
def ofList (members : Members) : Members :=
  members.foldl (fun built member => insert built member.1 member.2) []

variable {members : Members} {key other text : String} {value : Json}

theorem insert_of_lt {x : Json} (h : key < other) (members : Members) (value : Json) :
    insert ((other, x) :: members) key value = (key, value) :: (other, x) :: members := by
  rw [insert, if_pos h]

theorem insert_of_gt {x : Json} (h : ¬key < other) (hNe : key ≠ other) (members : Members)
    (value : Json) : insert ((other, x) :: members) key value = (other, x) :: insert members key value := by
  rw [insert, if_neg h, if_neg hNe]

theorem proper_object (hSorted : Sorted members) (h : properMembers members = true) :
    (object members).proper = true := by
  rw [proper, Bool.and_eq_true, decide_eq_true_eq]
  exact ⟨hSorted, h⟩

theorem find_cons (member : String × Json) (members : Members) (key : String) :
    find (member :: members) key = if member.1 = key then some member.2 else find members key := by
  unfold find
  rw [List.find?_cons]
  by_cases h : member.1 = key
  · rw [beq_iff_eq.mpr h, if_pos h]
    rfl
  · rw [beq_false_of_ne h, if_neg h]

theorem find_insert (members : Members) (key : String) (value : Json) :
    find (insert members key value) key = some value := by
  induction members with
  | nil =>
    rw [insert, find_cons, if_pos rfl]
  | cons member rest ih =>
    rw [insert]
    split
    · rw [find_cons, if_pos rfl]
    · rename_i hNotLess
      split
      · rw [find_cons, if_pos rfl]
      · rename_i hNe
        rw [find_cons, if_neg (fun h => hNe h.symm), ih]

theorem strings_of_find (h : find members key = some value) (hText : text ∈ value.strings) :
    text ∈ stringsOfMembers members := by
  induction members with
  | nil => cases h
  | cons member rest ih =>
    rw [stringsOfMembers, List.mem_cons, List.mem_append]
    rw [find_cons] at h
    split at h
    · cases h
      exact .inr (.inl hText)
    · exact .inr (.inr (ih h))

theorem proper_of_find (h : find members key = some value) (hMembers : properMembers members = true) :
    value.proper = true := by
  induction members with
  | nil => cases h
  | cons member rest ih =>
    rw [properMembers, Bool.and_eq_true] at hMembers
    rw [find_cons] at h
    split at h
    · cases h
      exact hMembers.1
    · exact ih h hMembers.2

theorem mem_keys_insert :
    other ∈ (insert members key value).map Prod.fst ↔ other = key ∨ other ∈ members.map Prod.fst := by
  induction members with
  | nil => simp [insert]
  | cons member rest ih =>
    rw [insert]
    split
    · simp
    · split
      · rename_i hEq
        rw [List.map_cons, List.map_cons, List.mem_cons, List.mem_cons, hEq]
        simp
      · rw [List.map_cons, List.map_cons, List.mem_cons, List.mem_cons, ih]
        exact or_left_comm

theorem sorted_insert (h : Sorted members) : Sorted (insert members key value) := by
  induction members with
  | nil => exact List.pairwise_singleton _ _
  | cons member rest ih =>
    unfold Sorted at h ih
    rw [List.map_cons, List.pairwise_cons] at h
    rw [insert]
    split
    · rename_i hLess
      refine List.pairwise_cons.mpr ⟨?_, List.pairwise_cons.mpr h⟩
      intro k hk
      rcases List.mem_cons.mp hk with rfl | hk
      · exact hLess
      · exact String.lt_trans hLess (h.1 k hk)
    · rename_i hNotLess
      split
      · rename_i hEq
        refine List.pairwise_cons.mpr ⟨?_, h.2⟩
        rw [hEq]
        exact h.1
      · rename_i hNe
        refine List.pairwise_cons.mpr ⟨?_, ih h.2⟩
        intro k hk
        rcases mem_keys_insert.mp hk with rfl | hk
        · exact Std.lt_of_le_of_ne hNotLess (fun hEq => hNe hEq.symm)
        · exact h.1 k hk

theorem mem_strings_insert (h : text ∈ stringsOfMembers (insert members key value)) :
    text = key ∨ text ∈ value.strings ∨ text ∈ stringsOfMembers members := by
  induction members with
  | nil =>
    rw [insert, stringsOfMembers, stringsOfMembers, List.append_nil, List.mem_cons] at h
    rcases h with hKey | hValue
    · exact .inl hKey
    · exact .inr (.inl hValue)
  | cons member rest ih =>
    rw [insert] at h
    split at h
    · rw [stringsOfMembers, List.mem_cons, List.mem_append] at h
      rcases h with hKey | hValue | hRest
      · exact .inl hKey
      · exact .inr (.inl hValue)
      · exact .inr (.inr hRest)
    · split at h
      · rw [stringsOfMembers, List.mem_cons, List.mem_append] at h
        rcases h with hKey | hValue | hRest
        · exact .inl hKey
        · exact .inr (.inl hValue)
        · right
          right
          rw [stringsOfMembers, List.mem_cons, List.mem_append]
          exact .inr (.inr hRest)
      · rw [stringsOfMembers, List.mem_cons, List.mem_append] at h ⊢
        rcases h with hKey | hValue | hRest
        · exact .inr (.inr (.inl hKey))
        · exact .inr (.inr (.inr (.inl hValue)))
        · rcases ih hRest with hKey | hValue | hOld
          · exact .inl hKey
          · exact .inr (.inl hValue)
          · exact .inr (.inr (.inr (.inr hOld)))

theorem find_insert_of_ne (h : other ≠ key) (members : Members) (value : Json) :
    find (insert members key value) other = find members other := by
  induction members with
  | nil => rw [insert, find_cons, if_neg (fun hEq => h hEq.symm)]
  | cons member rest ih =>
    rw [insert]
    split
    · rw [find_cons, if_neg (fun hEq => h hEq.symm)]
    · split
      · rename_i hKey
        rw [find_cons, find_cons, if_neg (fun hEq => h hEq.symm), if_neg (fun hEq => h (hEq.symm.trans hKey.symm))]
      · rw [find_cons, find_cons, ih]

theorem mem_strings_ofList (h : text ∈ stringsOfMembers (ofList members)) :
    text ∈ stringsOfMembers members := by
  have hFold : ∀ built : Members,
      text ∈ stringsOfMembers (members.foldl (fun built member => insert built member.1 member.2) built) →
        text ∈ stringsOfMembers built ∨ text ∈ stringsOfMembers members := by
    clear h
    induction members with
    | nil => exact fun built h => .inl h
    | cons member rest ih =>
      intro built h
      rw [List.foldl_cons] at h
      rw [stringsOfMembers, List.mem_cons, List.mem_append]
      rcases ih _ h with hBuilt | hRest
      · rcases mem_strings_insert hBuilt with hKey | hValue | hOld
        · exact .inr (.inl hKey)
        · exact .inr (.inr (.inl hValue))
        · exact .inl hOld
      · exact .inr (.inr (.inr hRest))
  exact (hFold [] h).resolve_left List.not_mem_nil

theorem properMembers_insert (h : properMembers members = true) (hValue : value.proper = true) :
    properMembers (insert members key value) = true := by
  induction members with
  | nil =>
    rw [insert, properMembers, hValue]
    rfl
  | cons member rest ih =>
    have hParts := h
    rw [properMembers, Bool.and_eq_true] at hParts
    rw [insert]
    split
    · rw [properMembers, hValue, h]
      rfl
    · split
      · rw [properMembers, hValue, hParts.2]
        rfl
      · rw [properMembers, hParts.1, ih hParts.2]
        rfl

theorem proper_insert (h : (object members).proper = true) (hValue : value.proper = true) :
    (object (insert members key value)).proper = true := by
  rw [proper, Bool.and_eq_true, decide_eq_true_eq] at h ⊢
  exact ⟨sorted_insert h.1, properMembers_insert h.2 hValue⟩

end Members

end Json
