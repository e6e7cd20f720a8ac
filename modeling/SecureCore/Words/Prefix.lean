import Mathlib.Data.List.OfFn

/-! # Prefixes of words

The bits of words from the most significant one on, and the masks that select the first of
them. -/

namespace Words

set_option autoImplicit false

variable {w n : Nat} {x y : BitVec w}

def bits (x : BitVec w) : List Bool := List.ofFn (fun i : Fin w => x.getMsbD i)

theorem length_bits (x : BitVec w) : (bits x).length = w := List.length_ofFn

theorem take_bits_eq_iff (hn : n ≤ w) :
    (bits x).take n = (bits y).take n ↔ ∀ i < n, x.getMsbD i = y.getMsbD i := by
  rw [List.ext_getElem_iff]
  simp only [List.length_take, List.getElem_take, bits, List.length_ofFn, List.getElem_ofFn, true_and]
  constructor
  · intro h i hi
    exact h i (by omega) (by omega)
  · intro h i hi _
    exact h i (by omega)

/-- The word with its first `n` bits set. -/
def mask (w n : Nat) : BitVec w := BitVec.allOnes w <<< (w - n)

theorem getMsbD_mask (hn : n ≤ w) (i : Nat) : (mask w n).getMsbD i = decide (i < n) := by
  unfold mask
  rw [BitVec.getMsbD_shiftLeft, BitVec.getMsbD_allOnes, decide_eq_decide]
  omega

theorem and_mask_eq_iff (hn : n ≤ w) :
    x &&& mask w n = y &&& mask w n ↔ (bits x).take n = (bits y).take n := by
  rw [take_bits_eq_iff hn]
  constructor
  · intro h i hi
    have hBit := congrArg (fun word => BitVec.getMsbD word i) h
    simp only [BitVec.getMsbD_and, getMsbD_mask hn, hi, decide_true, Bool.and_true] at hBit
    exact hBit
  · intro h
    apply BitVec.eq_of_getMsbD_eq
    intro i _
    rw [BitVec.getMsbD_and, BitVec.getMsbD_and, getMsbD_mask hn]
    rcases Nat.lt_or_ge i n with hi | hi
    · rw [h i hi]
    · rw [decide_eq_false (Nat.not_lt.mpr hi), Bool.and_false, Bool.and_false]

/-! ## Sequences of words -/

theorem take_flatMap_bits_cons (x y : BitVec w) (xs ys : List (BitVec w)) :
    ((x :: xs).flatMap bits).take n = ((y :: ys).flatMap bits).take n ↔
      (bits x).take (min n w) = (bits y).take (min n w) ∧
        (xs.flatMap bits).take (n - min n w) = (ys.flatMap bits).take (n - min n w) := by
  have hTake : ∀ z : BitVec w, (bits z).take n = (bits z).take (min n w) := by
    intro z
    rw [List.take_eq_take_iff, length_bits]
    omega
  have hRest : n - w = n - min n w := by omega
  rw [List.flatMap_cons, List.flatMap_cons, List.take_append, List.take_append, length_bits,
    length_bits, hTake x, hTake y, hRest]
  constructor
  · intro h
    exact List.append_inj h (by rw [List.length_take, List.length_take, length_bits, length_bits])
  · rintro ⟨hFirst, hSecond⟩
    rw [hFirst, hSecond]

end Words
