import Mathlib.Data.List.Induction

/-! # Chains of hops, walked from the right

A message has passed a chain of hops, the oldest on the left, and was delivered by a
peer. Every hop vouches for the one to its left if it is trusted. -/

namespace Hops

set_option autoImplicit false

variable {α : Type}

/-- From `current` along the hops, given from right to left, up to the first hop that
is not trusted. -/
def walk (trusted : α → Bool) (current : α) : List α → α
  | [] => current
  | candidate :: rest =>
    if trusted current then
      if trusted candidate then walk trusted candidate rest else candidate
    else current

theorem walk_cons (trusted : α → Bool) (current candidate : α) (rest : List α) :
    walk trusted current (candidate :: rest) = if trusted current then
      if trusted candidate then walk trusted candidate rest else candidate else current := rfl

/-- The client of a chain: the rightmost hop that is not trusted, the leftmost one if
all are trusted, the peer if there is none. -/
inductive Client (trusted : α → Bool) (peer : α) : List α → α → Prop
  | untrusted {left right : List α} {a : α} (hUntrusted : trusted a = false)
      (hRight : ∀ b ∈ right, trusted b = true) : Client trusted peer (left ++ a :: right) a
  | leftmost {a : α} {right : List α} (hAll : ∀ b ∈ a :: right, trusted b = true) :
      Client trusted peer (a :: right) a
  | peer : Client trusted peer [] peer

variable {trusted : α → Bool}

/-- One more trusted hop on the right takes the place of the peer. -/
theorem Client.concat {peer last client : α} {chain : List α} (hLast : trusted last = true)
    (h : Client trusted last chain client) : Client trusted peer (chain ++ [last]) client := by
  cases h with
  | untrusted hUntrusted hRight =>
    rw [List.append_assoc, List.cons_append]
    apply Client.untrusted hUntrusted
    intro b hb
    rcases List.mem_append.mp hb with hb | hb
    · exact hRight b hb
    · rw [List.mem_singleton.mp hb]
      exact hLast
  | leftmost hAll =>
    rw [List.cons_append]
    apply Client.leftmost
    intro b hb
    rw [← List.cons_append] at hb
    rcases List.mem_append.mp hb with hb | hb
    · exact hAll b hb
    · rw [List.mem_singleton.mp hb]
      exact hLast
  | peer =>
    apply Client.leftmost
    intro b hb
    rw [List.mem_singleton.mp hb]
    exact hLast

theorem walk_client {peer : α} (hPeer : trusted peer = true) (chain : List α) :
    Client trusted peer chain (walk trusted peer chain.reverse) := by
  induction chain using List.reverseRecOn generalizing peer with
  | nil => exact .peer
  | append_singleton chain last ih =>
    rw [List.reverse_append, List.reverse_singleton, List.singleton_append]
    rw [walk_cons, if_pos hPeer]
    cases hLast : trusted last with
    | true =>
      rw [if_pos rfl]
      exact (ih hLast).concat hLast
    | false =>
      rw [if_neg Bool.false_ne_true]
      exact .untrusted hLast (fun b hb => absurd hb List.not_mem_nil)

/-- Hops beyond an untrusted one do not matter. -/
theorem walk_append {hops : List α} (h : ∃ b ∈ hops, trusted b = false) (peer : α) (more : List α) :
    walk trusted peer (hops ++ more) = walk trusted peer hops := by
  induction hops generalizing peer with
  | nil =>
    obtain ⟨b, hb, -⟩ := h
    cases hb
  | cons candidate rest ih =>
    rw [List.cons_append, walk_cons, walk_cons]
    cases hCandidate : trusted candidate with
    | false => rfl
    | true =>
      obtain ⟨b, hb, hUntrusted⟩ := h
      rcases List.mem_cons.mp hb with rfl | hb
      · rw [hCandidate] at hUntrusted
        cases hUntrusted
      · rw [if_pos rfl, if_pos rfl, ih ⟨b, hb, hUntrusted⟩]

/-- Prepending hops to a chain with an untrusted one does not change its client. -/
theorem walk_prepend {chain : List α} (h : ∃ b ∈ chain, trusted b = false) (peer : α)
    (left : List α) :
    walk trusted peer (left ++ chain).reverse = walk trusted peer chain.reverse := by
  rw [List.reverse_append]
  apply walk_append
  obtain ⟨b, hb, hUntrusted⟩ := h
  exact ⟨b, List.mem_reverse.mpr hb, hUntrusted⟩

/-- The rightmost untrusted hop is where the walk ends. -/
theorem walk_eq_of_untrusted {peer a : α} {right : List α} (hPeer : trusted peer = true)
    (hUntrusted : trusted a = false) (hRight : ∀ b ∈ right, trusted b = true) :
    walk trusted peer (a :: right).reverse = a := by
  induction right using List.reverseRecOn generalizing peer with
  | nil =>
    rw [List.reverse_singleton, walk_cons, if_pos hPeer, hUntrusted]
    rfl
  | append_singleton right last ih =>
    have hLast : trusted last = true := hRight last (by simp)
    rw [← List.cons_append, List.reverse_append, List.reverse_singleton, List.singleton_append]
    rw [walk_cons, if_pos hPeer, if_pos hLast]
    apply ih hLast
    intro b hb
    exact hRight b (List.mem_append_left _ hb)

end Hops
