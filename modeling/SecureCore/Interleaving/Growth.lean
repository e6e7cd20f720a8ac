import SecureCore.Interleaving.Fallible
import SecureCore.Interleaving.Pool

/-! # Executions that only move forward

If every access moves the state along a preorder, so does every stretch of an execution,
and the accesses of one thread meet the states of the execution in their order. A call
only adds to the accesses that it has made. -/

namespace Interleaving

set_option autoImplicit false

section calls

variable {ι σ ε α : Type} {Φ : List (Act σ ε) → Act σ ε → Prop}

theorem Process.Along.suffix {p : Process ι σ ε α} {past base : List (Act σ ε)}
    {post : α → List (Act σ ε) → Prop} (h : p.Along Φ past post) (hBase : base <:+ past) :
    p.Along Φ past (fun a past' => post a past' ∧ base <:+ past') := by
  induction p generalizing past with
  | done a => exact ⟨h, hBase⟩
  | access effect events next ih =>
    intro i s
    exact ⟨(h i s).1, ih i s (h i s).2 (hBase.trans (List.suffix_cons _ _))⟩

/-- What a call answers with, and that its accesses come on top of the earlier ones. -/
theorem Fallible.Leads.suffix {ξ : Type} {x : Fallible ι σ ε ξ α} {past : List (Act σ ε)}
    {K : α → List (Act σ ε) → Prop} {Z : ξ → List (Act σ ε) → Prop} (h : Leads Φ x past K Z) :
    Leads Φ x past (fun a past' => K a past' ∧ past <:+ past') Z := by
  unfold Leads at h ⊢
  refine (Process.Along.suffix h (List.suffix_refl past)).mono (fun _ _ h => h) ?_
  rintro r past' ⟨hEnd, hSuffix⟩
  cases r with
  | ok a => exact ⟨hEnd, hSuffix⟩
  | error e => exact hEnd

/-- `past` has come on top of `base`, and `P` is so of all that is new. -/
def Since (P : Act σ ε → Prop) (base past : List (Act σ ε)) : Prop :=
  ∃ newer, past = newer ++ base ∧ ∀ act ∈ newer, P act

namespace Since

variable {P : Act σ ε → Prop} {base past : List (Act σ ε)}

theorem refl (base : List (Act σ ε)) : Since P base base := ⟨[], rfl, by simp⟩

theorem cons (h : Since P base past) {act : Act σ ε} (hAct : P act) : Since P base (act :: past) := by
  obtain ⟨newer, rfl, hNewer⟩ := h
  exact ⟨act :: newer, rfl, List.forall_mem_cons.mpr ⟨hAct, hNewer⟩⟩

theorem forall_mem (h : Since P base past) (hBase : ∀ act ∈ base, P act) : ∀ act ∈ past, P act := by
  obtain ⟨newer, rfl, hNewer⟩ := h
  exact List.forall_mem_append.mpr ⟨hNewer, hBase⟩

end Since

theorem Process.Along.since {P : Act σ ε → Prop} {p : Process ι σ ε α} {past base : List (Act σ ε)}
    {post : α → List (Act σ ε) → Prop} (h : p.Along Φ past post) (hP : ∀ past act, Φ past act → P act)
    (hBase : Since P base past) :
    p.Along Φ past (fun a past' => post a past' ∧ Since P base past') := by
  induction p generalizing past with
  | done a => exact ⟨h, hBase⟩
  | access effect events next ih =>
    intro i s
    exact ⟨(h i s).1, ih i s (h i s).2 (hBase.cons (hP _ _ (h i s).1))⟩

/-- What the discipline says of each access is so of all that a call adds, however it ends. -/
theorem Fallible.Leads.since {ξ : Type} {P : Act σ ε → Prop} {x : Fallible ι σ ε ξ α} {past : List (Act σ ε)}
    {K : α → List (Act σ ε) → Prop} {Z : ξ → List (Act σ ε) → Prop} (h : Leads Φ x past K Z)
    (hP : ∀ past act, Φ past act → P act) :
    Leads Φ x past (fun a past' => K a past' ∧ Since P past past')
      (fun e past' => Z e past' ∧ Since P past past') := by
  unfold Leads at h ⊢
  refine (Process.Along.since h hP (Since.refl past)).mono (fun _ _ h => h) ?_
  rintro r past' ⟨hEnd, hSince⟩
  cases r with
  | ok a => exact ⟨hEnd, hSince⟩
  | error e => exact ⟨hEnd, hSince⟩

/-- Each access of a list obeys `Φ` given the accesses before it. -/
def Obedient (Φ : List (Act σ ε) → Act σ ε → Prop) : List (Act σ ε) → Prop
  | [] => True
  | act :: past => Φ past act ∧ Obedient Φ past

theorem Obedient.at_act {newer older : List (Act σ ε)} {act : Act σ ε}
    (h : Obedient Φ (newer ++ act :: older)) : Φ older act := by
  induction newer with
  | nil => exact h.1
  | cons act' newer ih => exact ih h.2

theorem Process.Along.obedient {p : Process ι σ ε α} {past : List (Act σ ε)}
    {post : α → List (Act σ ε) → Prop} (h : p.Along Φ past post) (hPast : Obedient Φ past) :
    p.Along Φ past (fun a past' => post a past' ∧ Obedient Φ past') := by
  induction p generalizing past with
  | done a => exact ⟨h, hPast⟩
  | access effect events next ih =>
    intro i s
    exact ⟨(h i s).1, ih i s (h i s).2 ⟨(h i s).1, hPast⟩⟩

theorem Fallible.Leads.obedient {ξ : Type} {x : Fallible ι σ ε ξ α} {past : List (Act σ ε)}
    {K : α → List (Act σ ε) → Prop} {Z : ξ → List (Act σ ε) → Prop} (h : Leads Φ x past K Z)
    (hPast : Obedient Φ past) :
    Leads Φ x past (fun a past' => K a past' ∧ Obedient Φ past')
      (fun e past' => Z e past' ∧ Obedient Φ past') := by
  unfold Leads at h ⊢
  refine (Process.Along.obedient h hPast).mono (fun _ _ h => h) ?_
  rintro r past' ⟨hEnd, hObedient⟩
  cases r with
  | ok a => exact ⟨hEnd, hObedient⟩
  | error e => exact ⟨hEnd, hObedient⟩

end calls

namespace Execution

variable {τ σ ε : Type} [DecidableEq τ] {Φ : τ → List (Act σ ε) → Act σ ε → Prop} {s : σ}

/-- Every access of a history moves the state along `R`. -/
def Forward (Φ : τ → List (Act σ ε) → Act σ ε → Prop) (s : σ) (R : σ → σ → Prop) : Prop :=
  ∀ (e : Entry τ σ ε) (older : List (Entry τ σ ε)), Execution Φ s (e :: older) → R e.before e.after

variable {R : σ → σ → Prop}

theorem Forward.stretch (hForward : Forward Φ s R) (hRefl : ∀ x, R x x)
    (hTrans : ∀ x y z, R x y → R y z → R x z) {newer older : List (Entry τ σ ε)}
    (h : Execution Φ s (newer ++ older)) :
    R (stateAfter s older) (stateAfter s (newer ++ older)) := by
  apply invariant_from (I := fun x _ => R (stateAfter s older) x) _ _ h
  · exact hRefl _
  · intro e mid hEntry hBefore
    exact hTrans _ _ _ hBefore (hForward e _ hEntry)

/-- The state that an access met lies behind the state in which the execution began. -/
theorem Forward.since (hForward : Forward Φ s R) (hRefl : ∀ x, R x x)
    (hTrans : ∀ x y z, R x y → R y z → R x z) {history : List (Entry τ σ ε)}
    (h : Execution Φ s history) {e : Entry τ σ ε} (he : e ∈ history) : R s e.before := by
  obtain ⟨newer, older, rfl⟩ := List.append_of_mem he
  rw [h.at_entry.1]
  have hOlder : Execution Φ s (older ++ []) := by
    rw [List.append_nil]
    exact h.of_append.uncons.1
  have hMoved := hForward.stretch hRefl hTrans hOlder
  rwa [List.append_nil] at hMoved

/-- The state that an access met lies before the state in which the execution ends. -/
theorem Forward.before (hForward : Forward Φ s R) (hRefl : ∀ x, R x x)
    (hTrans : ∀ x y z, R x y → R y z → R x z) {history : List (Entry τ σ ε)}
    (h : Execution Φ s history) {e : Entry τ σ ε} (he : e ∈ history) :
    R e.before (stateAfter s history) := by
  obtain ⟨newer, older, rfl⟩ := List.append_of_mem he
  rw [(h.at_entry).1]
  have hSplit : newer ++ e :: older = (newer ++ [e]) ++ older := by simp
  rw [hSplit] at h ⊢
  exact hForward.stretch hRefl hTrans h

theorem Forward.own (hForward : Forward Φ s R) (hRefl : ∀ x, R x x)
    (hTrans : ∀ x y z, R x y → R y z → R x z) {history : List (Entry τ σ ε)}
    (h : Execution Φ s history) {t : τ} {act : Act σ ε} (hAct : act ∈ own t history) :
    R act.before (stateAfter s history) := by
  obtain ⟨e, he, -, rfl⟩ := mem_own.mp hAct
  exact hForward.before hRefl hTrans h he

theorem Forward.pairwise_own (hForward : Forward Φ s R) (hRefl : ∀ x, R x x)
    (hTrans : ∀ x y z, R x y → R y z → R x z) {history : List (Entry τ σ ε)}
    (h : Execution Φ s history) (t : τ) :
    (Interleaving.own t history).Pairwise (fun later earlier => R earlier.before later.before) := by
  induction h with
  | nil => exact List.Pairwise.nil
  | @cons e older hOlder hBefore _ ih =>
    by_cases ht : e.thread = t
    · subst ht
      rw [own_cons_self, List.pairwise_cons]
      refine ⟨fun earlier hEarlier => ?_, ih⟩
      rw [hBefore]
      exact hForward.own hRefl hTrans hOlder hEarlier
    · rw [own_cons_of_ne ht]
      exact ih

end Execution

end Interleaving
