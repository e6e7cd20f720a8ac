import SecureCore.Interleaving.Process

/-! # Fallible processes: calls that return or throw

The rules by which a call written as a do block is verified: one for every way
to build such a block. `Leads` follows a call through any interleaving, `Ensures`
follows it through a run alone. -/

namespace Interleaving

set_option autoImplicit false

abbrev Fallible (ι σ ε ξ : Type) := ExceptT ξ (Process ι σ ε)

/-- What one atomic access answers, leaves and logs. -/
structure Reply (ξ σ ε α : Type) where
  result : Except ξ α
  state : σ
  events : List ε

namespace Fallible

variable {ι κ σ τ ε ξ α β : Type}

def atomic (body : ι → σ → Reply ξ σ ε α) : Fallible ι σ ε ξ α :=
  ExceptT.mk (.access (fun i s => (body i s).state) (fun i s => (body i s).events)
    (fun i s => .done (body i s).result))

def throwIf (condition : Bool) (error : ξ) : Fallible ι σ ε ξ Unit :=
  if condition then throw error else pure ()

def zoom (view : τ → σ) (put : σ → τ → τ) (input : κ → ι) (x : Fallible ι σ ε ξ α) :
    Fallible κ τ ε ξ α :=
  ExceptT.mk (Process.zoom view put input x.run)

section zoom

variable (view : τ → σ) (put : σ → τ → τ) (input : κ → ι)

@[simp] theorem zoom_pure (a : α) :
    zoom view put input (pure a : Fallible ι σ ε ξ α) = pure a := rfl

@[simp] theorem zoom_throw (error : ξ) :
    zoom view put input (throw error : Fallible ι σ ε ξ α) = throw error := rfl

@[simp] theorem zoom_throwIf (condition : Bool) (error : ξ) :
    zoom view put input (throwIf condition error : Fallible ι σ ε ξ Unit) =
      throwIf condition error := by
  cases condition <;> rfl

@[simp] theorem zoom_atomic (body : ι → σ → Reply ξ σ ε α) :
    zoom view put input (atomic body) = atomic (fun k t =>
      let reply := body (input k) (view t)
      ⟨reply.result, put reply.state t, reply.events⟩) := rfl

private theorem process_zoom_bind (p : Process ι σ ε α) (f : α → Process ι σ ε β) :
    (p >>= f).zoom view put input =
      p.zoom view put input >>= fun a => (f a).zoom view put input := by
  induction p with
  | done a => rfl
  | access effect events next ih =>
    simp only [Process.access_bind, Process.zoom, ih]

@[simp] theorem zoom_bind (x : Fallible ι σ ε ξ α) (f : α → Fallible ι σ ε ξ β) :
    zoom view put input (x >>= f) =
      zoom view put input x >>= fun a => zoom view put input (f a) := by
  change ExceptT.mk (Process.zoom view put input (x.run >>= _)) = ExceptT.mk (_ >>= _)
  rw [process_zoom_bind]
  congr 2
  funext r
  cases r <;> rfl

@[simp] theorem zoom_map (g : α → β) (x : Fallible ι σ ε ξ α) :
    zoom view put input (g <$> x) = g <$> zoom view put input x := by
  simp only [map_eq_pure_bind, zoom_bind, zoom_pure]

@[simp] theorem zoom_ite (condition : Prop) [Decidable condition] (x y : Fallible ι σ ε ξ α) :
    zoom view put input (if condition then x else y) =
      if condition then zoom view put input x else zoom view put input y := by
  split <;> rfl

end zoom

/-! ## Through any interleaving -/

section leads

variable {Φ Ψ : List (Act σ ε) → Act σ ε → Prop} {past : List (Act σ ε)}
variable {K : α → List (Act σ ε) → Prop} {Z : ξ → List (Act σ ε) → Prop}

/-- Every access of the call satisfies `Φ` given its earlier ones. On return `K`
holds of the value and of all its accesses, on an exception `Z` does. -/
def Leads (Φ : List (Act σ ε) → Act σ ε → Prop) (x : Fallible ι σ ε ξ α)
    (past : List (Act σ ε)) (K : α → List (Act σ ε) → Prop) (Z : ξ → List (Act σ ε) → Prop) :
    Prop :=
  Process.Along Φ x.run past (fun r past' => match r with
    | .ok a => K a past'
    | .error e => Z e past')

theorem leads_pure {a : α} (h : K a past) :
    Leads Φ (pure a : Fallible ι σ ε ξ α) past K Z := h

theorem leads_throw {error : ξ} (h : Z error past) :
    Leads Φ (throw error : Fallible ι σ ε ξ α) past K Z := h

theorem leads_bind {x : Fallible ι σ ε ξ α} {f : α → Fallible ι σ ε ξ β}
    {L : β → List (Act σ ε) → Prop}
    (h : Leads Φ x past (fun a past' => Leads Φ (f a) past' L Z) Z) :
    Leads Φ (x >>= f) past L Z := by
  change Process.Along Φ (x.run >>= _) past _
  rw [Process.along_bind]
  refine Process.Along.mono h (fun _ _ h => h) ?_
  intro r past' hr
  cases r with
  | ok a => exact hr
  | error e => exact hr

theorem Leads.mono {x : Fallible ι σ ε ξ α} {L : α → List (Act σ ε) → Prop}
    {Y : ξ → List (Act σ ε) → Prop} (h : Leads Φ x past K Z)
    (hΦ : ∀ past a, Φ past a → Ψ past a) (hKL : ∀ a past', K a past' → L a past')
    (hZY : ∀ e past', Z e past' → Y e past') : Leads Ψ x past L Y := by
  refine Process.Along.mono h hΦ ?_
  intro r past' hr
  cases r with
  | ok a => exact hKL a past' hr
  | error e => exact hZY e past' hr

theorem leads_atomic {body : ι → σ → Reply ξ σ ε α}
    (h : ∀ i s, Φ past ⟨s, (body i s).events, (body i s).state⟩ ∧ match (body i s).result with
      | .ok a => K a (⟨s, (body i s).events, (body i s).state⟩ :: past)
      | .error e => Z e (⟨s, (body i s).events, (body i s).state⟩ :: past)) :
    Leads Φ (atomic body) past K Z := h

theorem leads_throwIf {condition : Bool} {error : ξ} {L : Unit → List (Act σ ε) → Prop}
    (hThrow : condition = true → Z error past) (hGo : condition = false → L () past) :
    Leads Φ (throwIf condition error : Fallible ι σ ε ξ Unit) past L Z := by
  cases condition with
  | true => exact leads_throw (hThrow rfl)
  | false => exact leads_pure (hGo rfl)

theorem leads_tryCatch {x : Fallible ι σ ε ξ α} {handler : ξ → Fallible ι σ ε ξ α}
    (h : Leads Φ x past K (fun e past' => Leads Φ (handler e) past' K Z)) :
    Leads Φ (tryCatch x handler) past K Z := by
  change Process.Along Φ (x.run >>= _) past _
  rw [Process.along_bind]
  refine Process.Along.mono h (fun _ _ h => h) ?_
  intro r past' hr
  cases r with
  | ok a => exact hr
  | error e => exact hr

theorem along_of_leads {x : Fallible ι σ ε ξ α} (h : Leads Φ x past K Z) :
    Process.Along Φ x.run past (fun r past' => match r with
      | .ok a => K a past'
      | .error e => Z e past') := h

attribute [irreducible] Leads

end leads

/-! ## Through a run alone -/

section ensures

variable {s : σ}

def Ensures (x : Fallible ι σ ε ξ α) (s : σ) (Q : Except ξ α → σ → List ε → Prop) : Prop :=
  Process.Ensures x.run s Q

theorem ensures_pure {a : α} {Q : Except ξ α → σ → List ε → Prop} :
    Ensures (pure a : Fallible ι σ ε ξ α) s Q ↔ Q (.ok a) s [] := Iff.rfl

theorem ensures_throw {error : ξ} {Q : Except ξ α → σ → List ε → Prop} :
    Ensures (throw error : Fallible ι σ ε ξ α) s Q ↔ Q (.error error) s [] := Iff.rfl

theorem ensures_bind {x : Fallible ι σ ε ξ α} {f : α → Fallible ι σ ε ξ β}
    {Q : Except ξ β → σ → List ε → Prop} :
    Ensures (x >>= f) s Q ↔ Ensures x s (fun r s' log => match r with
      | .ok a => Ensures (f a) s' (fun r' s'' log' => Q r' s'' (log ++ log'))
      | .error e => Q (.error e) s' log) := by
  change Process.Ensures (x.run >>= _) s Q ↔ _
  rw [Process.ensures_bind]
  constructor <;> intro h <;> refine Process.Ensures.mono h ?_ <;> intro r s' log hr
  · cases r with
    | ok a => exact hr
    | error e => simpa [Process.Ensures, ExceptT.bindCont] using hr
  · cases r with
    | ok a => exact hr
    | error e => simpa [Process.Ensures, ExceptT.bindCont] using hr

theorem Ensures.mono {x : Fallible ι σ ε ξ α} {Q R : Except ξ α → σ → List ε → Prop}
    (h : Ensures x s Q) (hQR : ∀ r s' log, Q r s' log → R r s' log) : Ensures x s R :=
  Process.Ensures.mono h hQR

theorem ensures_atomic {body : ι → σ → Reply ξ σ ε α} {Q : Except ξ α → σ → List ε → Prop} :
    Ensures (atomic body) s Q ↔ ∀ i, Q (body i s).result (body i s).state (body i s).events := by
  simp only [Ensures, atomic, ExceptT.run_mk, Process.Ensures, List.append_nil]

theorem ensures_throwIf {condition : Bool} {error : ξ} {Q : Except ξ Unit → σ → List ε → Prop} :
    Ensures (throwIf condition error : Fallible ι σ ε ξ Unit) s Q ↔
      (condition = true → Q (.error error) s []) ∧ (condition = false → Q (.ok ()) s []) := by
  cases condition <;> simp [throwIf, ensures_pure, ensures_throw]

theorem ensures_tryCatch {x : Fallible ι σ ε ξ α} {handler : ξ → Fallible ι σ ε ξ α}
    {Q : Except ξ α → σ → List ε → Prop} :
    Ensures (tryCatch x handler) s Q ↔ Ensures x s (fun r s' log => match r with
      | .ok a => Q (.ok a) s' log
      | .error e => Ensures (handler e) s' (fun r' s'' log' => Q r' s'' (log ++ log'))) := by
  change Process.Ensures (x.run >>= _) s Q ↔ _
  rw [Process.ensures_bind]
  constructor <;> intro h <;> refine Process.Ensures.mono h ?_ <;> intro r s' log hr
  · cases r with
    | ok a => simpa [Process.Ensures] using hr
    | error e => exact hr
  · cases r with
    | ok a => simpa [Process.Ensures] using hr
    | error e => exact hr

/-- Running on one component of a larger state is running on that component. -/
theorem ensures_zoom {view : τ → σ} {put : σ → τ → τ} {input : κ → ι}
    (hView : ∀ s t, view (put s t) = s) (hPut : ∀ s s' t, put s' (put s t) = put s' t)
    (hSelf : ∀ t, put (view t) t = t)
    {x : Fallible ι σ ε ξ α} {t : τ} {Q : Except ξ α → τ → List ε → Prop}
    (h : Ensures x (view t) (fun r s log => Q r (put s t) log)) :
    Ensures (zoom view put input x) t Q := by
  unfold Ensures zoom at *
  rw [ExceptT.run_mk]
  generalize x.run = p at h
  induction p generalizing t Q with
  | done a =>
    simpa [Process.Ensures, Process.zoom, hSelf] using h
  | access effect events next ih =>
    intro k
    apply ih (input k) (view t)
    rw [hView]
    simpa [hPut] using h (input k)

end ensures

/-! ## One access after the other -/

section run

variable (inputs : Nat → ι) (s : σ)

@[simp] theorem run_pure (a : α) :
    Process.run (pure a : Fallible ι σ ε ξ α).run inputs s = ⟨.ok a, s, [], 0⟩ := rfl

@[simp] theorem run_throw (error : ξ) :
    Process.run (throw error : Fallible ι σ ε ξ α).run inputs s = ⟨.error error, s, [], 0⟩ := rfl

theorem run_atomic (body : ι → σ → Reply ξ σ ε α) :
    Process.run (atomic body).run inputs s = ⟨(body (inputs 0) s).result, (body (inputs 0) s).state,
      (body (inputs 0) s).events, 1⟩ := by
  simp [atomic, Process.run]

theorem run_bind (x : Fallible ι σ ε ξ α) (f : α → Fallible ι σ ε ξ β) :
    Process.run (x >>= f).run inputs s =
      let first := Process.run x.run inputs s
      match first.result with
      | .ok a =>
        let rest := Process.run (f a).run (fun n => inputs (n + first.used)) first.state
        ⟨rest.result, rest.state, first.events ++ rest.events, rest.used + first.used⟩
      | .error e => ⟨.error e, first.state, first.events, first.used⟩ := by
  change Process.run (x.run >>= _) inputs s = _
  rw [Process.run_bind]
  generalize Process.run x.run inputs s = first
  obtain ⟨result, state, events, used⟩ := first
  cases result with
  | ok a => rfl
  | error e => simp [ExceptT.bindCont, Process.run]

theorem run_bind_of_ok {inputs : Nat → ι} {s s' : σ} {x : Fallible ι σ ε ξ α}
    {f : α → Fallible ι σ ε ξ β} {a : α} {log : List ε} {n : Nat}
    (h : Process.run x.run inputs s = ⟨.ok a, s', log, n⟩) : Process.run (x >>= f).run inputs s =
      let rest := Process.run (f a).run (fun k => inputs (k + n)) s'
      ⟨rest.result, rest.state, log ++ rest.events, rest.used + n⟩ := by
  rw [run_bind, h]

theorem run_bind_of_error {inputs : Nat → ι} {s s' : σ} {x : Fallible ι σ ε ξ α}
    {f : α → Fallible ι σ ε ξ β} {e : ξ} {log : List ε} {n : Nat}
    (h : Process.run x.run inputs s = ⟨.error e, s', log, n⟩) :
    Process.run (x >>= f).run inputs s = ⟨.error e, s', log, n⟩ := by
  rw [run_bind, h]

theorem throwIf_false_bind (error : ξ) (f : Unit → Fallible ι σ ε ξ β) :
    (throwIf false error >>= f) = f () := rfl

theorem throwIf_true_bind (error : ξ) (f : Unit → Fallible ι σ ε ξ β) :
    (throwIf true error >>= f) = throw error := rfl

theorem run_throwIf (condition : Bool) (error : ξ) :
    Process.run (throwIf condition error : Fallible ι σ ε ξ Unit).run inputs s =
      ⟨if condition then .error error else .ok (), s, [], 0⟩ := by
  cases condition <;> rfl

theorem run_atomic_bind (body : ι → σ → Reply ξ σ ε α) (f : α → Fallible ι σ ε ξ β) :
    Process.run (atomic body >>= f).run inputs s =
      match (body (inputs 0) s).result with
      | .ok a =>
        let rest := Process.run (f a).run (fun n => inputs (n + 1)) (body (inputs 0) s).state
        { rest with
          events := (body (inputs 0) s).events ++ rest.events
          used := rest.used + 1 }
      | .error e => ⟨.error e, (body (inputs 0) s).state, (body (inputs 0) s).events, 1⟩ := by
  have hBind : (atomic body >>= f).run = Process.access (fun i s => (body i s).state)
      (fun i s => (body i s).events)
      (fun i s => match (body i s).result with
        | .ok a => (f a).run
        | .error e => .done (.error e)) := by
    change Process.access _ _ _ = _
    congr 1
  rw [hBind]
  cases h : (body (inputs 0) s).result <;> simp [Process.run, h]

theorem run_bind_pure_ok {x : Fallible ι σ ε ξ α} {f : α → β} :
    (∃ b, (Process.run (x >>= fun a => pure (f a)).run inputs s).result = .ok b) ↔
      ∃ a, (Process.run x.run inputs s).result = .ok a := by
  rw [run_bind]
  generalize Process.run x.run inputs s = first
  obtain ⟨result, state, events, used⟩ := first
  cases result with
  | ok a => exact ⟨fun _ => ⟨a, rfl⟩, fun _ => ⟨f a, rfl⟩⟩
  | error e => simp

end run

end Fallible

end Interleaving
