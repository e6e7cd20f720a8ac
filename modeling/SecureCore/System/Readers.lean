import SecureCore.Interleaving.Growth
import SecureCore.System.Obedience

/-! # A reader beside the operations

One more call beside those of a deployment, whose answer is kept. It only reads, so to the
others it is like a call of authenticate. -/

namespace SecureCore

set_option autoImplicit false

open Interleaving Relational

namespace Deployment

variable {τ α : Type} (d : Deployment)

def readerPool (calls : τ → Operation) (reader : Call α) (world : World) :
    Pool (Option τ) (Nat → Surroundings) World Event (Except Exception (Option α)) :=
  Pool.start (fun t => match t with
    | some t => (do d.call (calls t); pure none : Call (Option α)).run
    | none => (do let answer ← reader; pure (some answer) : Call (Option α)).run) world

end Deployment

section runs

variable {τ α : Type} [DecidableEq τ] {d : Deployment} {calls : τ → Operation}

/-- The threads of a pool with a reader, as the others see them. -/
def besideReader (calls : τ → Operation) : Option τ → Operation
  | some t => calls t
  | none => .authenticate 0 ""

/-- An answer that the reader has returned is one that its accesses account for. -/
def ReaderReturns (K : α → List (Act World Event) → Prop) (t : Option τ)
    (r : Except Exception (Option α)) (past : List (Act World Event)) : Prop :=
  ∀ answer, t = none → r = .ok (some answer) → K answer past

theorem running_readerPool {reader : Call α} {K : α → List (Act World Event) → Prop}
    {Z : Exception → List (Act World Event) → Prop}
    (hReader : Fallible.Leads (Obeys d (.authenticate 0 "")) reader [] K Z) (world : World)
    (schedule : List (Option τ × (Nat → Surroundings))) :
    Pool.Running (fun t => Obeys d (besideReader calls t)) (ReaderReturns K) world
      ((d.readerPool calls reader world).run schedule) := by
  refine Pool.running_of_along (fun t => ?_) world schedule
  cases t with
  | some t =>
    have hCall : Fallible.Leads (Obeys d (calls t)) (do d.call (calls t); pure none : Call (Option α)) []
        (fun _ _ => True) (fun _ _ => True) :=
      Fallible.leads_bind ((leads_call d (calls t)).mono (fun _ _ h => h)
        (fun _ _ _ => Fallible.leads_pure trivial) (fun _ _ _ => trivial))
    refine (Fallible.along_of_leads hCall).mono (fun _ _ h => h) ?_
    intro r past' _ answer hThread
    cases hThread
  | none =>
    have hCall : Fallible.Leads (Obeys d (.authenticate 0 ""))
        (do let answer ← reader; pure (some answer) : Call (Option α)) []
        (fun r past' => ∀ answer, r = some answer → K answer past') (fun _ _ => True) := by
      refine Fallible.leads_bind (hReader.mono (fun _ _ h => h) (fun answer past' hK => ?_) (fun _ _ _ => trivial))
      refine Fallible.leads_pure ?_
      rintro answer' hAnswer
      cases hAnswer
      exact hK
    refine (Fallible.along_of_leads hCall).mono (fun _ _ h => h) ?_
    rintro r past' hEnd answer - rfl
    exact hEnd answer rfl

/-- What the reader has answered in a run. -/
theorem readerPool_answer {reader : Call α} {K : α → List (Act World Event) → Prop}
    {Z : Exception → List (Act World Event) → Prop}
    (hReader : Fallible.Leads (Obeys d (.authenticate 0 "")) reader [] K Z) {world : World}
    {schedule : List (Option τ × (Nat → Surroundings))} {answer : α}
    (hReturned : (((d.readerPool calls reader world).run schedule).threads none).result? = some (.ok (some answer))) :
    K answer (own none ((d.readerPool calls reader world).run schedule).history) :=
  (running_readerPool hReader world schedule).returned (Process.eq_done_of_result? hReturned) answer rfl rfl

end runs

/-! ## What a reader calls -/

section calls

variable {d : Deployment} {Φ : List (Act World Event) → Act World Event → Prop}
  {past : List (Act World Event)} {α : Type}

/-- One SELECT with no events on a connection of its own. -/
theorem leads_query {error : Int → Exception} {query : Database → α} {K : α → List (Act World Event) → Prop}
    (hΦ : Admissible Φ (fun _ _ => True)) (hError : ∀ code, (error code).isFault = true)
    (h : ∀ act past', past <:+ past' → K (query act.before.database) (act :: past')) :
    Fallible.Leads Φ (Database.withLockedHandle (Sql.select error query (fun _ => []))) past K (fun _ _ => True) :=
  leads_select hΦ hError (fun _ => rfl) (fun act past' hPast _ => h act past' hPast.suffix)

theorem leads_permitted {service : AuthService} (hService : service.sodium = d.sodium)
    {accessToken permission : String} {K : User → List (Act World Event) → Prop}
    (hΦ : Admissible Φ (fun _ _ => True)) (h : ∀ administrator past', past <:+ past' → K administrator past') :
    Fallible.Leads Φ (AdminService.authenticateWithPermission service accessToken permission) past K
      (fun _ _ => True) :=
  (leads_authenticateWithPermission (K := fun _ _ => True) hService
    ⟨accessToken, permission, 0, fun _ => .enable⟩ hΦ (fun _ _ _ => trivial)).suffix.mono (fun _ _ h => h)
    (fun administrator past' hPast => h administrator past' hPast.2) (fun _ _ h => h)

end calls

end SecureCore
