import SecureCore.Http.RbacRoutes
import SecureCore.Interleaving.Projection
import SecureCore.Runtime.ServiceState

/-! # Route handlers as calls

A handler reads its request, asks a service, records what came of it and answers. Between
two of its accesses any number of accesses of other handlers may happen. -/

namespace SecureCore

set_option autoImplicit false

open Interleaving Relational

/-- What all handlers share: what the services share, and the table audit_events. -/
structure Site where
  world : World
  events : Table AuditEvent

def Site.withWorld (world : World) (site : Site) : Site := { site with world := world }

/-- What the surroundings decide at one access of a handler. -/
structure Moment where
  surroundings : Nat → Surroundings
  stored : Stored
  createdAt : Strftime
  phase : ServicePhase
  /-- The text that the registries make at this moment, behind its first word. -/
  exposition : String

/-- What a handler lets an observer see: the events of the services, and its own records. -/
inductive SiteEvent where
  | served (event : Event)
  | recorded (call : AuditedCall)

namespace SiteEvent

def service? : SiteEvent → Option Event
  | served event => some event
  | recorded _ => none

def call? : SiteEvent → Option AuditedCall
  | served _ => none
  | recorded call => some call

end SiteEvent

/-- A request in the hands of a worker of a server process. -/
structure Arrival where
  process : Nat
  request : HttpMessage
  context : Option RequestAuditContext

/-- A handler that returns or throws. -/
abbrev Handling := Fallible Moment Site SiteEvent Thrown

namespace Handling

variable {α : Type}

def lift (result : Except Thrown α) : Handling α := ExceptT.mk (pure result)

/-- What a service returns or throws. -/
def ask (call : Call α) : Handling (Except Exception α) :=
  ExceptT.mk (call.run.within Site.world Site.withWorld Moment.surroundings SiteEvent.served >>=
    fun result => pure (.ok result))

/-- A call of a service, and what the handler makes of the errors that it catches. -/
def calling {ρ : Type} (call : Call α) (catches : Exception → Option ρ)
    (success : α → Handling HttpResponse) (failure : ρ → Handling HttpResponse) :
    Handling HttpResponse := do
  match ← ask call with
  | .ok result => success result
  | .error e =>
    match catches e with
    | some refusal => failure refusal
    | none => throw (.standard e)

/-- AuditService::record. The dump of the metadata comes first, and may throw. -/
def record (json : JsonLibrary) (context : Option RequestAuditContext) (call : AuditedCall) :
    Handling Unit :=
  match call.record json with
  | none => throw invalidUtf8
  | some record => Fallible.atomic (fun moment site => ⟨.ok (), { site with
      events := AuditService.record site.events record context moment.stored moment.createdAt },
      [.recorded call]⟩)

/-- A look at what the surroundings are at this moment. -/
def observe (look : Moment → α) : Handling α := Fallible.atomic (fun moment site => ⟨.ok (look moment), site, []⟩)

/-- A SELECT on audit_events, on a connection of its own. -/
def selectEvents (query : Table AuditEvent → Except Exception α) : Handling α := do
  match ← ask Database.acquireConnection with
  | .error e => throw (.standard e)
  | .ok () => Fallible.atomic (fun moment site => match (moment.surroundings 0).failure with
    | some _ => ⟨.error (.standard (.runtimeError "Audit event statement failed")), site, []⟩
    | none => ⟨(query site.events).mapError .standard, site, []⟩)

end Handling

end SecureCore
