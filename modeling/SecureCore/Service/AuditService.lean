import SecureCore.Model.Records
import SecureCore.Model.Text

/-! # AuditRepository and AuditService -/

namespace SecureCore

set_option autoImplicit false

open Relational

structure AuditEvent where
  id : Int
  actorUserId : Option Int
  eventType : String
  outcome : String
  targetType : String
  targetId : Option Int
  requestId : String
  clientIp : String
  userAgent : String
  metadataJson : String
  createdAt : String
  deriving DecidableEq, Repr

instance : Keyed AuditEvent := ⟨AuditEvent.id, fun n event => { event with id := n }, fun _ _ => rfl⟩

structure CreateAuditEvent where
  actorUserId : Option Int
  eventType : String
  outcome : String
  targetType : String
  targetId : Option Int
  requestId : String
  clientIp : String
  userAgent : String
  metadataJson : String
  deriving DecidableEq, Repr

structure AuditEventFilter where
  actorUserId : Option Int
  eventType : String
  outcome : String
  limit : Int
  offset : Int

/-- What becomes of an INSERT: it fails (the CHECKs of the table are a way to), it succeeds,
or it succeeds and the row cannot be read back. -/
inductive Stored where
  | refused (e : Exception)
  | created
  | unread (e : Exception)

/-- A text of strftime. -/
abbrev Strftime := { text : String // ∀ c ∈ text.toList, c.toNat < 128 }

/-! ## AuditRepository -/

namespace AuditRepository

def validateInput (input : CreateAuditEvent) : Except Exception Unit :=
  if input.eventType.isEmpty || 96 < input.eventType.length then
    .error (.invalidArgument "Audit event type must contain 1 to 96 bytes")
  else if input.outcome != "success" && input.outcome != "failure" then
    .error (.invalidArgument "Audit outcome must be success or failure")
  else if 64 < input.targetType.length then
    .error (.invalidArgument "Audit target type is too long")
  else if 128 < input.requestId.length then
    .error (.invalidArgument "Audit request ID is too long")
  else if 128 < input.clientIp.length then
    .error (.invalidArgument "Audit client IP is too long")
  else if 512 < input.userAgent.length then
    .error (.invalidArgument "Audit user agent is too long")
  else if input.metadataJson.isEmpty || 8192 < input.metadataJson.length then
    .error (.invalidArgument "Audit metadata must contain 1 to 8192 bytes")
  else .ok ()

/-- The row that an INSERT makes, but for its id. -/
def row (input : CreateAuditEvent) (createdAt : Strftime) : AuditEvent :=
  ⟨0, input.actorUserId, input.eventType, input.outcome, input.targetType, input.targetId,
    input.requestId, input.clientIp, input.userAgent, input.metadataJson, createdAt⟩

def create (events : Table AuditEvent) (input : CreateAuditEvent) (stored : Stored)
    (createdAt : Strftime) : Except Exception AuditEvent × Table AuditEvent :=
  match validateInput input, stored with
  | .error e, _ => (.error e, events)
  | .ok (), .refused e => (.error e, events)
  | .ok (), .created =>
    (.ok (Keyed.withKey events.nextKey (row input createdAt)), events.insert (row input createdAt))
  | .ok (), .unread e => (.error e, events.insert (row input createdAt))

def validateFilter (filter : AuditEventFilter) : Except Exception Unit :=
  if filter.limit ≤ 0 || 100 < filter.limit || filter.offset < 0 then
    .error (.invalidArgument "Invalid audit event pagination")
  else if 96 < filter.eventType.length then
    .error (.invalidArgument "Audit event type filter is too long")
  else if !filter.outcome.isEmpty && filter.outcome != "success" && filter.outcome != "failure" then
    .error (.invalidArgument "Audit outcome filter must be success or failure")
  else .ok ()

def selects (filter : AuditEventFilter) (event : AuditEvent) : Bool :=
  filter.actorUserId.all (fun actor => event.actorUserId == some actor) &&
    (filter.eventType.isEmpty || event.eventType == filter.eventType) &&
      (filter.outcome.isEmpty || event.outcome == filter.outcome)

/-- The newest events come first. -/
def list (events : Table AuditEvent) (filter : AuditEventFilter) : Except Exception (List AuditEvent) := do
  validateFilter filter
  .ok (((events.rows.filter (selects filter)).reverse.drop filter.offset.toNat).take filter.limit.toNat)

def count (events : Table AuditEvent) (filter : AuditEventFilter) : Except Exception Nat := do
  validateFilter filter
  .ok (events.rows.countP (selects filter))

/-- `cutoff` is what strftime makes of the modifier. -/
def deleteOlderThanDays (events : Table AuditEvent) (retentionDays : Int) (cutoff : Strftime) :
    Except Exception Nat × Table AuditEvent :=
  if retentionDays ≤ 0 || 3650 < retentionDays then
    (.error (.invalidArgument "Audit retention days must be between 1 and 3650"), events)
  else
    (.ok (events.count (fun event => event.createdAt < cutoff)),
      events.delete (fun event => event.createdAt < cutoff))

end AuditRepository

/-! ## AuditService -/

structure RequestAuditContext where
  requestId : String
  clientIp : String
  userAgent : String
  deriving DecidableEq, Repr

structure AuditRecord where
  actorUserId : Option Int
  eventType : String
  outcome : String
  targetType : String
  targetId : Option Int
  metadataJson : String
  requestId : String := ""
  clientIp : String := ""
  userAgent : String := ""
  deriving DecidableEq, Repr

/-- The bytes that sanitize_text keeps. -/
def isPrintable (c : Char) : Bool := !(c.toNat < 0x20 || c.toNat == 0x7f)

def sanitizeText (value : String) (maximumSize : Nat) : String :=
  String.ofList ((value.toList.filter isPrintable).take maximumSize)

namespace AuditService

/-- Empty fields are taken from the context of the request. -/
def complete (record : AuditRecord) (context : RequestAuditContext) : AuditRecord :=
  { record with
    requestId := if record.requestId.isEmpty then context.requestId else record.requestId
    clientIp := if record.clientIp.isEmpty then context.clientIp else record.clientIp
    userAgent := if record.userAgent.isEmpty then context.userAgent else record.userAgent }

def input (record : AuditRecord) (context : Option RequestAuditContext) : CreateAuditEvent :=
  let record := (context.map (complete record)).getD record
  ⟨record.actorUserId, record.eventType, record.outcome, record.targetType, record.targetId,
    sanitizeText record.requestId 128, sanitizeText record.clientIp 128,
    sanitizeText record.userAgent 512, record.metadataJson⟩

/-- What create throws is logged and counted only. -/
def record (events : Table AuditEvent) (record : AuditRecord) (context : Option RequestAuditContext)
    (stored : Stored) (createdAt : Strftime) : Table AuditEvent :=
  (AuditRepository.create events (input record context) stored createdAt).2

structure AuditListResult where
  events : List AuditEvent
  total : Nat
  limit : Int
  offset : Int

def listEvents (events : Table AuditEvent) (filter : AuditEventFilter) :
    Except Exception AuditListResult := do
  let listed ← AuditRepository.list events filter
  let total ← AuditRepository.count events filter
  .ok ⟨listed, total, filter.limit, filter.offset⟩

end AuditService

end SecureCore
