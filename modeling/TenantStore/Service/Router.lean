import TenantStore.Json.Reader
import TenantStore.Service.Call
import TenantStore.Service.MediaType
import TenantStore.Service.Target

/-!
# Routing of requests

`Request.call` finds out what a request asks for. It looks at the path, the method, the names in the
path, the content type and the body in this order, and the first fault is the answer: a rejection
has a status and no body. A request for the head of a resource is answered like one for the
resource, without the body.
-/

namespace TenantStore

/-- A request as it comes in. -/
structure Request where
  method : String
  target : String
  contentType : Option String
  body : String
  deriving DecidableEq, Repr

/-- Why a request asks for nothing that the service knows. -/
inductive Rejection where
  | unknownPath
  | wrongMethod
  /-- A name in the path is not UTF-8. -/
  | unreadablePath
  /-- The content is not said to be JSON. -/
  | unsupportedContent
  /-- The body is no JSON text. -/
  | malformedBody
  /-- The body is a JSON text of another shape. -/
  | misshapenBody
  deriving DecidableEq, Repr

/-- The status of a rejected request. -/
def Rejection.status : Rejection → Nat
  | unknownPath => 404
  | wrongMethod => 405
  | unreadablePath => 400
  | unsupportedContent => 415
  | malformedBody => 400
  | misshapenBody => 422

/-- A path of the service, with the names in it as they are written there. -/
inductive Route where
  | health
  | events (tenant aggregateType aggregate : String)
  | snapshots (tenant aggregateType aggregate : String)
  deriving DecidableEq, Repr

namespace Route

/-- The route of a path. -/
def ofSegments : List String → Option Route
  | ["health"] => some health
  | ["api", "v1", "tenants", tenant, "aggregates", aggregateType, aggregate, "events"] =>
    some (events tenant aggregateType aggregate)
  | ["api", "v1", "tenants", tenant, "aggregates", aggregateType, aggregate, "snapshots"] =>
    some (snapshots tenant aggregateType aggregate)
  | _ => none

/-- The stream that names in a path stand for. -/
def key (tenant aggregateType aggregate : String) : Except Rejection StreamKey :=
  match Target.decode? tenant, Target.decode? aggregateType, Target.decode? aggregate with
  | some tenant, some aggregateType, some aggregate => .ok ⟨tenant, aggregate, aggregateType⟩
  | _, _, _ => .error .unreadablePath

end Route

namespace Request

/-- The body of a request to append events. -/
def appendSchema : Schema :=
  .record "AppendBody" [Schema.required "events" (.list SubmittedEvent.schema)]

/-- The body of a request to save a snapshot. -/
def snapshotSchema : Schema :=
  .record "SnapshotBody"
    [Schema.required "aggregateData" .any, Schema.defaulted "aggregateVersion" (.string "") .string,
     Schema.defaulted "metadata" (.object []) .texts, Schema.required "sequenceNumber" .natural]

/-- The content is said to be JSON. -/
def isJson (r : Request) : Bool :=
  (r.contentType.bind MediaType.parse?).any MediaType.isJson

/-- The members of the body. -/
def members (r : Request) (schema : Schema) : Except Rejection (Members Json) :=
  if r.isJson then
    match schema.read r.body with
    | .ok v => .ok (v.members?.getD [])
    | .error .form => .error .malformedBody
    | .error .shape => .error .misshapenBody
  else .error .unsupportedContent

/-- The request is for a resource or its head. -/
def isRead (r : Request) : Bool :=
  r.method = "GET" || r.method = "HEAD"

/-- The request to append what the body holds. -/
def appendCall (r : Request) (stream : StreamKey) : Except Rejection Call := do
  let ms ← r.members appendSchema
  return .append ⟨stream, (Json.itemsAt ms "events").map fun e => .ofMembers (e.members?.getD [])⟩

/-- The request to save what the body holds. -/
def snapshotCall (r : Request) (stream : StreamKey) : Except Rejection Call := do
  let ms ← r.members snapshotSchema
  return .saveSnapshot {
    stream
    data := Json.valueAt ms "aggregateData"
    version := Json.textAt ms "aggregateVersion"
    metadata := Json.textsAt ms "metadata"
    sequence := Json.naturalAt ms "sequenceNumber" }

/-- What a request asks for. -/
def call (r : Request) : Except Rejection Call := do
  match Route.ofSegments (Target.segments r.target) with
  | none => throw .unknownPath
  | some .health => if r.isRead then return .health else throw .wrongMethod
  | some (.events tenant aggregateType aggregate) =>
    if r.isRead then return .load ⟨← Route.key tenant aggregateType aggregate⟩
    -- The names in the path are decoded before the body is looked at.
    else if r.method = "POST" then r.appendCall (← Route.key tenant aggregateType aggregate)
    else throw .wrongMethod
  | some (.snapshots tenant aggregateType aggregate) =>
    if r.method = "POST" then r.snapshotCall (← Route.key tenant aggregateType aggregate)
    else throw .wrongMethod

/-- Answers a request. -/
def answer {σ : Type} (store : EventStore σ) (now : Instant) (r : Request) : StateM σ Response := do
  match r.call with
  | .error rejection => return ⟨rejection.status, none⟩
  | .ok call =>
    let response ← call.answer store now
    return if r.method = "HEAD" then { response with body := none } else response

end Request
end TenantStore
