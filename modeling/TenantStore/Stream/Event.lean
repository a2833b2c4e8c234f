import TenantStore.Error
import TenantStore.Instant

/-!
# Events

A client submits events, and a stream records them under a sequence number, with the time of their
arrival. A snapshot is the state of an aggregate after the event of a sequence number.
-/

namespace TenantStore

/-- An event as a client submits it. -/
structure SubmittedEvent where
  id : String
  command : String
  data : Json
  type : String
  version : String
  metadata : Members String
  pubsub : String
  topic : String
  deriving DecidableEq, Repr

namespace SubmittedEvent

/-- An event of which only the type and the data are known. -/
def ofData (id type : String) (data : Json) : SubmittedEvent :=
  ⟨id, "", data, type, "", [], "", ""⟩

/-- The members of a submitted event. -/
def schema : Schema :=
  .record "EventDto"
    [Schema.required "eventId" .string, Schema.defaulted "commandId" (.string "") .string,
     Schema.required "eventData" .any, Schema.required "eventType" .string,
     Schema.defaulted "eventVersion" (.string "") .string,
     Schema.defaulted "metadata" (.object []) .texts,
     Schema.defaulted "pubsubName" (.string "") .string,
     Schema.defaulted "topic" (.string "") .string]

/-- Writes an event. -/
def toJson (e : SubmittedEvent) : Json :=
  Json.ofMembers
    [("eventId", .string e.id), ("commandId", .string e.command), ("eventData", e.data),
     ("eventType", .string e.type), ("eventVersion", .string e.version),
     ("metadata", Json.ofTexts e.metadata), ("pubsubName", .string e.pubsub),
     ("topic", .string e.topic)]

/-- The event with the given members. -/
def ofMembers (ms : Members Json) : SubmittedEvent where
  id := Json.textAt ms "eventId"
  command := Json.textAt ms "commandId"
  data := Json.valueAt ms "eventData"
  type := Json.textAt ms "eventType"
  version := Json.textAt ms "eventVersion"
  metadata := Json.textsAt ms "metadata"
  pubsub := Json.textAt ms "pubsubName"
  topic := Json.textAt ms "topic"

/-- Reads an event. -/
def ofJson (v : Json) : Except DecodeError SubmittedEvent := do
  return ofMembers ((← schema.conform v).members?.getD [])

end SubmittedEvent

/-- An event as a stream records it. -/
structure RecordedEvent where
  id : String
  data : Json
  type : String
  version : String
  sequence : Nat
  occurredAt : Instant
  deriving DecidableEq, Repr

namespace RecordedEvent

/-- The members of a recorded event. -/
def schema : Schema :=
  .record "EventRecord"
    [Schema.required "eventId" .string, Schema.required "eventData" .any,
     Schema.required "eventType" .string, Schema.required "eventVersion" .string,
     Schema.required "sequenceNumber" .natural, Schema.required "occurredAt" Instant.schema]

/-- Writes an event. -/
def toJson (e : RecordedEvent) : Json :=
  Json.ofMembers
    [("eventId", .string e.id), ("eventData", e.data), ("eventType", .string e.type),
     ("eventVersion", .string e.version), ("sequenceNumber", Json.ofNat e.sequence),
     ("occurredAt", e.occurredAt.toJson)]

/-- The event with the given members. -/
def ofMembers (ms : Members Json) : RecordedEvent where
  id := Json.textAt ms "eventId"
  data := Json.valueAt ms "eventData"
  type := Json.textAt ms "eventType"
  version := Json.textAt ms "eventVersion"
  sequence := Json.naturalAt ms "sequenceNumber"
  occurredAt := Instant.ofMember ms "occurredAt"

/-- Reads an event. -/
def ofJson (v : Json) : Except DecodeError RecordedEvent := do
  return ofMembers ((← schema.conform v).members?.getD [])

/-- The record of a submitted event. -/
def ofSubmitted (e : SubmittedEvent) (sequence : Nat) (now : Instant) : RecordedEvent :=
  ⟨e.id, e.data, e.type, e.version, sequence, now⟩

/-- Reads the data of an event. -/
def decode {α : Type} (read : Json → Except DecodeError α) (e : RecordedEvent) :
    Except StoreError α :=
  (read e.data).mapError fun flaw =>
    .infrastructure
      ("event " ++ e.id ++ " (" ++ e.type ++ ") deserialization failed: " ++ flaw.message)

/-- A member of the data of an event. -/
def field? (e : RecordedEvent) (name : String) : Option Json :=
  e.data.member? name

end RecordedEvent

/-- The state of an aggregate. -/
structure Snapshot where
  data : Json
  revision : String
  /-- The sequence number of the last event that the state takes into account. -/
  sequence : Nat
  metadata : Members String
  deriving DecidableEq, Repr

namespace Snapshot

/-- The members of a snapshot. -/
def schema : Schema :=
  .record "Snapshot"
    [Schema.required "aggregateData" .any, Schema.required "aggregateRevision" .string,
     Schema.required "sequenceNumber" .natural, Schema.defaulted "metadata" (.object []) .texts]

/-- Writes a snapshot. -/
def toJson (s : Snapshot) : Json :=
  Json.ofMembers
    [("aggregateData", s.data), ("aggregateRevision", .string s.revision),
     ("sequenceNumber", Json.ofNat s.sequence), ("metadata", Json.ofTexts s.metadata)]

/-- The snapshot with the given members. -/
def ofMembers (ms : Members Json) : Snapshot where
  data := Json.valueAt ms "aggregateData"
  revision := Json.textAt ms "aggregateRevision"
  sequence := Json.naturalAt ms "sequenceNumber"
  metadata := Json.textsAt ms "metadata"

/-- Reads a snapshot. -/
def ofJson (v : Json) : Except DecodeError Snapshot := do
  return ofMembers ((← schema.conform v).members?.getD [])

end Snapshot
end TenantStore
