import TenantStore.Stream.Event
import TenantStore.Stream.Key

/-!
# Requests to event stores

A client appends events to a stream, loads a stream, or saves a snapshot of its aggregate. In JSON,
the members of the stream's key stand among those of the request or answer.
-/

namespace TenantStore

/-- A request to append events to a stream. -/
structure AppendRequest where
  stream : StreamKey
  events : List SubmittedEvent
  deriving DecidableEq, Repr

namespace AppendRequest

/-- The members of a request beside the key. -/
def fields : List (String × Option Json × Schema) :=
  [Schema.required "events" (.list SubmittedEvent.schema)]

/-- Writes a request. -/
def toJson (r : AppendRequest) : Json :=
  Json.ofMembers (r.stream.members ++ [("events", .array (r.events.map SubmittedEvent.toJson))])

/-- Reads a request. -/
def ofJson (v : Json) : Except DecodeError AppendRequest := do
  let (stream, ms) ← StreamKey.withMembers "AppendEventsRequest" fields v
  return ⟨stream, (Json.itemsAt ms "events").map fun e => .ofMembers (e.members?.getD [])⟩

end AppendRequest

/-- The sequence numbers that appended events got. -/
structure AppendAnswer where
  sequences : List Nat
  deriving DecidableEq, Repr

namespace AppendAnswer

/-- The members of an answer. -/
def schema : Schema :=
  .record "AppendEventsResponse" [Schema.required "sequenceNumbers" (.list .natural)]

/-- Writes an answer. -/
def toJson (a : AppendAnswer) : Json :=
  Json.ofMembers [("sequenceNumbers", .array (a.sequences.map Json.ofNat))]

/-- Reads an answer. -/
def ofJson (v : Json) : Except DecodeError AppendAnswer := do
  let ms := (← schema.conform v).members?.getD []
  return ⟨(Json.itemsAt ms "sequenceNumbers").map fun n => n.natural?.getD 0⟩

end AppendAnswer

/-- A request to load a stream. -/
structure LoadRequest where
  stream : StreamKey
  deriving DecidableEq, Repr

namespace LoadRequest

/-- Writes a request. -/
def toJson (r : LoadRequest) : Json :=
  r.stream.toJson

/-- Reads a request. -/
def ofJson (v : Json) : Except DecodeError LoadRequest := do
  return ⟨(← StreamKey.withMembers "LoadEventsRequest" [] v).1⟩

end LoadRequest

/-- A stream as it is loaded: the latest snapshot, and the events after it. -/
structure LoadAnswer where
  stream : StreamKey
  snapshot : Option Snapshot
  events : List RecordedEvent
  deriving DecidableEq, Repr

namespace LoadAnswer

/-- There is neither a snapshot nor an event. -/
def isEmpty (a : LoadAnswer) : Bool :=
  a.snapshot.isNone && a.events.isEmpty

/-- The sequence number of the last event, or else of the snapshot. -/
def lastSequence (a : LoadAnswer) : Nat :=
  match a.events.getLast?, a.snapshot with
  | some e, _ => e.sequence
  | none, some s => s.sequence
  | none, none => 0

/-- The members of an answer beside the key. -/
def fields : List (String × Option Json × Schema) :=
  [Schema.defaulted "snapshot" .null (.optional Snapshot.schema),
   Schema.required "events" (.list RecordedEvent.schema)]

/-- Writes an answer. -/
def toJson (a : LoadAnswer) : Json :=
  Json.ofMembers
    (a.stream.members ++
      [("snapshot", Json.ofOption Snapshot.toJson a.snapshot),
       ("events", .array (a.events.map RecordedEvent.toJson))])

/-- Reads an answer. -/
def ofJson (v : Json) : Except DecodeError LoadAnswer := do
  let (stream, ms) ← StreamKey.withMembers "LoadEventsResponse" fields v
  return {
    stream
    snapshot := (Json.valueAt ms "snapshot").members?.map Snapshot.ofMembers
    events := (Json.itemsAt ms "events").map fun e => .ofMembers (e.members?.getD []) }

end LoadAnswer

/-- A request to save a snapshot. -/
structure SnapshotRequest where
  stream : StreamKey
  data : Json
  version : String
  metadata : Members String
  sequence : Nat
  deriving DecidableEq, Repr

namespace SnapshotRequest

/-- The members of a request beside the key. -/
def fields : List (String × Option Json × Schema) :=
  [Schema.required "aggregateData" .any, Schema.required "aggregateVersion" .string,
   Schema.defaulted "metadata" (.object []) .texts, Schema.required "sequenceNumber" .natural]

/-- Writes a request. -/
def toJson (r : SnapshotRequest) : Json :=
  Json.ofMembers
    (r.stream.members ++
      [("aggregateData", r.data), ("aggregateVersion", .string r.version),
       ("metadata", Json.ofTexts r.metadata), ("sequenceNumber", Json.ofNat r.sequence)])

/-- Reads a request. -/
def ofJson (v : Json) : Except DecodeError SnapshotRequest := do
  let (stream, ms) ← StreamKey.withMembers "SaveSnapshotRequest" fields v
  return {
    stream
    data := Json.valueAt ms "aggregateData"
    version := Json.textAt ms "aggregateVersion"
    metadata := Json.textsAt ms "metadata"
    sequence := Json.naturalAt ms "sequenceNumber" }

/-- The snapshot that a request is about. -/
def snapshot (r : SnapshotRequest) : Snapshot :=
  ⟨r.data, r.version, r.sequence, r.metadata⟩

end SnapshotRequest

/-- The answer to a request to save a snapshot, which says no more than that it was saved. -/
structure SnapshotAnswer where
  deriving DecidableEq, Repr

namespace SnapshotAnswer

/-- An answer has no members. -/
def schema : Schema :=
  .record "SaveSnapshotResponse" []

/-- Writes an answer. -/
def toJson (_ : SnapshotAnswer) : Json :=
  .object []

/-- Reads an answer. -/
def ofJson (v : Json) : Except DecodeError SnapshotAnswer := do
  let _ ← schema.conform v
  return {}

end SnapshotAnswer
end TenantStore
