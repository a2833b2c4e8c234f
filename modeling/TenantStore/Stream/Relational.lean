import TenantStore.Paging.Query
import TenantStore.Stream.Store

/-!
# Streams in a relational database

The statements of an event store on two tables, of events and of snapshots. Every statement selects
the tenant by its first parameter, the type of the aggregate by the second and the aggregate by the
third.

Sequence numbers are stored as signed numbers of 64 bits. `Relational.closed` is the store whose
pool of connections is closed: it checks requests and then fails, unless no connection is needed.
-/

namespace TenantStore.Relational

/-- The last sequence number of a stream, or zero. -/
def selectLastSequence : String := "
SELECT COALESCE(MAX(sequence_number), 0)
FROM tenant_events
WHERE tenant_id = $1 AND aggregate_type = $2 AND aggregate_id = $3
"

/-- Stores an event. -/
def insertEvent : String := "
INSERT INTO tenant_events (
    tenant_id, aggregate_type, aggregate_id, sequence_number, event_id, command_id,
    event_type, event_version, event_data, metadata, pubsub_name, topic, occurred_at
)
VALUES ($1, $2, $3, $4, $5, $6, $7, $8, $9, $10, $11, $12, $13)
"

/-- The events behind a sequence number, in order. -/
def selectEventsAfter : String := "
SELECT event_id, event_type, event_version, event_data, sequence_number, occurred_at
FROM tenant_events
WHERE tenant_id = $1 AND aggregate_type = $2 AND aggregate_id = $3 AND sequence_number > $4
ORDER BY sequence_number
"

/-- The snapshot with the greatest sequence number. -/
def selectLatestSnapshot : String := "
SELECT aggregate_data, aggregate_revision, sequence_number, metadata
FROM tenant_snapshots
WHERE tenant_id = $1 AND aggregate_type = $2 AND aggregate_id = $3
ORDER BY sequence_number DESC
LIMIT 1
"

/-- Stores a snapshot in place of one with the same sequence number. -/
def upsertSnapshot : String := "
INSERT INTO tenant_snapshots (
    tenant_id, aggregate_type, aggregate_id, sequence_number,
    aggregate_data, aggregate_revision, metadata
)
VALUES ($1, $2, $3, $4, $5, $6, $7)
ON CONFLICT (tenant_id, aggregate_type, aggregate_id, sequence_number)
DO UPDATE SET aggregate_data = EXCLUDED.aggregate_data,
              aggregate_revision = EXCLUDED.aggregate_revision,
              metadata = EXCLUDED.metadata,
              created_at = NOW()
"

/-- A sequence number as it is stored. -/
def storedSequence (n : Nat) : Except StoreError Int :=
  if (n : Int) ≤ maxInteger then .ok n
  else .error (.validation ("sequence number " ++ toString n ++ " is out of range"))

/-- The failure to get a connection. -/
def poolClosed : StoreError :=
  .backend "attempted to acquire a connection on a closed pool"

/-- The store whose pool of connections is closed. -/
def closed : EventStore Unit where
  append _ r := do
    r.stream.validate
    if r.events.isEmpty then return ⟨[]⟩
    throw poolClosed
  load r := do
    r.stream.validate
    throw poolClosed
  saveSnapshot r := do
    r.stream.validate
    let _ ← storedSequence r.sequence
    throw poolClosed

end TenantStore.Relational
