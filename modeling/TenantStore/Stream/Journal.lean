import TenantStore.Stream.Store

/-!
# Journals

A journal is an event store that keeps its streams in memory. A stream numbers its events from one
on, without gaps; its snapshots do not change the numbering. Loading a stream gives the snapshot
with the greatest sequence number, of several the one saved last, and the events behind it.

`stream_put_self` and `stream_put_of_ne` say that storing a stream changes no other one.
-/

namespace TenantStore

/-- The events and snapshots of a stream, oldest first. -/
structure Stream where
  events : List RecordedEvent
  snapshots : List Snapshot
  deriving DecidableEq, Repr

namespace Stream

/-- A stream without events and snapshots. -/
def empty : Stream :=
  ⟨[], []⟩

/-- The sequence number of the last event, zero if there is none. -/
def lastSequence (s : Stream) : Nat :=
  match s.events.getLast? with
  | some e => e.sequence
  | none => 0

/-- Records events under the sequence numbers from `next` on. -/
def record (now : Instant) (next : Nat) : List SubmittedEvent → List RecordedEvent
  | [] => []
  | e :: es => .ofSubmitted e next now :: record now (next + 1) es

/-- The events that are recorded when some are appended. -/
def arriving (s : Stream) (now : Instant) (es : List SubmittedEvent) : List RecordedEvent :=
  record now (s.lastSequence + 1) es

/-- The stream with events appended. -/
def append (s : Stream) (now : Instant) (es : List SubmittedEvent) : Stream :=
  { s with events := s.events ++ s.arriving now es }

/-- The stream with a snapshot saved. -/
def saveSnapshot (s : Stream) (snapshot : Snapshot) : Stream :=
  { s with snapshots := s.snapshots ++ [snapshot] }

/-- The later of two snapshots, the second if they have the same sequence number. -/
def later (best : Option Snapshot) (s : Snapshot) : Option Snapshot :=
  match best with
  | some b => if b.sequence ≤ s.sequence then some s else some b
  | none => some s

/-- The snapshot with the greatest sequence number. -/
def latestSnapshot (s : Stream) : Option Snapshot :=
  s.snapshots.foldl later none

/-- The events behind a sequence number. -/
def eventsAfter (s : Stream) (sequence : Nat) : List RecordedEvent :=
  s.events.filter fun e => decide (sequence < e.sequence)

/-- What loading the stream gives. -/
def load (s : Stream) (key : StreamKey) : LoadAnswer :=
  let snapshot := s.latestSnapshot
  ⟨key, snapshot, s.eventsAfter ((snapshot.map Snapshot.sequence).getD 0)⟩

end Stream

/-- Streams by their keys. -/
structure Journal where
  streams : List (StreamKey × Stream)
  deriving DecidableEq, Repr

namespace Journal

/-- A journal without streams. -/
def empty : Journal :=
  ⟨[]⟩

/-- The stream of a key, empty if nothing was stored in it. -/
def stream (j : Journal) (key : StreamKey) : Stream :=
  (j.streams.lookup key).getD .empty

/-- The journal with the stream of a key in place of the one that was there. -/
def put (j : Journal) (key : StreamKey) (s : Stream) : Journal :=
  ⟨(key, s) :: j.streams.filter fun entry => entry.1 ≠ key⟩

@[simp] theorem stream_put_self (j : Journal) (key : StreamKey) (s : Stream) :
    (j.put key s).stream key = s := by
  simp [stream, put]

theorem stream_put_of_ne {j : Journal} {key other : StreamKey} (h : other ≠ key) (s : Stream) :
    (j.put key s).stream other = j.stream other := by
  obtain ⟨streams⟩ := j
  have hbeq : (other == key) = false := by simpa using h
  simp only [stream, put, List.lookup_cons, hbeq]
  congr 1
  induction streams with
  | nil => rfl
  | cons entry rest ih =>
    obtain ⟨k, t⟩ := entry
    by_cases hk : k = key
    · subst hk
      simpa [List.lookup_cons, hbeq] using ih
    · by_cases ho : other = k
      · subst ho
        simp [hk]
      · have hne : (other == k) = false := by simpa using ho
        simpa [List.lookup_cons, hk, hne] using ih

/-- Appends events to a stream. -/
def append (now : Instant) (r : AppendRequest) : Access Journal AppendAnswer := do
  r.stream.validate
  let s := (← get).stream r.stream
  modify (·.put r.stream (s.append now r.events))
  return ⟨(s.arriving now r.events).map RecordedEvent.sequence⟩

/-- Loads a stream. -/
def load (r : LoadRequest) : Access Journal LoadAnswer := do
  r.stream.validate
  return ((← get).stream r.stream).load r.stream

/-- Saves a snapshot. -/
def saveSnapshot (r : SnapshotRequest) : Access Journal SnapshotAnswer := do
  r.stream.validate
  modify fun j => j.put r.stream ((j.stream r.stream).saveSnapshot r.snapshot)
  return {}

/-- The journal as an event store. -/
def store : EventStore Journal where
  append := append
  load := load
  saveSnapshot := saveSnapshot

end Journal
end TenantStore
