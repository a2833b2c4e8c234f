import TenantStore.Access
import TenantStore.Stream.Contract

/-!
# Event stores

An event store answers the three kinds of requests on streams; a request to append comes with the
time at which it arrives. `EventStore.run` answers any request, and `EventStore.runAll` a list of
them one after the other.

Two stores need no state: the forgetful store accepts everything and keeps nothing, and the
unreachable store fails.
-/

namespace TenantStore

/-- A store of event streams with states of the type `σ`. -/
structure EventStore (σ : Type) where
  append : Instant → AppendRequest → Access σ AppendAnswer
  load : LoadRequest → Access σ LoadAnswer
  saveSnapshot : SnapshotRequest → Access σ SnapshotAnswer

/-- A request to an event store. -/
inductive StreamRequest where
  | append (now : Instant) (request : AppendRequest)
  | load (request : LoadRequest)
  | saveSnapshot (request : SnapshotRequest)
  deriving DecidableEq, Repr

/-- The stream that a request is about. -/
def StreamRequest.stream : StreamRequest → StreamKey
  | append _ r => r.stream
  | load r => r.stream
  | saveSnapshot r => r.stream

/-- The answer to a request. -/
inductive StreamAnswer where
  | appended (answer : AppendAnswer)
  | loaded (answer : LoadAnswer)
  | saved (answer : SnapshotAnswer)
  deriving DecidableEq, Repr

/-- Writes an answer. -/
def StreamAnswer.toJson : StreamAnswer → Json
  | appended a => a.toJson
  | loaded a => a.toJson
  | saved a => a.toJson

namespace EventStore

variable {σ : Type}

/-- Answers a request. -/
def run (store : EventStore σ) : StreamRequest → Access σ StreamAnswer
  | .append now r => return .appended (← store.append now r)
  | .load r => return .loaded (← store.load r)
  | .saveSnapshot r => return .saved (← store.saveSnapshot r)

/-- Answers requests one after the other. An error is the answer to its request alone. -/
def runAll (store : EventStore σ) (state : σ) :
    List StreamRequest → List (Except StoreError StreamAnswer) × σ
  | [] => ([], state)
  | r :: rs =>
    let (answer, next) := (store.run r).run.run state
    let (answers, final) := runAll store next rs
    (answer :: answers, final)

/-- A store that accepts every request and keeps nothing. -/
def forgetful : EventStore Unit where
  append _ r := return ⟨List.range' 1 r.events.length⟩
  load r := return ⟨r.stream, none, []⟩
  saveSnapshot _ := return {}

/-- The failure of a store that cannot be reached. -/
def refused : StoreError :=
  .infrastructure "connection refused"

/-- A store that cannot be reached. -/
def unreachable : EventStore Unit where
  append _ _ := throw refused
  load _ := throw refused
  saveSnapshot _ := throw refused

end EventStore
end TenantStore
