import TenantStore.Outcome
import TenantStore.Stream.Store

/-!
# Calls of the service

What a request that reaches the service asks for, and the answer to it: the health of the service,
or one of the three requests to its event store. A stream without events and snapshots is not found,
and appending nothing is refused before the store is asked.
-/

namespace TenantStore

/-- The answer to a request. -/
structure Response where
  status : Nat
  body : Option Json
  deriving DecidableEq, Repr

namespace Response

/-- A request that was answered. -/
def ok (body : Json) : Response :=
  ⟨200, some body⟩

/-- A request that failed. -/
def ofError (e : StoreError) : Response :=
  ⟨e.kind.status,
    some (Json.ofMembers [("error", .string e.kind.code), ("message", .string e.message)])⟩

/-- The response to a result. -/
def ofResult {α : Type} (write : α → Json) : Except StoreError α → Response
  | .ok a => ok (write a)
  | .error e => ofError e

end Response

/-- What a request asks for. -/
inductive Call where
  | health
  | load (request : LoadRequest)
  | append (request : AppendRequest)
  | saveSnapshot (request : SnapshotRequest)
  deriving DecidableEq, Repr

namespace Call

/-- The health of the service. -/
def healthReport : Json :=
  Json.ofMembers
    [("status", .string "ok"), ("service", .string "tenantdb-api"), ("version", .string "0.1.0")]

/-- The error of a stream that has nothing in it. -/
def streamNotFound (k : StreamKey) : StoreError :=
  .notFound (k.aggregateType ++ " " ++ k.aggregate ++ " of tenant " ++ k.tenant)

/-- The stream that was loaded, if there is anything in it. -/
def loaded (a : LoadAnswer) : Option LoadAnswer :=
  if a.isEmpty then none else some a

variable {σ : Type}

/-- Loads a stream. -/
def answerLoad (store : EventStore σ) (r : LoadRequest) : StateM σ Response := do
  let answer ← (store.load r).run
  let outcome := (Outcome.ofResult (answer.map loaded)).onNotFound fun () => streamNotFound r.stream
  match outcome.toResult with
  | .ok (some a) => return .ok a.toJson
  | .ok none => return .ofError (streamNotFound r.stream)
  | .error e => return .ofError e

/-- Appends events, of which there has to be one at least. -/
def answerAppend (store : EventStore σ) (now : Instant) (r : AppendRequest) : StateM σ Response :=
  if r.events.isEmpty then return .ofError (.validation "events must not be empty")
  else return .ofResult AppendAnswer.toJson (← (store.append now r).run)

/-- Answers a call. -/
def answer (store : EventStore σ) (now : Instant) : Call → StateM σ Response
  | health => return .ok healthReport
  | load r => answerLoad store r
  | append r => answerAppend store now r
  | saveSnapshot r => return .ofResult SnapshotAnswer.toJson (← (store.saveSnapshot r).run)

end Call
end TenantStore
