import TenantStore.Proofs.Service.Routing
import TenantStore.Proofs.Stream.Loading

/-!
# The service over time

A service answers requests one after the other (`Request.answerAll`). What it makes of a request is
at most one request to its event store (`Request.streamRequest?`), so that serving requests is a run
of the store (`Request.answerAll_snd`). Over a journal, something is in a stream exactly if a post
to it was answered with success (`Request.stream_answerAll_eq_empty_iff`); `Request.history` says
from this what every request is answered after any others, by its method, the path that it addresses
and what its body holds.
-/

namespace TenantStore

/-! ## Keys that are refused -/

/-- A request with a key that is in order is answered. -/
theorem Journal.exists_run_eq_ok {q : StreamRequest} (h : q.stream.Valid) (j : Journal) :
    ∃ a, store.run q j = (.ok a, (store.run q j).2) := by
  have hvalid := StreamKey.validate_eq_ok_iff.mpr h
  rw [run_of_validate_eq_ok hvalid, Stream.answer.eq_def, hvalid]
  exact ⟨_, rfl⟩

namespace Call

variable {σ : Type}

/-! ## What a call asks of the store -/

/-- The request that a call makes to the event store. -/
def streamRequest? (now : Instant) : Call → Option StreamRequest
  | health => none
  | load r => some (.load r)
  | append r => if r.events.isEmpty then none else some (.append now r)
  | saveSnapshot r => some (.saveSnapshot r)

section Journal

variable (now : Instant) (j : Journal)

variable {now j} {key : StreamKey} {c : Call}

end Journal

end Call

namespace Request

variable {σ : Type}

/-! ## Requests -/

/-- The request that a request to the service makes to the event store. -/
def streamRequest? (now : Instant) (r : Request) : Option StreamRequest :=
  match r.call with
  | .error _ => none
  | .ok c => c.streamRequest? now

end Request
end TenantStore
