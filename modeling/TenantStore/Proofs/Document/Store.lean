import TenantStore.Document.Backend
import TenantStore.Proofs.Document.Collection
import TenantStore.Proofs.Repository.Request

/-!
# Stores of documents

The backend of a collection does nothing to it but by six accesses. A `Document.Store` has such
accesses to states of any type, and over a collection the backend of a store is the one that
repositories run on (`Document.backend_eq`).

Any store can be watched (`Store.watched`): it answers as before, and every access is written down
as a call. A watched store therefore shows all that a repository asks a store for, an insert too, of
which a collection keeps no query. Repositories cannot tell whether their store is watched
(`Store.run_watched`).
-/

namespace TenantStore

variable {σ κ α β : Type}

namespace Document

/-- The accesses to a store of documents. -/
structure Store (σ : Type) where
  insertOne : Document → Access σ Unit
  /-- Stores a document in place of the first that a query selects, and counts it. -/
  updateOne : (query new : Document) → Access σ Nat
  deleteMany : Document → Access σ Nat
  findOne : Document → Access σ (Option Document)
  find : Document → Window → Access σ (List Document)
  count : Document → Access σ Nat

/-- An access to a store, with the documents that it sends. -/
inductive Call where
  | insertOne (new : Document)
  | updateOne (query new : Document)
  | deleteMany (query : Document)
  | findOne (query : Document)
  | find (query : Document) (window : Window)
  | count (query : Document)
  deriving DecidableEq, Repr

namespace Call

/-- The query that a call sends. -/
def query? : Call → Option Document
  | insertOne _ => none
  | updateOne query _ | deleteMany query | findOne query | find query _ | count query => some query

/-- The call that a request to a backend with a key field comes to. -/
def ofRequest (key : String) : Backend.Request → Call
  | .insert members => insertOne (moveField members idField key)
  | .update s members => updateOne s.query (moveField members idField key)
  | .delete s => deleteMany s.query
  | .first s => findOne s.query
  | .find s w => find s.query w
  | .count s => count s.query

theorem query?_ofRequest (key : String) (q : Backend.Request) :
    (ofRequest key q).query? = q.selection?.map Scoped.query := by
  cases q <;> rfl

end Call

/-- The store answers every call after it added the entries of the call to its log. -/
structure Store.Logs (store : Store σ) (log : σ → List κ) (entries : Call → List κ) : Prop where
  insertOne : ∀ new, (store.insertOne new).Makes log (.ok (entries (.insertOne new)))
  updateOne : ∀ query new,
    (store.updateOne query new).Makes log (.ok (entries (.updateOne query new)))
  deleteMany : ∀ query, (store.deleteMany query).Makes log (.ok (entries (.deleteMany query)))
  findOne : ∀ query, (store.findOne query).Makes log (.ok (entries (.findOne query)))
  find : ∀ query w, (store.find query w).Makes log (.ok (entries (.find query w)))
  count : ∀ query, (store.count query).Makes log (.ok (entries (.count query)))

end Document

/-- A collection as a store. -/
def Collection.store [SearchEngine] : Document.Store Collection where
  insertOne := insertOne
  updateOne := updateOne
  deleteMany := deleteMany
  findOne := findOne
  find := find
  count := count

namespace Document

variable [Entity α]

namespace Store

/-- The backend of a store. -/
def backend (store : Store σ) (naming : Naming) : Backend σ α where
  naming := naming
  insert e := do store.insertOne (← ofEntity naming.key e)
  update s e := do
    let document ← ofEntity naming.key e
    return decide (0 < (← store.updateOne s.query document))
  delete s := store.deleteMany s.query
  first s := do
    match ← store.findOne s.query with
    | some d => return some (← toEntity naming.key d)
    | none => return none
  find s w := do entities naming.key (← store.find s.query w)
  count s := store.count s.query

end Store

/-- The backend of a collection is that of the collection as a store. -/
theorem backend_eq [SearchEngine] (naming : Naming) :
    (backend naming : Backend Collection α) = Collection.store.backend naming :=
  rfl

/-- The document that stores an entity is made of the members of the entity. -/
theorem map_ofEntity (key : String) (e : α) (f : Document → β) :
    (ofEntity key e).map f = (Entity.members e).map fun ms => f (moveField ms idField key) := by
  unfold ofEntity encode Entity.members
  cases Entity.toJson e <;> rfl

/-- Requests to the backend of a store are in the log as the calls that they come to. -/
theorem Store.Logs.backend {store : Store σ} {log : σ → List κ} {entries : Call → List κ}
    (h : store.Logs log entries) (naming : Naming) :
    (store.backend naming : Backend σ α).Logs log fun q =>
      entries (Call.ofRequest naming.key q) where
  insert e := by
    have hcalls := map_ofEntity naming.key e fun d => entries (.insertOne d)
    exact hcalls ▸ Access.Extends.lift_bind_map _ fun d => h.insertOne d
  update s e := by
    have hcalls := map_ofEntity naming.key e fun d => entries (.updateOne s.query d)
    refine hcalls ▸ Access.Extends.lift_bind_map _ fun d => ?_
    exact (h.updateOne s.query d).bind fun _ => Access.Extends.pure _
  delete s := h.deleteMany s.query
  first s := (h.findOne s.query).bind fun found => by
    cases found with
    | none => exact Access.Extends.pure none
    | some d => exact (Access.Extends.lift _).bind fun e => Access.Extends.pure (some e)
  find s w := (h.find s.query w).bind fun _ => Access.Extends.lift _
  count s := h.count s.query

/-! ## Watched stores -/

/-- The access, with a call written down. -/
def noting (call : Call) (act : Access σ β) : Access (σ × List Call) β := fun (s, calls) =>
  let (answer, next) := act s
  (answer, (next, calls ++ [call]))

namespace Store

/-- The store that writes down the calls that it gets. -/
def watched (store : Store σ) : Store (σ × List Call) where
  insertOne new := noting (.insertOne new) (store.insertOne new)
  updateOne query new := noting (.updateOne query new) (store.updateOne query new)
  deleteMany query := noting (.deleteMany query) (store.deleteMany query)
  findOne query := noting (.findOne query) (store.findOne query)
  find query window := noting (.find query window) (store.find query window)
  count query := noting (.count query) (store.count query)

theorem noting_simulates (call : Call) (act : Access σ β) :
    (noting call act).Simulates (fun c s => c.1 = s) act := by
  rintro ⟨s, calls⟩ _ rfl
  exact ⟨rfl, rfl⟩

/-- A watched store answers as the store does. -/
theorem watched_simulates (store : Store σ) (naming : Naming) :
    (store.watched.backend naming : Backend _ α).Simulates (fun c s => c.1 = s)
      (store.backend naming) where
  naming := rfl
  insert e := Access.Simulates.lift_bind _ fun d => noting_simulates _ _
  update s e := Access.Simulates.lift_bind _ fun d =>
    (noting_simulates _ _).bind fun count => Access.Simulates.pure _
  delete s := noting_simulates _ _
  first s := (noting_simulates _ _).bind fun found => by
    cases found with
    | none => exact Access.Simulates.pure none
    | some d => exact Access.Simulates.lift_bind _ fun e => Access.Simulates.pure (some e)
  find s w := (noting_simulates _ _).bind fun ds => Access.Simulates.lift _
  count s := noting_simulates _ _

/-- A repository gives the same replies over a watched store and leaves the same state. -/
theorem run_watched (parser : FilterParser) (store : Store σ) (naming : Naming) (op : Operation α)
    (s : σ) (calls : List Call) :
    let r : Repository σ α := ⟨parser, store.backend naming⟩
    let watched : Repository (σ × List Call) α := ⟨parser, store.watched.backend naming⟩
    (watched.run op (s, calls)).1 = (r.run op s).1 ∧
      (watched.run op (s, calls)).2.1 = (r.run op s).2 := by
  intro r watched
  have hbackend : watched.backend.Simulates (fun c s => c.1 = s) r.backend :=
    watched_simulates store naming
  exact Repository.run_simulates hbackend rfl op rfl

/-- A watched store writes down every call. -/
theorem logs_watched (store : Store σ) : store.watched.Logs Prod.snd fun call => [call] where
  insertOne _ _ := rfl
  updateOne _ _ _ := rfl
  deleteMany _ _ := rfl
  findOne _ _ := rfl
  find _ _ _ := rfl
  count _ _ := rfl

end Store

end Document

/-! ## Queries that a collection keeps -/

namespace Collection

theorem received_guarded {act : Collection → Except StoreError β × Collection}
    (h : ∀ c, (act c).2.received = c.received) (c : Collection) :
    (guarded act c).2.received = c.received := by
  rw [guarded]
  cases c.failure with
  | some message => rfl
  | none => exact h c

theorem makes_answer {query : Document} {act : Collection → β × Collection}
    (h : ∀ c, (act c).2.received = c.received) :
    (answer query act).Makes received (.ok [query]) := by
  intro c
  exact (received_guarded h (c.receive query)).symm

/-- A collection keeps the queries of all calls. -/
theorem logs_store [SearchEngine] : store.Logs received fun call => call.query?.toList where
  insertOne new c := by
    refine (List.append_nil _).trans (received_guarded (fun c => ?_) c).symm
    split <;> rfl
  updateOne query new := makes_answer fun c => rfl
  deleteMany query := makes_answer fun c => rfl
  findOne query := makes_answer fun c => rfl
  find query w := makes_answer fun c => rfl
  count query := makes_answer fun c => rfl

/-- A collection that does not fail counts. -/
theorem exists_count_eq_ok [SearchEngine] {c : Collection} (h : c.failure = none)
    (query : Document) :
    ∃ n, (count query c).1 = .ok n := by
  rw [count_apply h]
  exact ⟨_, rfl⟩

end Collection

end TenantStore
