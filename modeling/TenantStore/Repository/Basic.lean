import TenantStore.Filter.Draft
import TenantStore.Repository.Backend
import TenantStore.Repository.Operation

/-!
# Repositories

A repository answers operations by a backend. Whatever an operation is about, its tenant is checked
first, then its page and its filter, and the backend is accessed last, so that an operation that is
refused leaves no trace there.

`Repository.run` answers any operation.
-/

namespace TenantStore

/-- A repository: how filter text is read, and what it stands on. -/
structure Repository (σ α : Type) where
  parser : FilterParser
  backend : Backend σ α

namespace Repository

variable {σ α β γ : Type} [Entity α]

/-- The tenant's selection of a filter text. -/
def compile (r : Repository σ α) (tenant : Tenant) (filter : String) :
    Except StoreError Scoped := do
  let tree ← (Filter.compile r.parser r.backend.naming filter).mapError FilterError.toStoreError
  return Scoped.ofTree tree tenant r.backend.naming

/-- The sort order of a text, by the names of the backend. -/
def sortFields (r : Repository σ α) (sort : String) : Except StoreError (List SortField) := do
  let fields ← (SortField.parseList sort).mapError SortError.toStoreError
  return fields.map fun f => { f with field := r.backend.naming.native f.field }

/-- The entity of a tenant with an identifier. -/
def byId (r : Repository σ α) (tenant id : String) : Except StoreError Scoped := do
  return Scoped.ofId (← Tenant.ofName tenant) id r.backend.naming

/-- The entities of a tenant with one of the identifiers. -/
def byIds (r : Repository σ α) (tenant : String) (ids : List String) :
    Except StoreError Scoped := do
  return Scoped.ofIds (← Tenant.ofName tenant) ids r.backend.naming

/-- All entities of a tenant. -/
def byTenant (r : Repository σ α) (tenant : String) : Except StoreError Scoped := do
  return Scoped.ofTenant (← Tenant.ofName tenant) r.backend.naming

/-- The entities of a tenant that a filter text selects. -/
def byFilter (r : Repository σ α) (tenant filter : String) : Except StoreError Scoped := do
  r.compile (← Tenant.ofName tenant) filter

/-- Inserts an entity. -/
def tryInsert (r : Repository σ α) (e : α) : Access σ Unit := do
  let _ ← Tenant.ofName (Entity.tenantId e)
  r.backend.insert e

/-- Updates the entity with the same tenant and identifier, and says whether there is one. -/
def tryUpdate (r : Repository σ α) (e : α) : Access σ Bool := do
  r.backend.update (← r.byId (Entity.tenantId e) (Entity.id e)) e

/-- Inserts entities up to the first that fails. -/
def tryInsertMany (r : Repository σ α) : List α → Access σ Unit
  | [] => return ()
  | e :: es => do
    r.tryInsert e
    tryInsertMany r es

/-- Updates entities up to the first that fails, and gives those that were there. -/
def tryUpdateMany (r : Repository σ α) : List α → Access σ (List α)
  | [] => return []
  | e :: es => do
    let found ← r.tryUpdate e
    let rest ← tryUpdateMany r es
    return if found then e :: rest else rest

/-- The rows of a page and the number of rows on all pages. A number beyond 64 bits with a sign
counts as the greatest of them. -/
def tryFindPaging (r : Repository σ α) (q : PageQuery) : Access σ (List α × Int) := do
  let tenant ← Tenant.ofName q.tenant
  let skip ← q.checked.mapError PageError.toStoreError
  let selection ← r.compile tenant q.filter
  let sort ← r.sortFields q.sort
  let total ← r.backend.count selection
  let rows ← r.backend.find selection ⟨skip.toNat, q.limit.map Int.toNat, sort⟩
  return (rows, min total maxInteger)

/-- The outcome of an access; an error is a failure without a payload. -/
def settle (act : Access σ β) (outcome : β → Outcome γ) : StateM σ (Outcome γ) := do
  match ← act.run with
  | .ok b => return outcome b
  | .error e => return .ofError e

/-- Inserts an entity. -/
def insert (r : Repository σ α) (e : α) : StateM σ (Outcome α) :=
  settle (r.tryInsert e) fun () => .matched e

/-- Inserts entities up to the first that fails. -/
def insertMany (r : Repository σ α) (es : List α) : StateM σ (Outcome (List α)) :=
  settle (r.tryInsertMany es) fun () => .ofList es

/-- Updates an entity. -/
def update (r : Repository σ α) (e : α) : StateM σ (Outcome α) :=
  settle (r.tryUpdate e) fun found => if found then .matched e else .missed none

/-- Updates entities up to the first that fails. -/
def updateMany (r : Repository σ α) (es : List α) : StateM σ (Outcome (List α)) :=
  settle (r.tryUpdateMany es) .ofList

/-- Deletes the entities of a selection. -/
def delete (r : Repository σ α) (selection : Except StoreError Scoped) : StateM σ (Outcome Nat) :=
  settle (do r.backend.delete (← selection)) .ofCount

/-- Finds one entity of a selection. -/
def findOne (r : Repository σ α) (selection : Except StoreError Scoped) : StateM σ (Outcome α) :=
  settle (do r.backend.first (← selection)) fun found => .ofResult (.ok found)

/-- Finds the entities of a selection. -/
def findMany (r : Repository σ α) (selection : Except StoreError Scoped) :
    StateM σ (Outcome (List α)) :=
  settle (do r.backend.find (← selection) .all) .ofList

/-- Finds a page of entities. -/
def findPaging (r : Repository σ α) (q : PageQuery) : StateM σ (PageReport α) := do
  match ← (r.tryFindPaging q).run with
  | .ok (rows, total) => return .ofParts (some rows) total (some q) none
  | .error e => return .ofError e

/-- Answers an operation. -/
def run (r : Repository σ α) : Operation α → StateM σ (Reply α)
  | .insert e => return .entity (← r.insert e)
  | .insertMany es => return .entities (← r.insertMany es)
  | .update e => return .entity (← r.update e)
  | .updateMany es => return .entities (← r.updateMany es)
  | .deleteById tenant id => return .count (← r.delete (r.byId tenant id))
  | .deleteByIds tenant ids => return .count (← r.delete (r.byIds tenant ids))
  | .deleteAll tenant => return .count (← r.delete (r.byTenant tenant))
  | .deleteByFilter tenant filter => return .count (← r.delete (r.byFilter tenant filter))
  | .findById tenant id => return .entity (← r.findOne (r.byId tenant id))
  | .findByIds tenant ids => return .entities (← r.findMany (r.byIds tenant ids))
  | .findAll tenant => return .entities (← r.findMany (r.byTenant tenant))
  | .findList tenant filter => return .entities (← r.findMany (r.byFilter tenant filter))
  | .findPaging q => return .page (← r.findPaging q)

end Repository
end TenantStore
