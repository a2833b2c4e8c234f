import TenantStore.Document.Codec
import TenantStore.Document.Collection
import TenantStore.Pattern.Search

/-!
# Collections as backends

Entities are stored as documents, and selections are sent as queries. Which search engine tests the
patterns in queries is left open; programs get the one of `TenantStore.Pattern.Search`.
-/

namespace TenantStore.Document

variable {α : Type} [Entity α] [SearchEngine]

/-- The entities that documents store. -/
def entities (key : String) (ds : List Document) : Except StoreError (List α) :=
  ds.mapM (toEntity key)

/-- The backend of a collection. -/
def backend (naming : Naming) : Backend Collection α where
  naming := naming
  insert e := do Collection.insertOne (← ofEntity naming.key e)
  update s e := do
    let document ← ofEntity naming.key e
    return decide (0 < (← Collection.updateOne s.query document))
  delete s := Collection.deleteMany s.query
  first s := do
    match ← Collection.findOne s.query with
    | some d => return some (← toEntity naming.key d)
    | none => return none
  find s w := do entities naming.key (← Collection.find s.query w)
  count s := Collection.count s.query

end TenantStore.Document
