import TenantStore.Entity
import TenantStore.Paging.Report

/-!
# Operations on repositories

A repository answers operations on the entities of tenants, whatever backend it stands on.
`Operation` is a request to it and `Reply` its answer; every entity and every tenant that an
operation is about is part of the request (`Operation.tenants`).
-/

namespace TenantStore

/-- A request to a repository. -/
inductive Operation (α : Type) where
  | insert (entity : α)
  /-- Inserts entities one after the other, up to the first that fails. -/
  | insertMany (entities : List α)
  | update (entity : α)
  /-- Updates entities one after the other, up to the first that fails. -/
  | updateMany (entities : List α)
  | deleteById (tenant id : String)
  | deleteByIds (tenant : String) (ids : List String)
  | deleteAll (tenant : String)
  | deleteByFilter (tenant filter : String)
  | findById (tenant id : String)
  | findByIds (tenant : String) (ids : List String)
  | findAll (tenant : String)
  | findList (tenant filter : String)
  | findPaging (query : PageQuery)

namespace Operation

/-- The names of the tenants that an operation is about. -/
def tenants {α : Type} [Entity α] : Operation α → List String
  | insert e | update e => [Entity.tenantId e]
  | insertMany es | updateMany es => es.map Entity.tenantId
  | deleteById t _ | deleteByIds t _ | deleteAll t | deleteByFilter t _ => [t]
  | findById t _ | findByIds t _ | findAll t | findList t _ => [t]
  | findPaging q => [q.tenant]

end Operation

/-- The answer to a request. -/
inductive Reply (α : Type) where
  /-- One entity. -/
  | entity (outcome : Outcome α)
  | entities (outcome : Outcome (List α))
  /-- How many entities were deleted. -/
  | count (outcome : Outcome Nat)
  | page (report : PageReport α)
  deriving DecidableEq, Repr

namespace Reply

/-- The entities that an answer hands out. -/
def found {α : Type} : Reply α → List α
  | entity o => o.payload?.toList
  | entities o => o.payload?.getD []
  | count _ => []
  | page r => r.rows.getD []

/-- The error of an answer. -/
def error? {α : Type} : Reply α → Option StoreError
  | entity o => o.error?
  | entities o => o.error?
  | count o => o.error?
  | page r => r.error

end Reply
end TenantStore
