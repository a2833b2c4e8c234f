import TenantStore.Filter.Naming
import TenantStore.Filter.Tree
import TenantStore.Tenant

/-!
# Selections of one tenant

Backends take no selection but a `Scoped` one, which carries a condition on the tenant. To a few
conditions that condition is added in place of any other on the tenant's field; to a group it is
added as the last clause, also to a group of which any clause suffices.
-/

namespace TenantStore

/-- A selection with a condition on the tenant. -/
structure Scoped where
  selection : Selection
  deriving DecidableEq, Repr

namespace Scoped

/-- The condition that the tenant is the given one. -/
def tenantTerm (tenant : Tenant) (naming : Naming) : Term :=
  ⟨naming.tenant, .eq (.string tenant.name)⟩

/-- Adds the condition on the tenant. -/
def ofSelection (tenant : Tenant) (naming : Naming) : Selection → Scoped
  | .everything => ⟨.terms [tenantTerm tenant naming]⟩
  | .terms ts => ⟨.terms (ts.filter (·.field ≠ naming.tenant) ++ [tenantTerm tenant naming])⟩
  | .group combinator clauses =>
    ⟨.group combinator (clauses ++ [.term (tenantTerm tenant naming)])⟩

/-- The selection of a filter tree, of one tenant. -/
def ofTree (tree : Tree) (tenant : Tenant) (naming : Naming) : Scoped :=
  ofSelection tenant naming tree.selection

/-- All entities of a tenant. -/
def ofTenant (tenant : Tenant) (naming : Naming) : Scoped :=
  ⟨.terms [tenantTerm tenant naming]⟩

/-- The entity of a tenant with an identifier. -/
def ofId (tenant : Tenant) (id : String) (naming : Naming) : Scoped :=
  ⟨.terms [⟨naming.key, .eq (.string id)⟩, tenantTerm tenant naming]⟩

/-- The entities of a tenant with one of the identifiers. -/
def ofIds (tenant : Tenant) (ids : List String) (naming : Naming) : Scoped :=
  ⟨.group .all
    [.term ⟨naming.key, .isIn (ids.map .string)⟩, .term (tenantTerm tenant naming)]⟩

end Scoped
end TenantStore
