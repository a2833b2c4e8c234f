/-!
# The fields of a backend

Entities have the logical field `id`; a backend stores it under a name of its own, and knows under
which name it stores the tenant. Every other field has the same name everywhere.
-/

namespace TenantStore

/-- The logical name of the identifier. -/
def idField : String := "id"

/-- The name of the tenant's field. -/
def tenantField : String := "tenantId"

/-- The names that a backend uses for the identifier and the tenant. -/
structure Naming where
  key : String
  tenant : String
  deriving DecidableEq, Repr

namespace Naming

/-- The names of the document store. -/
def document : Naming := ⟨"_id", tenantField⟩

/-- The names of the graph store. -/
def graph : Naming := ⟨idField, tenantField⟩

/-- The name under which the backend stores a logical field. -/
def native (n : Naming) (field : String) : String :=
  if field = idField then n.key else field

@[simp] theorem native_id (n : Naming) : n.native idField = n.key := by
  simp [native]

theorem native_of_ne (n : Naming) {field : String} (h : field ≠ idField) :
    n.native field = field := by
  simp [native, h]

end Naming
end TenantStore
