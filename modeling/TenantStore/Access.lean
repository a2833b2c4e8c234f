import TenantStore.Error

/-!
# Accesses to a store

An access is a function from the state of a store to an answer or an error, and the state
afterwards. A step that fails ends the access; what the steps before it did stays done.
-/

namespace TenantStore

/-- An access to a store with states of the type `σ`. -/
abbrev Access (σ α : Type) := ExceptT StoreError (StateM σ) α

end TenantStore
