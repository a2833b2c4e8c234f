import TenantStore.Access
import TenantStore.Entity
import TenantStore.Filter.Scoped
import TenantStore.Paging.Sort

/-!
# Backends of repositories

A backend stores entities and finds them again. It takes no selection but that of one tenant, so
that no repository can reach beyond the tenant by its backend.
-/

namespace TenantStore

/-- A part of a sorted list: `limit` of the items behind `skip`. -/
structure Window where
  skip : Nat
  limit : Option Nat
  sort : List SortField
  deriving DecidableEq, Repr

namespace Window

/-- Everything, without an order to sort by. -/
def all : Window :=
  ⟨0, none, []⟩

/-- The part of a list, once it is sorted. -/
def cut {α : Type} (w : Window) (xs : List α) : List α :=
  match w.limit with
  | some n => (xs.drop w.skip).take n
  | none => xs.drop w.skip

end Window

/-- A backend for entities of the type `α`. -/
structure Backend (σ α : Type) where
  /-- The names of its fields. -/
  naming : Naming
  /-- Stores an entity. -/
  insert : α → Access σ Unit
  /-- Stores an entity in place of a selected one, and says whether there is one. -/
  update : Scoped → α → Access σ Bool
  /-- Deletes what is selected, and counts it. -/
  delete : Scoped → Access σ Nat
  /-- One of the selected entities. -/
  first : Scoped → Access σ (Option α)
  /-- The selected entities, as a window shows them. -/
  find : Scoped → Window → Access σ (List α)
  /-- Counts the selected entities. -/
  count : Scoped → Access σ Nat

end TenantStore
