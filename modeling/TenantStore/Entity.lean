import TenantStore.Error
import TenantStore.Json.Schema

/-!
# Entities

What repositories store are entities: values with an identifier and a tenant that are written to
JSON and read from it. A repository is the same for all entities.
-/

namespace TenantStore

/-- Values that a repository can store. -/
class Entity (α : Type) where
  /-- The identifier. -/
  id : α → String
  /-- The name of the tenant. -/
  tenantId : α → String
  /-- Writes an entity. -/
  toJson : α → Json
  /-- Reads an entity. -/
  ofJson : Json → Except DecodeError α

namespace Entity

/-- A value of a schema that was not read, as an error of the store. -/
def unreadable (e : DecodeError) : StoreError :=
  .infrastructure ("serialization failed: " ++ e.message)

/-- An entity whose JSON value is no object cannot be stored. -/
def noObject (v : Json) : StoreError :=
  .infrastructure ("entity must serialize to an object, got " ++ v.text)

/-- The members of an entity that is about to be stored. -/
def members {α : Type} [Entity α] (e : α) : Except StoreError (Members Json) :=
  match toJson e with
  | .object ms => .ok ms
  | v => .error (noObject v)

end Entity

end TenantStore
