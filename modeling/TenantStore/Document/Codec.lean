import TenantStore.Document.Matching
import TenantStore.Entity

/-!
# Entities as documents

A collection has a key field, and the identifier of an entity is stored there. `encode` moves the
member `id` to the key field and `decode` moves it back; all other members stay as they are.
-/

namespace TenantStore.Document

/-- The document with the value of one field moved to another, in place of what stood there. -/
def moveField (d : Document) (source target : String) : Document :=
  match Members.get? d source with
  | some v => Members.insert (Members.erase d source) target v
  | none => d

/-- The document that stores a value, which has to be an object. -/
def encode (key : String) (v : Json) : Except StoreError Document :=
  match v with
  | .object ms => .ok (moveField ms idField key)
  | _ => .error (Entity.noObject v)

/-- The value that a document stores. -/
def decode (key : String) (d : Document) : Json :=
  .object (moveField d key idField)

/-- The document that stores an entity. -/
def ofEntity {α : Type} [Entity α] (key : String) (e : α) : Except StoreError Document :=
  encode key (Entity.toJson e)

/-- The entity that a document stores. -/
def toEntity {α : Type} [Entity α] (key : String) (d : Document) : Except StoreError α :=
  (Entity.ofJson (decode key d)).mapError Entity.unreadable

end TenantStore.Document
