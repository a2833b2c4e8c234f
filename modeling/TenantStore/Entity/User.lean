import TenantStore.Entity

/-!
# Users

The entities that every tenant has: its users.
-/

namespace TenantStore

/-- A user of a tenant. -/
structure User where
  id : String
  tenantId : String
  name : String
  age : Int64
  deriving DecidableEq, Repr

namespace User

/-- The members of a user. -/
def schema : Schema :=
  .record "User"
    [Schema.required "id" .string, Schema.required "tenantId" .string,
     Schema.required "name" .string, Schema.required "age" .integer]

/-- Writes a user. -/
def toJson (u : User) : Json :=
  Json.ofMembers
    [("id", .string u.id), ("tenantId", .string u.tenantId), ("name", .string u.name),
     ("age", Json.ofInt u.age.toInt)]

/-- Reads a user. -/
def ofJson (v : Json) : Except DecodeError User := do
  let ms := (← schema.conform v).members?.getD []
  return {
    id := Json.textAt ms "id"
    tenantId := Json.textAt ms "tenantId"
    name := Json.textAt ms "name"
    age := Int64.ofInt (Json.integerAt ms "age") }

instance : Entity User where
  id := User.id
  tenantId := User.tenantId
  toJson := toJson
  ofJson := ofJson

end User
end TenantStore
