import TenantStore.Tenant

/-!
# Keys of event streams

The events of an aggregate form a stream. Its key names the tenant, the type of the aggregate and
the aggregate, none of which may be blank.
-/

namespace TenantStore

/-- The key of a stream. -/
structure StreamKey where
  tenant : String
  aggregate : String
  aggregateType : String
  deriving DecidableEq, Repr

namespace StreamKey

/-- The key names everything it has to; the tenant is looked at first. -/
def validate (k : StreamKey) : Except StoreError Unit :=
  match Tenant.ofName k.tenant with
  | .error e => .error e
  | .ok _ =>
    if Text.isBlank k.aggregate then .error (.validation "aggregateId is empty")
    else if Text.isBlank k.aggregateType then .error (.validation "aggregateType is empty")
    else .ok ()

/-- The key names everything it has to. -/
def Valid (k : StreamKey) : Prop :=
  Text.isBlank k.tenant = false ∧ Text.isBlank k.aggregate = false ∧
    Text.isBlank k.aggregateType = false

theorem validate_eq_ok_iff {k : StreamKey} : k.validate = .ok () ↔ k.Valid := by
  rw [validate, Valid]
  cases h : Tenant.ofName k.tenant with
  | error e => simp [(Tenant.ofName_eq_error_iff.mp h).1]
  | ok t =>
    have hname : Text.isBlank k.tenant = false := Tenant.ofName_eq_ok_iff.mp h ▸ t.named
    cases ha : Text.isBlank k.aggregate <;> cases hty : Text.isBlank k.aggregateType <;>
      simp [hname]

/-- The members of a key. -/
def fields : List (String × Option Json × Schema) :=
  [Schema.required "tenantId" .string, Schema.required "aggregateId" .string,
   Schema.required "aggregateType" .string]

/-- In JSON, a key is a record. -/
def schema : Schema :=
  .record "StreamKey" fields

/-- The members of a key in JSON. -/
def members (k : StreamKey) : List (String × Json) :=
  [("tenantId", .string k.tenant), ("aggregateId", .string k.aggregate),
   ("aggregateType", .string k.aggregateType)]

/-- Writes a key. -/
def toJson (k : StreamKey) : Json :=
  Json.ofMembers k.members

/-- The key with the given members. -/
def ofMembers (ms : Members Json) : StreamKey where
  tenant := Json.textAt ms "tenantId"
  aggregate := Json.textAt ms "aggregateId"
  aggregateType := Json.textAt ms "aggregateType"

/-- Reads a key. -/
def ofJson (v : Json) : Except DecodeError StreamKey := do
  return ofMembers ((← schema.conform v).members?.getD [])

/-- Reads a record that has the members of a key among its own. Its own members are read first. -/
def withMembers (name : String) (own : List (String × Option Json × Schema)) (v : Json) :
    Except DecodeError (StreamKey × Members Json) :=
  match v with
  | .object ms => do
    let read ← Schema.conformMembers own ms
    return (ofMembers (← Schema.conformMembers fields ms), read)
  | _ => .error (.invalidType v (Schema.recordName name))

end StreamKey
end TenantStore
