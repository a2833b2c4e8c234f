import TenantStore.Error
import TenantStore.Json.Schema
import TenantStore.Text.Blank

/-!
# Tenants

A `Tenant` is the name of a tenant together with the proof that it is not blank, so that holding one
shows that the precondition of every operation has been checked.
-/

namespace TenantStore

/-- The name of a tenant, which is not blank. -/
structure Tenant where
  name : String
  named : Text.isBlank name = false
  deriving DecidableEq

namespace Tenant

/-- The refusal of a blank name. -/
def missing : StoreError :=
  .preconditionFailed "tenantId is empty"

/-- The tenant of a name, which must not be blank. -/
def ofName (name : String) : Except StoreError Tenant :=
  if h : Text.isBlank name = true then .error missing
  else .ok ⟨name, Bool.eq_false_iff.mpr h⟩

/-- In JSON, a tenant is its name. -/
def schema : Schema :=
  .text "a string" fun s => if Text.isBlank s then some missing.message else none

/-- Writes a tenant. -/
def toJson (t : Tenant) : Json :=
  .string t.name

/-- Reads a tenant. -/
def ofJson (v : Json) : Except DecodeError Tenant :=
  match v with
  | .string s =>
    match ofName s with
    | .ok t => .ok t
    | .error e => .error (.refused e.message)
  | _ => .error (.invalidType v "a string")

theorem ofName_eq_error_iff {name : String} {e : StoreError} :
    ofName name = .error e ↔ Text.isBlank name = true ∧ e = missing := by
  unfold ofName
  split
  · rename_i h
    simp [h, eq_comm]
  · rename_i h
    simp [h]

theorem ofName_eq_ok_iff {name : String} {t : Tenant} :
    ofName name = .ok t ↔ t.name = name := by
  unfold ofName
  split
  · rename_i h
    simp only [reduceCtorEq, false_iff]
    rintro rfl
    simp [t.named] at h
  · obtain ⟨n, hn⟩ := t
    simp [eq_comm]

end Tenant
end TenantStore
