import Mathlib.Logic.Equiv.Defs
import TenantStore.Document.Codec

/-!
# Documents of entities

Storing an entity moves its identifier to the key field, and reading the document moves it back.
A field that is moved takes the place of what stood there, so the way there and back loses nothing
exactly if the place was free (`Document.moveField_moveField_iff`); between objects with a free
place it is a bijection (`Document.moveEquiv`). `Document.codec_inverts` says so of values and the
documents that store them.

For entities with the laws of `LawfulEntity` the document has the identifier under the key and the
tenant under the tenant's name, and it reads as the entity that it was made of.
-/

namespace TenantStore

/-- Entities whose JSON value is an object that shows their identifier and their tenant, that leaves
the key of the document store free, and that reads as the entity. -/
class LawfulEntity (α : Type) [Entity α] : Prop where
  /-- The members of the JSON value. -/
  exists_members : ∀ e : α, ∃ ms : Members Json,
    Entity.toJson e = .object ms ∧ Members.Sorted ms ∧
      Members.get? ms idField = some (.string (Entity.id e)) ∧
      Members.get? ms tenantField = some (.string (Entity.tenantId e)) ∧
      Members.get? ms Naming.document.key = none
  /-- Reading the JSON value gives the entity. -/
  ofJson_toJson : ∀ e : α, Entity.ofJson (Entity.toJson e) = .ok e

namespace Document

/-! ## Moving a field -/

theorem moveField_of_get?_eq_none {d : Document} {source : String}
    (h : Members.get? d source = none) (target : String) : moveField d source target = d := by
  rw [moveField, h]

theorem get?_moveField_target {d : Document} {source : String} {v : Json}
    (h : Members.get? d source = some v) (target : String) :
    Members.get? (moveField d source target) target = some v := by
  rw [moveField, h]
  exact Members.get?_insert_self _ _ _

theorem get?_moveField_of_ne (d : Document) {source target name : String} (hsource : name ≠ source)
    (htarget : name ≠ target) :
    Members.get? (moveField d source target) name = Members.get? d name := by
  unfold moveField
  split
  · rw [Members.get?_insert_of_ne htarget, Members.get?_erase_of_ne hsource]
  · rfl

theorem get?_moveField_source {d : Document} {source target : String} (h : source ≠ target) :
    Members.get? (moveField d source target) source = none := by
  unfold moveField
  split
  · rw [Members.get?_insert_of_ne h, Members.get?_erase_self]
  · assumption

theorem sorted_moveField {d : Document} (h : Members.Sorted d) (source target : String) :
    Members.Sorted (moveField d source target) := by
  unfold moveField
  split
  · exact (h.erase source).insert target _
  · exact h

/-- A field that was moved to a name that was free moves back. -/
theorem moveField_moveField {d : Document} (hd : Members.Sorted d) {source target : String}
    (hne : source ≠ target) (hfree : Members.get? d target = none) :
    moveField (moveField d source target) target source = d := by
  refine Members.ext (sorted_moveField (sorted_moveField hd _ _) _ _) hd fun name => ?_
  cases hsource : Members.get? d source with
  | none =>
      rw [moveField_of_get?_eq_none hsource, moveField_of_get?_eq_none hfree]
  | some v =>
      have hmoved := get?_moveField_target hsource target
      by_cases h : name = source
      · subst h
        rw [get?_moveField_target hmoved, hsource]
      · by_cases h' : name = target
        · subst h'
          rw [get?_moveField_source (Ne.symm hne), hfree]
        · rw [get?_moveField_of_ne _ h' h, get?_moveField_of_ne _ h h']

/-- A field that is moved to itself stays. -/
theorem moveField_self {d : Document} (hd : Members.Sorted d) (name : String) :
    moveField d name name = d := by
  refine Members.ext (sorted_moveField hd _ _) hd fun other => ?_
  cases hname : Members.get? d name with
  | none => rw [moveField_of_get?_eq_none hname]
  | some v =>
      by_cases h : other = name
      · subst h
        rw [get?_moveField_target hname, hname]
      · exact get?_moveField_of_ne d h h

/-- A field moves there and back again exactly if its place was free, or is its own. -/
theorem moveField_moveField_iff {d : Document} (hd : Members.Sorted d) {source target : String} :
    moveField (moveField d source target) target source = d ↔
      source = target ∨ Members.get? d target = none := by
  by_cases hne : source = target
  · subst hne
    simp [moveField_self hd]
  · rw [or_iff_right hne]
    refine ⟨fun h => ?_, moveField_moveField hd hne⟩
    -- Nothing is left in the place once the field has moved back.
    rw [← h]
    exact get?_moveField_source (Ne.symm hne)

/-- The objects without a member of some name. -/
def Without (name : String) : Type :=
  { d : Document // Members.Sorted d ∧ Members.get? d name = none }

/-- Moving a field to a place that is free, and moving it back. -/
def moveEquiv {source target : String} (h : source ≠ target) : Without target ≃ Without source where
  toFun d :=
    ⟨moveField d.1 source target, sorted_moveField d.2.1 _ _, get?_moveField_source h⟩
  invFun d :=
    ⟨moveField d.1 target source, sorted_moveField d.2.1 _ _, get?_moveField_source h.symm⟩
  left_inv d := Subtype.ext (moveField_moveField d.2.1 h d.2.2)
  right_inv d := Subtype.ext (moveField_moveField d.2.1 h.symm d.2.2)

/-! ## Values and their documents -/

/-- An object is stored and read back as itself exactly if it has no member of the key's name, or
the key is the identifier's own name; a document is read and stored again as itself exactly if it
has no member of the identifier's name, or again the two names are one. For any other key, storing
and reading are inverse to each other between the objects that meet the two conditions. Members of
other names are kept by both, and what is no object is refused. -/
theorem codec_inverts (key : String) :
    (∀ v : Document, Members.Sorted v →
      ((encode key (.object v)).map (decode key) = .ok (.object v) ↔
        key = idField ∨ Members.get? v key = none)) ∧
    (∀ d : Document, Members.Sorted d →
      (encode key (decode key d) = .ok d ↔ key = idField ∨ Members.get? d idField = none)) ∧
    (key ≠ idField → ∃ e : Without key ≃ Without idField,
      (∀ v : Without key, encode key (.object v.1) = .ok (e v).1) ∧
        ∀ d : Without idField, decode key d.1 = .object (e.symm d).1) ∧
    (∀ name, name ≠ idField → name ≠ key →
      (∀ v d : Document, encode key (.object v) = .ok d →
        Members.get? d name = Members.get? v name) ∧
      ∀ d v : Document, decode key d = .object v →
        Members.get? v name = Members.get? d name) ∧
    ∀ v : Json, (∀ ms, v ≠ .object ms) → encode key v = .error (Entity.noObject v) := by
  refine ⟨fun v hv => ?_, fun d hd => ?_, fun hne => ?_, fun name hid hkey => ⟨?_, ?_⟩, ?_⟩
  · have hencode : (encode key (.object v)).map (decode key) =
        .ok (.object (moveField (moveField v idField key) key idField)) := rfl
    rw [hencode, Except.ok.injEq, Json.object.injEq, moveField_moveField_iff hv, eq_comm]
  · have hdecode : encode key (decode key d) =
        .ok (moveField (moveField d key idField) idField key) := rfl
    rw [hdecode, Except.ok.injEq, moveField_moveField_iff hd]
  · exact ⟨moveEquiv hne.symm, fun _ => rfl, fun _ => rfl⟩
  · rintro v d h
    cases h
    exact get?_moveField_of_ne v hid hkey
  · rintro d v h
    cases h
    exact get?_moveField_of_ne d hkey hid
  · intro v hv
    cases v with
    | object ms => exact absurd rfl (hv ms)
    | _ => rfl

/-- A user is stored under the document key and read back, with the name kept. With a member of the
key's name beside the identifier it is not read back, and a bare string is not stored. -/
theorem codec_inverts_user :
    let user : Document := [("id", .string "u1"), ("name", .string "Ada")]
    let stored : Document := [("_id", .string "u1"), ("name", .string "Ada")]
    let marked : Document := [("_id", .string "x9"), ("id", .string "u1")]
    Members.Sorted user ∧ Members.Sorted stored ∧ Members.Sorted marked ∧ "_id" ≠ idField ∧
      (encode "_id" (.object user)).map (decode "_id") = .ok (.object user) ∧
      encode "_id" (decode "_id" stored) = .ok stored ∧
      (∃ e : Without "_id" ≃ Without idField,
        ∀ v : Without "_id", encode "_id" (.object v.1) = .ok (e v).1) ∧
      Members.get? stored "name" = Members.get? user "name" ∧
      (encode "_id" (.object marked)).map (decode "_id") ≠ .ok (.object marked) ∧
      encode "_id" (.string "u1") = .error (Entity.noObject (.string "u1")) := by
  intro user stored marked
  have huser : Members.Sorted user := by unfold Members.Sorted; decide
  have hstored : Members.Sorted stored := by unfold Members.Sorted; decide
  have hmarked : Members.Sorted marked := by unfold Members.Sorted; decide
  have hkey : "_id" ≠ idField := by decide
  obtain ⟨hvalues, hdocuments, hbijection, hkept, hrefused⟩ := codec_inverts "_id"
  obtain ⟨e, he, -⟩ := hbijection hkey
  refine ⟨huser, hstored, hmarked, hkey, (hvalues user huser).mpr (.inr rfl),
    (hdocuments stored hstored).mpr (.inr rfl), ⟨e, he⟩,
    (hkept "name" (by decide) (by decide)).1 user stored rfl, fun h => ?_,
    hrefused _ fun _ => nofun⟩
  obtain hname | hfree := (hvalues marked hmarked).mp h
  · exact hkey hname
  · cases hfree

/-! ## Lawful entities -/

section Lawful

variable {α : Type} [Entity α] [LawfulEntity α]

/-- A lawful entity has a document, which shows its identifier and its tenant and reads as the
entity. -/
theorem exists_ofEntity (e : α) : ∃ d : Document,
    ofEntity Naming.document.key e = .ok d ∧ Members.Sorted d ∧
      Members.get? d Naming.document.key = some (.string (Entity.id e)) ∧
      Members.get? d Naming.document.tenant = some (.string (Entity.tenantId e)) ∧
      toEntity Naming.document.key d = .ok e := by
  obtain ⟨ms, hms, hsorted, hid, htenant, hfree⟩ := LawfulEntity.exists_members e
  have hkey : idField ≠ Naming.document.key := by decide
  refine ⟨moveField ms idField Naming.document.key, ?_, sorted_moveField hsorted _ _,
    get?_moveField_target hid _, ?_, ?_⟩
  · rw [ofEntity, hms, encode]
  · exact (get?_moveField_of_ne ms (by decide) (by decide)).trans htenant
  · rw [toEntity, decode, moveField_moveField hsorted hkey hfree, ← hms,
      LawfulEntity.ofJson_toJson]
    rfl

/-- A document of a lawful entity is stored under the tenant of the entity. -/
theorem get?_tenant_of_ofEntity {e : α} {d : Document}
    (h : ofEntity Naming.document.key e = .ok d) :
    Members.get? d Naming.document.tenant = some (.string (Entity.tenantId e)) := by
  obtain ⟨d', hd', -, -, htenant, -⟩ := exists_ofEntity e
  rw [h] at hd'
  cases hd'
  exact htenant

/-- A document of a lawful entity reads as the entity. -/
theorem toEntity_of_ofEntity {e : α} {d : Document}
    (h : ofEntity Naming.document.key e = .ok d) : toEntity Naming.document.key d = .ok e := by
  obtain ⟨d', hd', -, -, -, hread⟩ := exists_ofEntity e
  rw [h] at hd'
  cases hd'
  exact hread

end Lawful

end Document
end TenantStore
