import TenantStore.Document.Collection
import TenantStore.Proofs.Document.Codec
import TenantStore.Proofs.Document.Scoping
import TenantStore.Proofs.Repository.Simulation

/-!
# Rosters

A roster is the list of the entities of all tenants, oldest first. `Roster.answer` says what an
operation answers and what it leaves, without documents and queries except for filters and sort
orders: an identifier is given out once for all tenants, an update takes the place of the entity
with its tenant and identifier, and what is deleted or found is picked out of the list.

Every operation leaves identifiers that are distinct among all tenants (`Roster.distinct_answer`). A
roster is also a backend, which selects an entity by the document that stores it; the selections of
a tenant and of identifiers come down to comparing these (`Scoped.selects_ofIds`).
-/

namespace TenantStore

open Document (matchesQuery)

variable {α : Type} [Entity α]

namespace Entity

/-- The document that stores an entity; there is one if the entity is lawful. -/
def document (e : α) : Document :=
  (Document.ofEntity Naming.document.key e).toOption.getD []

/-- The entity is that of a tenant with an identifier. -/
def IsAt (tenant id : String) (e : α) : Prop :=
  Entity.tenantId e = tenant ∧ Entity.id e = id

instance (tenant id : String) (e : α) : Decidable (IsAt tenant id e) :=
  inferInstanceAs (Decidable (_ ∧ _))

variable [LawfulEntity α]

theorem ofEntity_eq_document (e : α) :
    Document.ofEntity Naming.document.key e = .ok (document e) := by
  obtain ⟨d, hd, -⟩ := Document.exists_ofEntity e
  rw [document, hd]
  rfl

theorem get?_key_document (e : α) :
    Members.get? (document e) Naming.document.key = some (.string (Entity.id e)) := by
  obtain ⟨d, hd, -, hkey, -⟩ := Document.exists_ofEntity e
  rw [document, hd]
  exact hkey

theorem get?_tenant_document (e : α) :
    Members.get? (document e) Naming.document.tenant = some (.string (Entity.tenantId e)) :=
  Document.get?_tenant_of_ofEntity (ofEntity_eq_document e)

theorem toEntity_document (e : α) :
    Document.toEntity Naming.document.key (document e) = .ok e :=
  Document.toEntity_of_ofEntity (ofEntity_eq_document e)

end Entity

open Entity (document IsAt)

/-! ## Selections of entities -/

namespace Scoped

variable [SearchEngine]

/-- The selection takes the entity, by the document that stores it. -/
def selects (s : Scoped) (e : α) : Bool :=
  matchesQuery (document e) s.query

variable [LawfulEntity α] (tenant : Tenant)

theorem matchesQuery_tenantTerm_document (e : α) :
    matchesQuery (document e) (tenantTerm tenant Naming.document).query = true ↔
      Entity.tenantId e = tenant.name := by
  rw [matchesQuery_tenantTerm (by decide) (by decide), Document.BelongsTo,
    Entity.get?_tenant_document, Option.some.injEq, Json.string.injEq]

theorem matchesQuery_key_document (id : String) (e : α) :
    matchesQuery (document e) (Term.query ⟨Naming.document.key, .eq (.string id)⟩) = true ↔
      Entity.id e = id := by
  have hand : Naming.document.key ≠ "$and" := by decide
  have hor : Naming.document.key ≠ "$or" := by decide
  rw [Document.matchesQuery_term]
  refine (Document.matchesEntry_string_iff _ hand hor id).trans ?_
  rw [Entity.get?_key_document, Option.some.injEq, Json.string.injEq]

/-- The identifier is equal to one of a list. -/
theorem matchesQuery_isIn_document (ids : List String) (e : α) :
    matchesQuery (document e) (Term.query ⟨Naming.document.key, .isIn (ids.map .string)⟩) = true ↔
      Entity.id e ∈ ids := by
  have hcandidates :
      matchesQuery (document e) (Term.query ⟨Naming.document.key, .isIn (ids.map .string)⟩) =
        (ids.map Json.string).any
          (Json.equals (Document.field (document e) Naming.document.key)) := by
    simp [Document.matchesQuery_term, Document.matchesEntry, Naming.document,
      Document.meetsCondition, Predicate.toJson, Document.isOperator, Document.meets, Json.items?]
  have hkey : Document.field (document e) Naming.document.key = .string (Entity.id e) := by
    rw [Document.field, Entity.get?_key_document]
    rfl
  rw [hcandidates, hkey]
  simp [Document.equals_string_iff]

theorem selects_ofTenant :
    (ofTenant tenant Naming.document).selects =
      fun e : α => decide (Entity.tenantId e = tenant.name) := by
  funext e
  rw [Bool.eq_iff_iff, decide_eq_true_iff, selects, query, ofTenant,
    Document.matchesQuery_terms _ (List.pairwise_singleton _ _), List.forall_mem_singleton,
    matchesQuery_tenantTerm_document]

theorem selects_ofId (id : String) :
    (ofId tenant id Naming.document).selects = fun e : α => decide (IsAt tenant.name id e) := by
  have hfields :
      [⟨Naming.document.key, .eq (.string id)⟩, tenantTerm tenant Naming.document].Pairwise
        fun s t : Term => s.field ≠ t.field := by
    simp [tenantTerm, Naming.document, tenantField]
  funext e
  rw [Bool.eq_iff_iff, decide_eq_true_iff, selects, query, ofId,
    Document.matchesQuery_terms _ hfields, List.forall_mem_cons, List.forall_mem_singleton,
    matchesQuery_key_document, matchesQuery_tenantTerm_document, IsAt, and_comm]

theorem selects_ofIds (ids : List String) :
    (ofIds tenant ids Naming.document).selects =
      fun e : α => decide (Entity.tenantId e = tenant.name ∧ Entity.id e ∈ ids) := by
  funext e
  rw [Bool.eq_iff_iff, decide_eq_true_iff, selects, query, ofIds,
    Document.matchesQuery_group_all, List.forall_mem_cons, List.forall_mem_singleton, Clause.query,
    Clause.query, matchesQuery_isIn_document, matchesQuery_tenantTerm_document, and_comm]

end Scoped

namespace Roster

/-! ## The answers -/

/-- The refusal of an identifier that is given out. -/
def duplicate : StoreError :=
  .backend "duplicate key"

/-- Some entity, of whatever tenant, has the identifier of the given one. -/
def IsTaken (es : List α) (e : α) : Prop :=
  Entity.id e ∈ es.map Entity.id

instance (es : List α) (e : α) : Decidable (IsTaken es e) :=
  inferInstanceAs (Decidable (_ ∈ _))

/-- The roster with entities behind the others, up to the first with an identifier that is given
out. -/
def append : List α → List α → Except StoreError Unit × List α
  | [], es => (.ok (), es)
  | e :: new, es => if IsTaken es e then (.error duplicate, es) else append new (es ++ [e])

/-- The roster with an entity in the place of the one with its tenant and identifier. -/
def replace (es : List α) (e : α) : List α :=
  es.map fun e' => if IsAt (Entity.tenantId e) (Entity.id e) e' then e else e'

/-- There is an entity with the tenant and the identifier of the given one. -/
def Has (es : List α) (e : α) : Prop :=
  ∃ e' ∈ es, IsAt (Entity.tenantId e) (Entity.id e) e'

instance (es : List α) (e : α) : Decidable (Has es e) :=
  inferInstanceAs (Decidable (∃ e' ∈ es, _))

/-- Part of the entities, in the order of a window. -/
def view (w : Window) (es : List α) : List α :=
  w.cut (es.mergeSort fun a b => (SortField.listOrder w.sort (document a) (document b)).isLE)

/-- The answer to a deletion, and the entities that it leaves. -/
def delete (test : α → Bool) (es : List α) : Reply α × List α :=
  (.count (.ofCount (es.filter test).length), es.filter (!test ·))

/-- A roster as a backend. -/
def backend [SearchEngine] : Backend (List α) α where
  naming := Naming.document
  insert e es := if IsTaken es e then (.error duplicate, es) else (.ok (), es ++ [e])
  update s e es := (.ok (es.any s.selects), es.set (es.findIdx s.selects) e)
  delete s es := (.ok (es.filter s.selects).length, es.filter (!s.selects ·))
  first s es := (.ok (es.find? s.selects), es)
  find s w es := (.ok (view w (es.filter s.selects)), es)
  count s es := (.ok (es.filter s.selects).length, es)

/-- The repository over a roster. -/
def repository [SearchEngine] (parser : FilterParser) : Repository (List α) α :=
  ⟨parser, backend⟩

/-- What an operation answers, and the roster that it leaves. -/
def answer [SearchEngine] (parser : FilterParser) : Operation α → List α → Reply α × List α
  | .insert e, es =>
    if IsTaken es e then (.entity (.ofError duplicate), es)
    else (.entity (.matched e), es ++ [e])
  | .insertMany new, es =>
    let outcome := match (append new es).1 with
      | .ok () => .ofList new
      | .error error => .ofError error
    (.entities outcome, (append new es).2)
  | .update e, es =>
    if Has es e then (.entity (.matched e), replace es e) else (.entity (.missed none), es)
  | .updateMany new, es => (.entities (.ofList (new.filter (Has es))), new.foldl replace es)
  | .deleteById tenant id, es => delete (fun e => IsAt tenant id e) es
  | .deleteByIds tenant ids, es =>
    delete (fun e => Entity.tenantId e = tenant ∧ Entity.id e ∈ ids) es
  | .deleteAll tenant, es => delete (fun e => Entity.tenantId e = tenant) es
  | .deleteByFilter tenant filter, es =>
    match (repository parser : Repository (List α) α).byFilter tenant filter with
    | .ok s => delete s.selects es
    | .error error => (.count (.ofError error), es)
  | .findById tenant id, es =>
    (.entity (.ofResult (.ok (es.find? fun e => IsAt tenant id e))), es)
  | .findByIds tenant ids, es =>
    (.entities (.ofList (es.filter fun e => Entity.tenantId e = tenant ∧ Entity.id e ∈ ids)), es)
  | .findAll tenant, es => (.entities (.ofList (es.filter fun e => Entity.tenantId e = tenant)), es)
  | .findList tenant filter, es =>
    match (repository parser : Repository (List α) α).byFilter tenant filter with
    | .ok s => (.entities (.ofList (es.filter s.selects)), es)
    | .error error => (.entities (.ofError error), es)
  | .findPaging q, es =>
    match (repository parser : Repository (List α) α).pageRequest q with
    | .ok (s, w) =>
      let found := es.filter s.selects
      (.page (.ofParts (some (view w found)) (min found.length maxInteger) (some q) none), es)
    | .error error => (.page (.ofError error), es)

/-- The roster after operations one after the other on an empty one. -/
def after [SearchEngine] (parser : FilterParser) (ops : List (Operation α)) : List α :=
  ops.foldl (fun es op => (answer parser op es).2) []

/-! ## Distinct identifiers -/

/-- No two entities, of whatever tenants, have the same identifier. -/
def Distinct (es : List α) : Prop :=
  (es.map Entity.id).Nodup

/-- Replacing an entity changes no identifier and no tenant. -/
theorem map_key_replace (es : List α) (e : α) :
    (replace es e).map (fun e' => (Entity.tenantId e', Entity.id e')) =
      es.map fun e' => (Entity.tenantId e', Entity.id e') := by
  rw [replace, List.map_map]
  refine List.map_congr_left fun e' _ => ?_
  rw [Function.comp_apply]
  -- The entity that is put in a place has the tenant and the identifier that are looked for.
  split
  · rename_i hat
    rw [hat.1, hat.2]
  · rfl

theorem has_iff_mem_map_key (es : List α) (e : α) :
    Has es e ↔
      (Entity.tenantId e, Entity.id e) ∈ es.map fun e' => (Entity.tenantId e', Entity.id e') := by
  simp [Has, IsAt]

/-- Replacing an entity takes none away and adds none. -/
theorem has_replace_iff (es : List α) (e e' : α) : Has (replace es e) e' ↔ Has es e' := by
  rw [has_iff_mem_map_key, has_iff_mem_map_key, map_key_replace]

theorem replace_eq_self {es : List α} {e : α} (h : ¬ Has es e) : replace es e = es := by
  refine (List.map_congr_left fun e' he' => ?_).trans (List.map_id es)
  exact if_neg fun hat => h ⟨e', he', hat⟩

theorem distinct_append_singleton {es : List α} (h : Distinct es) {e : α} (he : ¬ IsTaken es e) :
    Distinct (es ++ [e]) := by
  have hfresh : ∀ id ∈ es.map Entity.id, ∀ id' ∈ [Entity.id e], id ≠ id' := by
    intro id hid id' hid' heq
    rw [heq, List.mem_singleton.mp hid'] at hid
    exact he hid
  rw [Distinct, List.map_append]
  exact List.nodup_append.mpr ⟨h, List.pairwise_singleton _ _, hfresh⟩

theorem distinct_append (new : List α) {es : List α} (h : Distinct es) :
    Distinct (append new es).2 := by
  induction new generalizing es with
  | nil => exact h
  | cons e new ih =>
      rw [append]
      split
      · exact h
      · exact ih (distinct_append_singleton h ‹_›)

theorem distinct_replace {es : List α} (h : Distinct es) (e : α) : Distinct (replace es e) := by
  have hids : (replace es e).map Entity.id = es.map Entity.id := by
    have hkeys := congrArg (List.map Prod.snd) (map_key_replace es e)
    simpa only [List.map_map, Function.comp_def] using hkeys
  rwa [Distinct, hids]

theorem distinct_foldl_replace (new : List α) {es : List α} (h : Distinct es) :
    Distinct (new.foldl replace es) := by
  induction new generalizing es with
  | nil => exact h
  | cons e new ih => exact ih (distinct_replace h e)

theorem distinct_filter {es : List α} (h : Distinct es) (test : α → Bool) :
    Distinct (es.filter test) :=
  h.sublist (List.filter_sublist.map Entity.id)

/-- Every operation leaves distinct identifiers. -/
theorem distinct_answer [SearchEngine] (parser : FilterParser) (op : Operation α) {es : List α}
    (h : Distinct es) : Distinct (answer parser op es).2 := by
  cases op with
  | insert e =>
      rw [answer]
      split
      · exact h
      · exact distinct_append_singleton h ‹_›
  | insertMany new => exact distinct_append new h
  | update e =>
      rw [answer]
      split
      · exact distinct_replace h e
      · exact h
  | updateMany new => exact distinct_foldl_replace new h
  | deleteById tenant id => exact distinct_filter h _
  | deleteByIds tenant ids => exact distinct_filter h _
  | deleteAll tenant => exact distinct_filter h _
  | deleteByFilter tenant filter =>
      rw [answer]
      split
      · exact distinct_filter h _
      · exact h
  | findById tenant id => exact h
  | findByIds tenant ids => exact h
  | findAll tenant => exact h
  | findList tenant filter =>
      rw [answer]
      split <;> exact h
  | findPaging q =>
      rw [answer]
      split <;> exact h

end Roster
end TenantStore
