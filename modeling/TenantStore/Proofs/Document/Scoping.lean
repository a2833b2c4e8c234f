import TenantStore.Pattern.Search
import TenantStore.Proofs.Document.Matching

/-!
# What the condition on the tenant means

The query of a tenant's selection matches the documents of the tenant that meet the selection
(`Scoped.matchesQuery_ofTree`), with two exceptions: a single condition on the tenant's own field is
dropped, and in a group of which any clause suffices the condition on the tenant suffices as well.
In every other case a document that matches is the tenant's (`Scoped.ConfinedTo`), whatever the
names of the fields and the operands of the filter are, since nothing that stands beside the
condition on the tenant can take it back.
-/

namespace TenantStore

namespace Document

/-- The document has the tenant's name in the field of the tenant. -/
def BelongsTo (d : Document) (naming : Naming) (tenant : String) : Prop :=
  Members.get? d naming.tenant = some (.string tenant)

instance (d : Document) (naming : Naming) (tenant : String) :
    Decidable (d.BelongsTo naming tenant) :=
  inferInstanceAs (Decidable (_ = _))

end Document

open Document (matchesQuery matchesQuery_group_all matchesQuery_group_any matchesQuery_terms
  matchesQuery_of_terms_append)

/-- A selection made of a tree has one condition at most, or it is a group. -/
theorem Tree.eq_singleton_of_selection_eq_terms {tree : Tree} {ts : List Term}
    (h : tree.selection = .terms ts) : ∃ t, ts = [t] := by
  unfold Tree.selection at h
  split at h
  · cases h
  · split at h
    · rename_i term _
      exact ⟨term, (Selection.terms.inj h).symm⟩
    · cases h
  · cases h

namespace Scoped

section Engine

variable [SearchEngine] {tenant : Tenant} {naming : Naming}

theorem matchesQuery_tenantTerm (hand : naming.tenant ≠ "$and") (hor : naming.tenant ≠ "$or")
    (d : Document) :
    matchesQuery d (tenantTerm tenant naming).query = true ↔ d.BelongsTo naming tenant.name := by
  rw [Document.matchesQuery_term]
  exact Document.matchesEntry_string_iff d hand hor tenant.name

/-! ## Selections that stay with one tenant -/

/-- Every document that matches belongs to the tenant. -/
def ConfinedTo (s : Scoped) (naming : Naming) (tenant : String) : Prop :=
  ∀ d : Document, matchesQuery d s.query = true → d.BelongsTo naming tenant

/-- Conditions with the one on the tenant behind them stay with the tenant. -/
theorem confinedTo_terms (hand : naming.tenant ≠ "$and") (hor : naming.tenant ≠ "$or")
    (ts : List Term) :
    ConfinedTo ⟨.terms (ts ++ [tenantTerm tenant naming])⟩ naming tenant.name := by
  intro d h
  exact (matchesQuery_tenantTerm hand hor d).mp (matchesQuery_of_terms_append d h)

/-- A group of which all clauses have to hold, one of them the condition on the tenant, stays with
the tenant. -/
theorem confinedTo_group_all (hand : naming.tenant ≠ "$and") (hor : naming.tenant ≠ "$or")
    (cs : List Clause) :
    ConfinedTo ⟨.group .all (cs ++ [.term (tenantTerm tenant naming)])⟩ naming tenant.name := by
  intro d h
  refine (matchesQuery_tenantTerm hand hor d).mp ?_
  exact (matchesQuery_group_all d _).mp h _ (List.mem_append_right cs List.mem_cons_self)

theorem confinedTo_ofTenant (hand : naming.tenant ≠ "$and") (hor : naming.tenant ≠ "$or") :
    (ofTenant tenant naming).ConfinedTo naming tenant.name :=
  confinedTo_terms hand hor []

theorem confinedTo_ofId (hand : naming.tenant ≠ "$and") (hor : naming.tenant ≠ "$or")
    (id : String) : (ofId tenant id naming).ConfinedTo naming tenant.name :=
  confinedTo_terms hand hor [⟨naming.key, .eq (.string id)⟩]

theorem confinedTo_ofIds (hand : naming.tenant ≠ "$and") (hor : naming.tenant ≠ "$or")
    (ids : List String) : (ofIds tenant ids naming).ConfinedTo naming tenant.name :=
  confinedTo_group_all hand hor [.term ⟨naming.key, .isIn (ids.map .string)⟩]

/-- The selection of a tree stays with the tenant unless any clause of it suffices. -/
theorem confinedTo_ofTree (hand : naming.tenant ≠ "$and") (hor : naming.tenant ≠ "$or")
    {tree : Tree} (hgroup : ∀ clauses, tree.selection ≠ .group .any clauses) :
    (ofTree tree tenant naming).ConfinedTo naming tenant.name := by
  unfold ofTree
  cases hshape : tree.selection with
  | everything => exact confinedTo_terms hand hor []
  | terms ts => exact confinedTo_terms hand hor _
  | group combinator clauses =>
      cases combinator with
      | all => exact confinedTo_group_all hand hor clauses
      | any => exact absurd hshape (hgroup clauses)

/-! ## The query of a tree -/

/-- A condition with the one on the tenant behind it. -/
theorem matchesQuery_ofSelection_term (hand : naming.tenant ≠ "$and") (hor : naming.tenant ≠ "$or")
    (d : Document) (t : Term) :
    matchesQuery d (ofSelection tenant naming (.terms [t])).query = true ↔
      d.BelongsTo naming tenant.name ∧
        (t.field = naming.tenant ∨ matchesQuery d t.query = true) := by
  by_cases hfield : t.field = naming.tenant
  · have hdropped :
        ofSelection tenant naming (.terms [t]) = ⟨.terms [tenantTerm tenant naming]⟩ := by
      simp [ofSelection, hfield]
    rw [hdropped, Scoped.query, matchesQuery_terms d (List.pairwise_singleton _ _)]
    simp [hfield, matchesQuery_tenantTerm hand hor]
  · have hkept :
        ofSelection tenant naming (.terms [t]) = ⟨.terms [t, tenantTerm tenant naming]⟩ := by
      simp [ofSelection, hfield]
    have hfields : [t, tenantTerm tenant naming].Pairwise fun s t => s.field ≠ t.field := by
      simpa [tenantTerm] using hfield
    rw [hkept, Scoped.query, matchesQuery_terms d hfields]
    simp [hfield, matchesQuery_tenantTerm hand hor, and_comm]

/-- The query of a filter tree for a tenant. Without a condition it matches the documents of the
tenant; with one condition those that meet it, unless it is a condition on the tenant's field; with
a group of which all clauses have to hold those that all clauses match; and with a group of which
any clause suffices also all documents that some clause matches. Only in the last case can a
document of another tenant match. -/
theorem matchesQuery_ofTree (tree : Tree) (tenant : Tenant) {naming : Naming}
    (hand : naming.tenant ≠ "$and") (hor : naming.tenant ≠ "$or") (d : Document) :
    (match tree.selection with
      | .everything =>
        matchesQuery d (ofTree tree tenant naming).query = true ↔ d.BelongsTo naming tenant.name
      | .terms ts =>
        ∃ t, ts = [t] ∧
          (matchesQuery d (ofTree tree tenant naming).query = true ↔
            d.BelongsTo naming tenant.name ∧
              (t.field = naming.tenant ∨ matchesQuery d t.query = true))
      | .group .all clauses =>
        matchesQuery d (ofTree tree tenant naming).query = true ↔
          d.BelongsTo naming tenant.name ∧ ∀ c ∈ clauses, matchesQuery d c.query = true
      | .group .any clauses =>
        matchesQuery d (ofTree tree tenant naming).query = true ↔
          d.BelongsTo naming tenant.name ∨ ∃ c ∈ clauses, matchesQuery d c.query = true) ∧
      ((∀ clauses, tree.selection ≠ .group .any clauses) →
        matchesQuery d (ofTree tree tenant naming).query = true →
          d.BelongsTo naming tenant.name) := by
  refine ⟨?_, fun hgroup => confinedTo_ofTree hand hor hgroup d⟩
  unfold ofTree
  split
  · rename_i hshape
    rw [hshape, ofSelection, Scoped.query, matchesQuery_terms d (List.pairwise_singleton _ _)]
    simp [matchesQuery_tenantTerm hand hor]
  · rename_i ts hshape
    obtain ⟨t, rfl⟩ := Tree.eq_singleton_of_selection_eq_terms hshape
    rw [hshape]
    exact ⟨t, rfl, matchesQuery_ofSelection_term hand hor d t⟩
  · rename_i clauses hshape
    rw [hshape, ofSelection, Scoped.query, matchesQuery_group_all]
    simp [or_imp, forall_and, Clause.query, matchesQuery_tenantTerm hand hor, and_comm]
  · rename_i clauses hshape
    rw [hshape, ofSelection, Scoped.query, matchesQuery_group_any]
    simp [or_and_right, exists_or, Clause.query, matchesQuery_tenantTerm hand hor, or_comm]

end Engine

/-- A field that is named like a combinator does not open the documents of another tenant. -/
theorem matchesQuery_ofTree_combinator_field :
    let tree : Tree :=
      ⟨.mk 0 .unnamed none
        [.leaf 1 (.field "$or") (some (.eq (.array [.object [("tenantId", .string "zeta")]])))], 2⟩
    let tenant : Tenant := ⟨"acme", by decide⟩
    Naming.document.tenant ≠ "$and" ∧ Naming.document.tenant ≠ "$or" ∧
      (∀ clauses, tree.selection ≠ .group .any clauses) ∧
      matchesQuery [("tenantId", .string "zeta")]
        (ofTree tree tenant Naming.document).query ≠ true := by
  intro tree tenant
  have hand : Naming.document.tenant ≠ "$and" := by decide
  have hor : Naming.document.tenant ≠ "$or" := by decide
  have hgroup : ∀ clauses, tree.selection ≠ .group .any clauses := fun _ h => nomatch h
  refine ⟨hand, hor, hgroup, fun hmatch => ?_⟩
  have hbelongs := (matchesQuery_ofTree tree tenant hand hor _).2 hgroup hmatch
  exact absurd hbelongs (by decide)

end Scoped
end TenantStore
