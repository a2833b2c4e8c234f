import TenantStore.Document.Backend
import TenantStore.Entity.User
import TenantStore.Proofs.Document.Codec
import TenantStore.Proofs.Document.Collection
import TenantStore.Proofs.Document.Scoping
import TenantStore.Proofs.Entity.User
import TenantStore.Proofs.Repository.Run

/-!
# Isolation of tenants

A repository over a collection never reaches beyond the tenants that an operation names. The
selections it sends are confined to such a tenant (`exists_confinedTo_of_sends`), and what it stores
carries such a tenant, so the documents of all other tenants stay as they are, in the same order,
and no entity of theirs is handed out (`isolation_run`). The only selection that is not confined is
a filter of which any clause suffices, since the condition on the tenant is then one of the clauses.
-/

namespace TenantStore

/-! ## Selections that operations send -/

/-- No filter of the operation selects the documents that any of some clauses matches. -/
def Operation.Conjunctive {α : Type} (parser : FilterParser) (naming : Naming)
    (op : Operation α) : Prop :=
  ∀ text ∈ op.filter?, ∀ tree, Filter.compile parser naming text = .ok tree →
    ∀ clauses, tree.selection ≠ .group .any clauses

namespace Repository

section Confined

variable [SearchEngine] {σ α : Type} {r : Repository σ α} {s : Scoped}
  (hand : r.backend.naming.tenant ≠ "$and") (hor : r.backend.naming.tenant ≠ "$or")

include hand hor

theorem confinedTo_of_byId {tenant id : String} (hs : r.byId tenant id = .ok s) :
    s.ConfinedTo r.backend.naming tenant := by
  unfold byId at hs
  obtain ⟨t, ht, hs⟩ := exists_of_bind_eq_ok hs
  cases hs
  rw [← Tenant.ofName_eq_ok_iff.mp ht]
  exact Scoped.confinedTo_ofId hand hor id

theorem confinedTo_of_byIds {tenant : String} {ids : List String}
    (hs : r.byIds tenant ids = .ok s) : s.ConfinedTo r.backend.naming tenant := by
  unfold byIds at hs
  obtain ⟨t, ht, hs⟩ := exists_of_bind_eq_ok hs
  cases hs
  rw [← Tenant.ofName_eq_ok_iff.mp ht]
  exact Scoped.confinedTo_ofIds hand hor ids

theorem confinedTo_of_byTenant {tenant : String} (hs : r.byTenant tenant = .ok s) :
    s.ConfinedTo r.backend.naming tenant := by
  unfold byTenant at hs
  obtain ⟨t, ht, hs⟩ := exists_of_bind_eq_ok hs
  cases hs
  rw [← Tenant.ofName_eq_ok_iff.mp ht]
  exact Scoped.confinedTo_ofTenant hand hor

theorem confinedTo_of_byFilter {tenant filter : String} (hs : r.byFilter tenant filter = .ok s)
    (hgroup : ∀ tree, Filter.compile r.parser r.backend.naming filter = .ok tree →
      ∀ clauses, tree.selection ≠ .group .any clauses) :
    s.ConfinedTo r.backend.naming tenant := by
  unfold byFilter compile at hs
  obtain ⟨t, ht, hs⟩ := exists_of_bind_eq_ok hs
  obtain ⟨tree, htree, hs⟩ := exists_of_bind_eq_ok hs
  cases hs
  rw [← Tenant.ofName_eq_ok_iff.mp ht]
  cases hcompiled : Filter.compile r.parser r.backend.naming filter with
  | error e => rw [hcompiled] at htree; cases htree
  | ok tree' =>
      rw [hcompiled] at htree
      cases htree
      exact Scoped.confinedTo_ofTree hand hor (hgroup tree hcompiled)

/-- Every selection that an operation sends is confined to a tenant that the operation names, unless
its filter needs only one of its clauses. -/
theorem exists_confinedTo_of_sends [Entity α] {op : Operation α}
    (hop : op.Conjunctive r.parser r.backend.naming) (hs : r.Sends s op) :
    ∃ tenant ∈ op.tenants, s.ConfinedTo r.backend.naming tenant := by
  cases op with
  | insert e => exact hs.elim
  | insertMany es => exact hs.elim
  | update e => exact ⟨_, List.mem_cons_self, confinedTo_of_byId hand hor hs⟩
  | updateMany es =>
      obtain ⟨e, he, hs⟩ := hs
      exact ⟨_, List.mem_map_of_mem he, confinedTo_of_byId hand hor hs⟩
  | deleteById tenant id => exact ⟨_, List.mem_cons_self, confinedTo_of_byId hand hor hs⟩
  | deleteByIds tenant ids => exact ⟨_, List.mem_cons_self, confinedTo_of_byIds hand hor hs⟩
  | deleteAll tenant => exact ⟨_, List.mem_cons_self, confinedTo_of_byTenant hand hor hs⟩
  | deleteByFilter tenant filter =>
      exact ⟨_, List.mem_cons_self, confinedTo_of_byFilter hand hor hs (hop filter rfl)⟩
  | findById tenant id => exact ⟨_, List.mem_cons_self, confinedTo_of_byId hand hor hs⟩
  | findByIds tenant ids => exact ⟨_, List.mem_cons_self, confinedTo_of_byIds hand hor hs⟩
  | findAll tenant => exact ⟨_, List.mem_cons_self, confinedTo_of_byTenant hand hor hs⟩
  | findList tenant filter =>
      exact ⟨_, List.mem_cons_self, confinedTo_of_byFilter hand hor hs (hop filter rfl)⟩
  | findPaging q =>
      exact ⟨_, List.mem_cons_self, confinedTo_of_byFilter hand hor hs (hop q.filter rfl)⟩

end Confined

end Repository

namespace Document

variable {α : Type} [Entity α]

/-! ## The backend of a collection -/

/-- Every document stores an entity of the type `α`. -/
def Stored (α : Type) [Entity α] (ds : List Document) : Prop :=
  ∀ d ∈ ds, ∃ e : α, ofEntity Naming.document.key e = .ok d

/-- Every document stores an entity, and those that pass a test are the given ones. -/
structure Spared (α : Type) [Entity α] (p : Document → Bool) (spared : List Document)
    (ds : List Document) : Prop where
  stored : Stored α ds
  filter_eq : ds.filter p = spared

/-- The repository over a collection. -/
def repository [SearchEngine] (parser : FilterParser) : Repository Collection α :=
  ⟨parser, backend Naming.document⟩

/-- What is read from documents is read from one of them. -/
theorem exists_mem_of_mem_entities {key : String} {ds : List Document} {es : List α}
    (h : entities key ds = .ok es) {e : α} (he : e ∈ es) : ∃ d ∈ ds, toEntity key d = .ok e := by
  induction ds generalizing es with
  | nil =>
      cases h
      exact nomatch he
  | cons d ds ih =>
      rw [entities, List.mapM_cons] at h
      obtain ⟨e', hfirst, h⟩ := exists_of_bind_eq_ok h
      obtain ⟨es', hrest, h⟩ := exists_of_bind_eq_ok h
      cases h
      rcases List.mem_cons.mp he with rfl | he
      · exact ⟨d, List.mem_cons_self, hfirst⟩
      · obtain ⟨d', hd', hread⟩ := ih hrest he
        exact ⟨d', .tail _ hd', hread⟩

section Serves

variable {parser : FilterParser} {p : Document → Bool} {spared : List Document}

/-- Documents outside a test come and go without a trace among those that pass it. -/
theorem spared_append {e : α} {d : Document} (hd : ofEntity Naming.document.key e = .ok d)
    (hp : p d = false) {ds : List Document} (h : Spared α p spared ds) :
    Spared α p spared (ds ++ [d]) := by
  refine ⟨?_, ?_⟩
  · intro d' hd'
    rcases List.mem_append.mp hd' with hd' | hd'
    · exact h.stored d' hd'
    · cases List.mem_singleton.mp hd'
      exact ⟨e, hd⟩
  · rw [List.filter_append, h.filter_eq, List.filter_cons_of_neg (by simp [hp])]
    exact List.append_nil _

theorem spared_replaceFirst {e : α} {d : Document} (hd : ofEntity Naming.document.key e = .ok d)
    (hp : p d = false) {test : Document → Bool} (htest : ∀ d, test d = true → p d = false)
    {ds : List Document} (h : Spared α p spared ds) :
    Spared α p spared (Collection.replaceFirst test d ds).2 := by
  refine ⟨?_, ?_⟩
  · intro d' hd'
    rcases Collection.mem_replaceFirst hd' with rfl | hd'
    · exact ⟨e, hd⟩
    · exact h.stored d' hd'
  · rw [Collection.filter_replaceFirst hp htest, h.filter_eq]

theorem spared_filter_not {test : Document → Bool} (htest : ∀ d, test d = true → p d = false)
    {ds : List Document} (h : Spared α p spared ds) :
    Spared α p spared (ds.filter (!test ·)) := by
  refine ⟨?_, ?_⟩
  · intro d hd
    exact h.stored d (List.mem_filter.mp hd).1
  · rw [Collection.filter_filter_not htest, h.filter_eq]

variable [LawfulEntity α]

/-- What is read from a stored document that a test does not pass has no document that passes it. -/
theorem eq_false_of_toEntity {d : Document}
    (hstored : ∃ e : α, ofEntity Naming.document.key e = .ok d) (hp : p d = false) {e : α}
    (hread : toEntity Naming.document.key d = .ok e) :
    ∀ d', ofEntity Naming.document.key e = .ok d' → p d' = false := by
  obtain ⟨e', he'⟩ := hstored
  rw [toEntity_of_ofEntity he'] at hread
  cases hread
  intro d' hd'
  rw [he'] at hd'
  cases hd'
  exact hp

/-- The collection serves an operation without touching the documents that pass a test, if neither
what the operation stores nor what it selects passes the test. -/
theorem serves_repository [SearchEngine] {op : Operation α}
    (hnew : ∀ e ∈ op.entities, ∀ d, ofEntity Naming.document.key e = .ok d → p d = false)
    (hselected : ∀ s, (repository parser).Sends s op →
      ∀ d, matchesQuery d s.query = true → p d = false) :
    (repository parser).Serves op (fun c => Spared α p spared c.documents)
      fun e => ∀ d, ofEntity Naming.document.key e = .ok d → p d = false where
  insert e he := by
    refine Access.Yields.lift_bind _ fun d hd => Collection.yields_insertOne ?_
    exact fun ds hds => spared_append hd (hnew e he d hd) hds
  update e he s hs := by
    refine Access.Yields.lift_bind _ fun d hd => Access.Yields.bind (P := fun _ => True) ?_ ?_
    · refine Collection.yields_updateOne fun ds hds => ?_
      exact spared_replaceFirst hd (hnew e he d hd) (hselected s hs) hds
    · exact fun _ _ => Access.Yields.pure trivial
  delete s hs :=
    Collection.yields_deleteMany fun ds hds => spared_filter_not (hselected s hs) hds
  first s hs := by
    refine Collection.yields_findOne.bind fun found hfound => ?_
    cases found with
    | none => exact Access.Yields.pure fun e he => nomatch he
    | some d =>
        obtain ⟨hmatch, ds, hds, hd⟩ := hfound d rfl
        refine Access.Yields.lift_bind _ fun e hread => Access.Yields.pure ?_
        rintro e ⟨⟩
        exact eq_false_of_toEntity (hds.stored d hd) (hselected s hs d hmatch) hread
  find s w hs := by
    refine (Collection.yields_find w).bind fun found hfound c hc => ⟨hc, ?_⟩
    intro es hes e he
    obtain ⟨d, hd, hread⟩ := exists_mem_of_mem_entities hes he
    obtain ⟨hmatch, ds, hds, hmem⟩ := hfound d hd
    exact eq_false_of_toEntity (hds.stored d hmem) (hselected s hs d hmatch) hread
  count s hs := Collection.yields_count

end Serves

/-! ## Whole runs -/

section Runs

variable [LawfulEntity α]

/-- After any operations on a new collection, all documents store entities. -/
theorem stored_after [SearchEngine] (parser : FilterParser) (key : String)
    (ops : List (Operation α)) :
    Stored α ((repository parser).after (Collection.empty key) ops).documents := by
  refine Repository.after_induction (I := fun c : Collection => Stored α c.documents) ?_ ?_ ops
  · intro op c hc
    -- Of a test that no document passes nothing has to be shown but that documents stay stored.
    have hserves : (repository parser).Serves op
        (fun c : Collection => Spared α (fun _ => false) [] c.documents)
        fun e => ∀ d, ofEntity Naming.document.key e = .ok d → false = false :=
      serves_repository (fun _ _ _ _ => rfl) fun _ _ _ _ => rfl
    have hspared : Spared α (fun _ => false) [] c.documents :=
      ⟨hc, List.filter_eq_nil_iff.mpr fun _ _ h => nomatch h⟩
    exact (Repository.run_spec hserves (fun _ _ _ _ => rfl) hspared).1.stored
  · exact fun d hd => nomatch hd

/-- The document belongs to none of the tenants. -/
def IsForeign (d : Document) (tenants : List String) : Prop :=
  ∀ tenant ∈ tenants, ¬ d.BelongsTo Naming.document tenant

instance (d : Document) (tenants : List String) : Decidable (d.IsForeign tenants) :=
  inferInstanceAs (Decidable (∀ tenant ∈ tenants, ¬ d.BelongsTo Naming.document tenant))

/-- An entity whose document is not foreign to some tenants has one of them. -/
theorem tenantId_mem_of_not_isForeign {e : α} {tenants : List String}
    (h : ∀ d, ofEntity Naming.document.key e = .ok d → ¬ d.IsForeign tenants) :
    Entity.tenantId e ∈ tenants := by
  obtain ⟨d, hd, -, -, htenant, -⟩ := exists_ofEntity e
  refine Classical.not_not.mp fun hmem => h d hd ?_
  intro tenant ht hbelongs
  unfold BelongsTo at hbelongs
  rw [htenant] at hbelongs
  cases hbelongs
  exact hmem ht

/-- After any operations on a new collection, an operation leaves the documents of all tenants that
it does not name as they are and in the same order, and hands out entities of the tenants that it
names only. Of a filter it is asked that not any of some clauses suffices. -/
theorem isolation_run [SearchEngine] (parser : FilterParser) (key : String)
    (ops : List (Operation α)) (op : Operation α) (hop : op.Conjunctive parser Naming.document) :
    let before := (repository parser).after (Collection.empty key) ops
    let answer := (repository parser).run op before
    answer.2.documents.filter (fun d => d.IsForeign op.tenants) =
        before.documents.filter (fun d => d.IsForeign op.tenants) ∧
      ∀ e ∈ answer.1.found, Entity.tenantId e ∈ op.tenants := by
  intro before answer
  have hforeign : ∀ d : Document, ∀ tenant ∈ op.tenants, d.BelongsTo Naming.document tenant →
      decide (d.IsForeign op.tenants) = false := by
    intro d tenant ht hbelongs
    exact decide_eq_false fun h => h tenant ht hbelongs
  have hnew : ∀ e ∈ op.entities, ∀ d, ofEntity Naming.document.key e = .ok d →
      decide (d.IsForeign op.tenants) = false := by
    intro e he d hd
    refine hforeign d (Entity.tenantId e) ?_ (get?_tenant_of_ofEntity hd)
    -- An operation names the tenants of all entities that it is given.
    cases op with
    | insert e' | update e' => cases List.mem_singleton.mp he; exact List.mem_cons_self
    | insertMany es | updateMany es => exact List.mem_map_of_mem he
    | _ => exact nomatch he
  have hselected : ∀ s, (repository parser).Sends s op →
      ∀ d, matchesQuery d s.query = true → decide (d.IsForeign op.tenants) = false := by
    intro s hs d hmatch
    have hand : Naming.document.tenant ≠ "$and" := by decide
    have hor : Naming.document.tenant ≠ "$or" := by decide
    obtain ⟨tenant, ht, hconfined⟩ := Repository.exists_confinedTo_of_sends hand hor hop hs
    exact hforeign d tenant ht (hconfined d hmatch)
  have hspared : Spared α (fun d => d.IsForeign op.tenants)
      (before.documents.filter fun d => d.IsForeign op.tenants) before.documents :=
    ⟨stored_after parser key ops, rfl⟩
  obtain ⟨hspared, hfound⟩ :=
    Repository.run_spec (serves_repository hnew hselected) hnew hspared
  refine ⟨hspared.filter_eq, fun e he => tenantId_mem_of_not_isForeign fun d hd => ?_⟩
  exact of_decide_eq_false (hfound e he d hd)

/-- A filter on the tenant's own field does not let a tenant delete the users of another. -/
theorem isolation_run_deleteByFilter_users :
    let parser : FilterParser := fun _ =>
      .ok [.comparison "tenantId" .ne (.scalar (.string "acme"))]
    let users : List User := [⟨"u1", "acme", "Ann", 30⟩, ⟨"u2", "zeta", "Bob", 41⟩]
    let op : Operation User := .deleteByFilter "acme" "tenantId ne acme"
    let before := (repository parser).after (Collection.empty "_id") [.insertMany users]
    let answer := (repository parser).run op before
    op.Conjunctive parser Naming.document ∧
      (before.documents.filter fun d => d.IsForeign op.tenants).map (field · "_id") =
        [.string "u2"] ∧
      (answer.2.documents.filter fun d => d.IsForeign op.tenants) =
        before.documents.filter fun d => d.IsForeign op.tenants := by
  intro parser users op before answer
  have hop : op.Conjunctive parser Naming.document := by
    rintro text ⟨⟩ tree htree clauses h
    have hcompiled : Filter.compile parser Naming.document "tenantId ne acme" =
        .ok ⟨.mk 0 .unnamed none [.leaf 1 (.field "tenantId") (some (.ne (.string "acme")))], 2⟩ :=
      rfl
    rw [hcompiled] at htree
    cases htree
    cases h
  exact ⟨hop, by decide +kernel, (isolation_run parser "_id" [.insertMany users] op hop).1⟩

end Runs

end Document
end TenantStore
