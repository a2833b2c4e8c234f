import TenantStore.Proofs.Document.Collection
import TenantStore.Proofs.Document.Isolation
import TenantStore.Proofs.Document.Roster

/-!
# Collections refine rosters

The documents of a collection that was new before the first operation are those of a roster, in the
same order. The collection answers every request as the roster that it represents does
(`Document.backend_simulates`), so a repository cannot tell them apart, and over the roster it does
what `Roster.answer` says (`Roster.run_eq_answer`). Together they say what any operation does after
any others (`Document.refinement_run`).
-/

namespace TenantStore

open Entity (document IsAt)

variable {α : Type} [Entity α]

namespace Roster

/-! ## The repository over a roster -/

/-- An entity is put in the place of the first of some if there is one at most. -/
theorem set_findIdx_eq_map {α : Type} {test : α → Bool} {es : List α}
    (h : es.Pairwise fun a b => ¬ (test a = true ∧ test b = true)) (e : α) :
    es.set (es.findIdx test) e = es.map fun e' => if test e' then e else e' := by
  induction es with
  | nil => rfl
  | cons a es ih =>
      obtain ⟨hfirst, hrest⟩ := List.pairwise_cons.mp h
      rw [List.findIdx_cons, List.map_cons]
      cases ha : test a with
      | true =>
          -- Behind the first entity that passes the test there is none that does.
          have hothers : es.map (fun e' => if test e' then e else e') = es := by
            refine (List.map_congr_left fun e' he' => ?_).trans (List.map_id es)
            exact if_neg fun htest => hfirst e' he' ⟨ha, htest⟩
          rw [hothers]
          rfl
      | false =>
          rw [← ih hrest]
          rfl

section Run

variable [SearchEngine] {parser : FilterParser}

/-! ### What operations send -/

section Selections

variable {tenant : String} (htenant : Text.isBlank tenant = false)

include htenant

omit [SearchEngine] in
theorem ofName_eq_ok : Tenant.ofName tenant = .ok ⟨tenant, htenant⟩ :=
  Tenant.ofName_eq_ok_iff.mpr rfl

theorem byId_eq_ok (id : String) :
    (repository parser : Repository (List α) α).byId tenant id =
      .ok (Scoped.ofId ⟨tenant, htenant⟩ id Naming.document) := by
  rw [Repository.byId, ofName_eq_ok htenant]
  rfl

theorem byIds_eq_ok (ids : List String) :
    (repository parser : Repository (List α) α).byIds tenant ids =
      .ok (Scoped.ofIds ⟨tenant, htenant⟩ ids Naming.document) := by
  rw [Repository.byIds, ofName_eq_ok htenant]
  rfl

theorem byTenant_eq_ok :
    (repository parser : Repository (List α) α).byTenant tenant =
      .ok (Scoped.ofTenant ⟨tenant, htenant⟩ Naming.document) := by
  rw [Repository.byTenant, ofName_eq_ok htenant]
  rfl

end Selections

/-! ### What accesses do -/

omit [SearchEngine] in
/-- The entities of a selection are found in the order in which they were stored. -/
theorem view_all (es : List α) : view .all es = es := by
  have hsorted : es.mergeSort (fun a b => (SortField.listOrder [] (document a) (document b)).isLE) =
      es :=
    List.mergeSort_of_pairwise (List.pairwise_of_forall fun _ _ => rfl)
  rw [view, Window.all, hsorted]
  rfl

theorem tryInsert_apply {e : α} (htenant : Text.isBlank (Entity.tenantId e) = false)
    (es : List α) :
    (repository parser).tryInsert e es =
      if IsTaken es e then (.error duplicate, es) else (.ok (), es ++ [e]) := by
  rw [Repository.tryInsert, ofName_eq_ok htenant]
  rfl

theorem tryInsertMany_apply {new : List α}
    (htenants : ∀ e ∈ new, Text.isBlank (Entity.tenantId e) = false) (es : List α) :
    (repository parser).tryInsertMany new es = append new es := by
  induction new generalizing es with
  | nil => rfl
  | cons e new ih =>
      obtain ⟨hfirst, hrest⟩ := List.forall_mem_cons.mp htenants
      rw [Repository.tryInsertMany, Access.bind_apply, tryInsert_apply hfirst, append]
      by_cases htaken : IsTaken es e
      · rw [if_pos htaken, if_pos htaken]
      · rw [if_neg htaken, if_neg htaken]
        exact ih hrest _

section Lookup

variable {selection : Except StoreError Scoped}

theorem delete_refused {error : StoreError} (hselection : selection = .error error)
    (es : List α) : (repository parser).delete selection es = (.ofError error, es) := by
  rw [hselection]
  rfl

theorem findMany_refused {error : StoreError} (hselection : selection = .error error)
    (es : List α) : (repository parser).findMany selection es = (.ofError error, es) := by
  rw [hselection]
  rfl

variable {s : Scoped} {test : α → Bool} (hselection : selection = .ok s) (htest : s.selects = test)
  (es : List α)

include hselection htest

theorem delete_apply :
    (repository parser).delete selection es =
      (.ofCount (es.filter test).length, es.filter (!test ·)) := by
  rw [hselection, ← htest, Repository.delete, Repository.settle_apply]
  rfl

theorem findOne_apply :
    (repository parser).findOne selection es = (.ofResult (.ok (es.find? test)), es) := by
  rw [hselection, ← htest, Repository.findOne, Repository.settle_apply]
  rfl

theorem findMany_apply :
    (repository parser).findMany selection es = (.ofList (es.filter test), es) := by
  rw [hselection, ← htest, ← view_all (es.filter s.selects), Repository.findMany,
    Repository.settle_apply]
  rfl

end Lookup

theorem findPaging_apply (q : PageQuery) (es : List α) :
    (repository parser).findPaging q es =
      match (repository parser : Repository (List α) α).pageRequest q with
      | .ok (s, w) =>
        let found := es.filter s.selects
        (.ofParts (some (view w found)) (min found.length maxInteger) (some q) none, es)
      | .error error => (.ofError error, es) := by
  rw [Repository.findPaging_apply, Repository.tryFindPaging_eq]
  cases (repository parser : Repository (List α) α).pageRequest q <;> rfl

variable [LawfulEntity α]

/-- An update takes the place of the entity with its tenant and identifier. -/
theorem tryUpdate_apply {e : α} (htenant : Text.isBlank (Entity.tenantId e) = false)
    {es : List α} (h : Distinct es) :
    (repository parser).tryUpdate e es = (.ok (decide (Has es e)), replace es e) := by
  let test : α → Bool := fun e' => decide (IsAt (Entity.tenantId e) (Entity.id e) e')
  -- Two entities in one place would have the same identifier.
  have hone : es.Pairwise fun a b => ¬ (test a = true ∧ test b = true) := by
    refine (List.pairwise_map.mp h).imp fun {a b} hne htest => hne ?_
    exact (of_decide_eq_true htest.1).2.trans (of_decide_eq_true htest.2).2.symm
  have hfound : es.any test = decide (Has es e) := by
    rw [Bool.eq_iff_iff, decide_eq_true_iff, List.any_eq_true]
    simp only [test, decide_eq_true_iff, Has]
  have hreplaced : es.set (es.findIdx test) e = replace es e := by
    rw [set_findIdx_eq_map hone e, replace]
    simp only [test, decide_eq_true_iff]
  rw [Repository.tryUpdate, byId_eq_ok htenant]
  show (Except.ok (es.any (Scoped.selects _)), es.set (es.findIdx (Scoped.selects _)) e) = _
  rw [Scoped.selects_ofId, ← hfound, ← hreplaced]

theorem tryUpdateMany_apply {new : List α}
    (htenants : ∀ e ∈ new, Text.isBlank (Entity.tenantId e) = false) {es : List α}
    (h : Distinct es) :
    (repository parser).tryUpdateMany new es =
      (.ok (new.filter (Has es)), new.foldl replace es) := by
  induction new generalizing es with
  | nil => rfl
  | cons e new ih =>
      obtain ⟨hfirst, hrest⟩ := List.forall_mem_cons.mp htenants
      -- What was there before the first update is there after it.
      have hsame : new.filter (Has (replace es e)) = new.filter (Has es) := by
        simp only [has_replace_iff]
      rw [Repository.tryUpdateMany, Access.bind_apply, tryUpdate_apply hfirst h]
      show (_ >>= _ : Access _ _) _ = _
      rw [Access.bind_apply, ih hrest (distinct_replace h e), hsame, List.filter_cons]
      rfl

/-- Over a roster of distinct identifiers, an operation of non-blank tenants does what is said of
it. -/
theorem run_eq_answer (op : Operation α)
    (htenants : ∀ tenant ∈ op.tenants, Text.isBlank tenant = false) {es : List α}
    (h : Distinct es) : (repository parser).run op es = answer parser op es := by
  -- A reply is an outcome under the name of its kind.
  have hreply : ∀ {δ : Type} (reply : δ → Reply α) {act : StateM (List α) δ} {o : δ × List α},
      act es = o → (do return reply (← act) : StateM (List α) (Reply α)) es = (reply o.1, o.2) := by
    rintro δ reply act o rfl
    rfl
  cases op with
  | insert e =>
      have htenant := htenants _ List.mem_cons_self
      refine (hreply .entity (Repository.settle_apply _ _ es)).trans ?_
      rw [tryInsert_apply htenant, answer]
      by_cases htaken : IsTaken es e
      · rw [if_pos htaken, if_pos htaken]
      · rw [if_neg htaken, if_neg htaken]
  | insertMany new =>
      have hnew : ∀ e ∈ new, Text.isBlank (Entity.tenantId e) = false :=
        fun e he => htenants _ (List.mem_map_of_mem he)
      refine (hreply .entities (Repository.settle_apply _ _ es)).trans ?_
      rw [tryInsertMany_apply hnew, answer]
      cases (append new es).1 <;> rfl
  | update e =>
      have htenant := htenants _ List.mem_cons_self
      refine (hreply .entity (Repository.settle_apply _ _ es)).trans ?_
      rw [tryUpdate_apply htenant h, answer]
      by_cases hhas : Has es e
      · simp [hhas]
      · simp [hhas, replace_eq_self hhas]
  | updateMany new =>
      have hnew : ∀ e ∈ new, Text.isBlank (Entity.tenantId e) = false :=
        fun e he => htenants _ (List.mem_map_of_mem he)
      refine (hreply .entities (Repository.settle_apply _ _ es)).trans ?_
      rw [tryUpdateMany_apply hnew h]
      rfl
  | deleteById tenant id =>
      have htenant := htenants _ List.mem_cons_self
      exact hreply .count (delete_apply (byId_eq_ok htenant id) (Scoped.selects_ofId _ id) es)
  | deleteByIds tenant ids =>
      have htenant := htenants _ List.mem_cons_self
      exact hreply .count (delete_apply (byIds_eq_ok htenant ids) (Scoped.selects_ofIds _ ids) es)
  | deleteAll tenant =>
      have htenant := htenants _ List.mem_cons_self
      exact hreply .count (delete_apply (byTenant_eq_ok htenant) (Scoped.selects_ofTenant _) es)
  | deleteByFilter tenant filter =>
      rw [answer]
      cases hselection : (repository parser : Repository (List α) α).byFilter tenant filter with
      | ok s => exact hreply .count (delete_apply hselection rfl es)
      | error error => exact hreply .count (delete_refused hselection es)
  | findById tenant id =>
      have htenant := htenants _ List.mem_cons_self
      exact hreply .entity (findOne_apply (byId_eq_ok htenant id) (Scoped.selects_ofId _ id) es)
  | findByIds tenant ids =>
      have htenant := htenants _ List.mem_cons_self
      exact hreply .entities
        (findMany_apply (byIds_eq_ok htenant ids) (Scoped.selects_ofIds _ ids) es)
  | findAll tenant =>
      have htenant := htenants _ List.mem_cons_self
      exact hreply .entities
        (findMany_apply (byTenant_eq_ok htenant) (Scoped.selects_ofTenant _) es)
  | findList tenant filter =>
      rw [answer]
      cases hselection : (repository parser : Repository (List α) α).byFilter tenant filter with
      | ok s => exact hreply .entities (findMany_apply hselection rfl es)
      | error error => exact hreply .entities (findMany_refused hselection es)
  | findPaging q =>
      refine (hreply .page (findPaging_apply q es)).trans ?_
      rw [answer]
      cases (repository parser : Repository (List α) α).pageRequest q <;> rfl

/-- Over a new roster, operations of non-blank tenants leave what is said of them. -/
theorem after_repository {ops : List (Operation α)}
    (htenants : ∀ op ∈ ops, ∀ tenant ∈ op.tenants, Text.isBlank tenant = false) :
    (repository parser).after [] ops = after parser ops ∧ Distinct (after parser ops) := by
  -- The entities so far are distinct at every point of the run.
  have hrun : ∀ es : List α, Distinct es →
      (repository parser).after es ops = ops.foldl (fun es op => (answer parser op es).2) es ∧
        Distinct (ops.foldl (fun es op => (answer parser op es).2) es) := by
    induction ops with
    | nil => exact fun es h => ⟨rfl, h⟩
    | cons op ops ih =>
        intro es h
        obtain ⟨hop, hops⟩ := List.forall_mem_cons.mp htenants
        have hfirst : (repository parser).after es (op :: ops) =
            (repository parser).after (answer parser op es).2 ops := by
          rw [← run_eq_answer op hop h]
          rfl
        rw [hfirst]
        exact ih hops _ (distinct_answer parser op h)
  exact hrun [] List.nodup_nil

end Run

end Roster

namespace Document

/-! ## Collections as rosters -/

/-- The collection has the documents of a roster in the same order, and it does not fail. -/
structure Represents (c : Collection) (es : List α) : Prop where
  key : c.key = Naming.document.key
  failure : c.failure = none
  documents : c.documents = es.map document

variable {c : Collection} {es : List α}

/-- A window shows of values made of others what is made of those that it shows. -/
theorem map_cut {β γ : Type} (f : β → γ) (w : Window) (xs : List β) :
    (w.cut xs).map f = w.cut (xs.map f) := by
  unfold Window.cut
  split
  · rw [List.map_take, List.map_drop]
  · rw [List.map_drop]

/-- What an access by a query does to the documents is what the access to the roster does. -/
theorem simulates_answer {β : Type} {query : Document} {act : Collection → β × Collection}
    {ref : Access (List α) β}
    (hact : ∀ c es, Represents c es →
      (ref es).1 = .ok (act c).1 ∧ Represents (act c).2 (ref es).2) :
    (Collection.answer query act).Simulates Represents ref := by
  intro c es h
  have hreceived : Represents (c.receive query) es := ⟨h.key, h.failure, h.documents⟩
  obtain ⟨hanswer, hstate⟩ := hact _ es hreceived
  rw [Collection.answer_apply h.failure]
  exact ⟨hanswer.symm, hstate⟩

section Accesses

variable [SearchEngine]

theorem select_eq (h : Represents c es) (s : Scoped) :
    c.select s.query = (es.filter s.selects).map document := by
  rw [Collection.select, h.documents, List.filter_map]
  rfl

theorem updateOne_simulates (s : Scoped) (e : α) :
    (Collection.updateOne s.query (document e)).Simulates Represents fun es : List α =>
      (.ok (if es.any s.selects then 1 else 0), es.set (es.findIdx s.selects) e) := by
  refine simulates_answer fun c es h => ?_
  rw [Collection.replaceFirst_eq, h.documents, List.any_map, List.findIdx_map, ← List.map_set]
  exact ⟨rfl, h.key, h.failure, rfl⟩

theorem deleteMany_simulates (s : Scoped) :
    (Collection.deleteMany s.query).Simulates Represents (Roster.backend (α := α).delete s) := by
  refine simulates_answer fun c es h => ?_
  rw [select_eq h, List.length_map, h.documents, List.filter_map]
  exact ⟨rfl, h.key, h.failure, rfl⟩

theorem findOne_simulates (s : Scoped) :
    (Collection.findOne s.query).Simulates Represents fun es : List α =>
      (.ok ((es.find? s.selects).map document), es) := by
  refine simulates_answer fun c es h => ?_
  rw [h.documents, List.find?_map]
  exact ⟨rfl, h⟩

theorem find_simulates (s : Scoped) (w : Window) :
    (Collection.find s.query w).Simulates Represents fun es : List α =>
      (.ok ((Roster.view w (es.filter s.selects)).map document), es) := by
  refine simulates_answer fun c es h => ⟨?_, h⟩
  have hsorted := List.map_mergeSort (r := fun a b : α =>
    (SortField.listOrder w.sort (document a) (document b)).isLE)
    (s := fun a b => (SortField.listOrder w.sort a b).isLE) (f := document)
    (l := es.filter s.selects) fun _ _ _ _ => rfl
  rw [select_eq h, Roster.view, map_cut, hsorted]

theorem count_simulates (s : Scoped) :
    (Collection.count s.query).Simulates Represents (Roster.backend (α := α).count s) := by
  refine simulates_answer fun c es h => ?_
  rw [select_eq h, List.length_map]
  exact ⟨rfl, h⟩

end Accesses

variable [LawfulEntity α]

/-- The documents of a roster are read as its entities. -/
theorem entities_map_document (es : List α) :
    entities Naming.document.key (es.map document) = .ok es := by
  induction es with
  | nil => rfl
  | cons e es ih =>
      rw [entities] at ih
      rw [entities, List.map_cons, List.mapM_cons, Entity.toEntity_document, ih]
      rfl

/-- The documents of a roster are written as the documents of its entities. -/
theorem mapM_ofEntity (es : List α) :
    es.mapM (ofEntity Naming.document.key) = .ok (es.map document) := by
  induction es with
  | nil => rfl
  | cons e es ih =>
      rw [List.mapM_cons, Entity.ofEntity_eq_document, ih]
      rfl

/-- A document has the key of one that is there exactly when its entity has an identifier that is
given out. -/
theorem hasKeyOf_document (h : Represents c es) (e : α) :
    c.hasKeyOf (document e) = decide (Roster.IsTaken es e) := by
  rw [Bool.eq_iff_iff, decide_eq_true_iff, Collection.hasKeyOf, h.key, h.documents]
  simp [Entity.get?_key_document, Json.same, Roster.IsTaken]

theorem insertOne_simulates [SearchEngine] (e : α) :
    (Collection.insertOne (document e)).Simulates Represents (Roster.backend.insert e) := by
  intro c es h
  rw [Collection.insertOne, Collection.guarded_apply h.failure]
  simp only [hasKeyOf_document h, decide_eq_true_iff, Roster.backend]
  split
  · exact ⟨rfl, h⟩
  · exact ⟨rfl, h.key, h.failure, by rw [h.documents, List.map_append]; rfl⟩

/-- A collection answers as the roster that it has the documents of. -/
theorem backend_simulates [SearchEngine] :
    (backend Naming.document : Backend Collection α).Simulates Represents Roster.backend where
  naming := rfl
  insert e := by
    have hcollection : (backend Naming.document).insert e = Collection.insertOne (document e) := by
      show (liftM (ofEntity Naming.document.key e) >>= _ : Access _ _) = _
      rw [Entity.ofEntity_eq_document]
      rfl
    rw [hcollection]
    exact insertOne_simulates e
  update s e := by
    have hcollection : (backend Naming.document).update s e =
        Collection.updateOne s.query (document e) >>= fun n => pure (decide (0 < n)) := by
      show (liftM (ofEntity Naming.document.key e) >>= _ : Access _ _) = _
      rw [Entity.ofEntity_eq_document]
      rfl
    intro c es h
    obtain ⟨hanswer, hstate⟩ := updateOne_simulates s e c es h
    rw [hcollection, Access.bind_apply_of_ok hanswer]
    refine ⟨?_, hstate⟩
    -- The collection counts what it replaced, which is one document at most.
    show Except.ok (decide (0 < if es.any s.selects = true then 1 else 0)) = _
    cases hfound : es.any s.selects <;> simp [Roster.backend, hfound]
  delete := deleteMany_simulates
  first s := by
    intro c es h
    obtain ⟨hanswer, hstate⟩ := findOne_simulates s c es h
    have hcollection : (backend Naming.document).first s c =
        (.ok (es.find? s.selects), (Collection.findOne s.query c).2) := by
      refine (Access.bind_apply_of_ok hanswer _).trans ?_
      cases es.find? s.selects with
      | none => rfl
      | some e =>
          show (liftM (toEntity (α := α) Naming.document.key (document e)) >>= _ : Access _ _) _ = _
          rw [Entity.toEntity_document]
          rfl
    rw [hcollection]
    exact ⟨rfl, hstate⟩
  find s w := by
    intro c es h
    obtain ⟨hanswer, hstate⟩ := find_simulates s w c es h
    have hcollection : (backend (α := α) Naming.document).find s w c =
        (entities Naming.document.key ((Roster.view w (es.filter s.selects)).map document),
          (Collection.find s.query w c).2) :=
      Access.bind_apply_of_ok hanswer _
    rw [hcollection, entities_map_document]
    exact ⟨rfl, hstate⟩
  count := count_simulates

/-! ## Whole runs -/

/-- After any operations of non-blank tenants on a new collection, the documents are those of the
roster that the operations are said to leave, in the same order, the identifiers on it are distinct,
and a further operation answers and leaves what it is said to. -/
theorem refinement_run [SearchEngine] (parser : FilterParser) (ops : List (Operation α))
    (op : Operation α)
    (htenants : ∀ op' ∈ op :: ops, ∀ tenant ∈ op'.tenants, Text.isBlank tenant = false) :
    let before := (repository parser).after (Collection.empty Naming.document.key) ops
    let roster := Roster.after parser ops
    let outcome := (repository parser).run op before
    let expected := Roster.answer parser op roster
    roster.mapM (ofEntity Naming.document.key) = .ok before.documents ∧
      (roster.map Entity.id).Nodup ∧
      outcome.1 = expected.1 ∧
      expected.2.mapM (ofEntity Naming.document.key) = .ok outcome.2.documents := by
  intro before roster outcome expected
  obtain ⟨hop, hops⟩ := List.forall_mem_cons.mp htenants
  obtain ⟨hroster, hdistinct⟩ :
      (Roster.repository parser).after [] ops = roster ∧ Roster.Distinct roster :=
    Roster.after_repository hops
  have hbackend : (repository parser).backend.Simulates (Represents (α := α))
      (Roster.repository parser).backend :=
    backend_simulates
  have hempty : Represents (Collection.empty Naming.document.key) ([] : List α) := ⟨rfl, rfl, rfl⟩
  -- What is related stays related along the operations, and over the roster they do what is said.
  have hbefore : Represents before roster := by
    have hsimulated := Repository.after_simulates hbackend rfl ops hempty
    rwa [hroster] at hsimulated
  obtain ⟨hreply, hafter⟩ := Repository.run_simulates hbackend rfl op hbefore
  rw [Roster.run_eq_answer op hop hdistinct] at hreply hafter
  refine ⟨?_, hdistinct, hreply, ?_⟩
  · rw [mapM_ofEntity, hbefore.documents]
  · rw [mapM_ofEntity, hafter.documents]

/-- An identifier that a user has is refused to users of other tenants, and deleting by it deletes
the user of the given tenant only. -/
theorem refinement_run_users :
    let parser : FilterParser := fun _ => .ok []
    let users : List User := [⟨"u1", "acme", "Ann", 30⟩, ⟨"u2", "zeta", "Bob", 41⟩]
    let ops : List (Operation User) := [.insertMany users, .insert ⟨"u1", "zeta", "Cid", 52⟩]
    let op : Operation User := .deleteByIds "acme" ["u1", "u2"]
    let before := (repository parser).after (Collection.empty Naming.document.key) ops
    (∀ op' ∈ op :: ops, ∀ tenant ∈ op'.tenants, Text.isBlank tenant = false) ∧
      Roster.after parser ops = users ∧
      ((repository parser).run op before).1 = .count (.matched 1) := by
  intro parser users ops op before
  have htenants : ∀ op' ∈ op :: ops, ∀ tenant ∈ op'.tenants, Text.isBlank tenant = false := by
    decide
  exact ⟨htenants, by decide +kernel, (refinement_run parser ops op htenants).2.2.1⟩

end Document
end TenantStore
