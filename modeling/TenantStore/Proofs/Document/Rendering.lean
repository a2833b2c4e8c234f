import TenantStore.Proofs.Access
import TenantStore.Proofs.Document.Scoping
import TenantStore.Proofs.Filter.Change
import TenantStore.Proofs.Filter.Invariant

/-!
# Filters as query documents

The same filter is written as a query document in several ways: a tree by its nodes, the selection
of the tree, and the query of a tenant's selection. Whatever tree a draft or a caller builds, its
root is no condition on a field (`Tree.Built.root`) and its numbers are those of its nodes
(`Tree.Built.numbers`). Hence the ways agree, but for a root that is not named and has one child
only, and for groups without children; and nothing that matches depends on the difference
(`Filter.renderings_agree`).
-/

namespace TenantStore

/-! ## Numbers of nodes -/

namespace Node

theorem mem_preorder_of_mem_children {n p c : Node} (hp : p ∈ n.preorder) (hc : c ∈ p.children) :
    c ∈ n.preorder := by
  refine (preorder_sublist n hp).subset ?_
  cases p with
  | mk id name predicate children =>
      rw [preorder, preorderList_eq_flatMap]
      exact List.mem_cons_of_mem _ (List.mem_flatMap.mpr ⟨c, hc, mem_preorder_self c⟩)

theorem name_adopt (child n : Node) : (adopt child n).name = n.name := by
  cases n
  rfl

theorem name_putPredicate (p : Predicate) (n : Node) : (putPredicate p n).name = n.name := by
  cases n
  rfl

theorem name_modify {f : Node → Node} (hf : ∀ m, (f m).name = m.name) (target : Nat) (n : Node) :
    (n.modify target f).name = n.name := by
  cases n
  rw [modify]
  split
  · exact hf _
  · rfl

mutual

/-- A condition that is put on a node changes no number. -/
theorem map_id_preorder_modify_putPredicate (target : Nat) (p : Predicate) : (n : Node) →
    (n.modify target (putPredicate p)).preorder.map Node.id = n.preorder.map Node.id
  | mk id name predicate children => by
      rw [modify]
      split
      · rfl
      · rw [preorder, preorder, List.map_cons, List.map_cons,
          map_id_preorderList_modifyList_putPredicate target p children]
        rfl

/-- A condition that is put on a node changes no number. -/
theorem map_id_preorderList_modifyList_putPredicate (target : Nat) (p : Predicate) :
    (ns : List Node) → (preorderList (modifyList target (putPredicate p) ns)).map Node.id =
      (preorderList ns).map Node.id
  | [] => rfl
  | n :: ns => by
      rw [modifyList, preorderList, preorderList, List.map_append, List.map_append,
        map_id_preorder_modify_putPredicate target p n,
        map_id_preorderList_modifyList_putPredicate target p ns]

end

mutual

/-- When the numbers of the nodes differ, a child that is adopted adds its numbers once. -/
theorem perm_preorder_modify_adopt {target : Nat} (child : Node) : (n : Node) →
    (n.preorder.map Node.id).Nodup → target ∈ n.preorder.map Node.id →
      ((n.modify target (adopt child)).preorder.map Node.id).Perm
        (n.preorder.map Node.id ++ child.preorder.map Node.id)
  | mk id name predicate children, hnodup, htarget => by
      rw [preorder, List.map_cons] at hnodup htarget
      rw [modify]
      split
      · rw [adopt, preorder_mk_append, preorder, List.map_cons, List.map_cons, List.map_append]
        rfl
      · next hid =>
          have hchildren := (List.mem_cons.mp htarget).resolve_left fun h => hid h.symm
          rw [preorder, preorder, List.map_cons, List.map_cons]
          exact (perm_preorderList_modifyList_adopt child children hnodup.of_cons hchildren).cons _

/-- When the numbers of the nodes differ, a child that is adopted adds its numbers once. -/
theorem perm_preorderList_modifyList_adopt {target : Nat} (child : Node) : (ns : List Node) →
    ((preorderList ns).map Node.id).Nodup → target ∈ (preorderList ns).map Node.id →
      ((preorderList (modifyList target (adopt child) ns)).map Node.id).Perm
        ((preorderList ns).map Node.id ++ child.preorder.map Node.id)
  | [], _, htarget => nomatch htarget
  | n :: ns, hnodup, htarget => by
      rw [preorderList, List.map_append] at hnodup htarget
      obtain ⟨hfirst, hrest, hdisjoint⟩ := List.nodup_append.mp hnodup
      rw [modifyList, preorderList, preorderList, List.map_append, List.map_append]
      -- The number is that of a node in one of the subtrees only.
      rcases List.mem_append.mp htarget with htarget | htarget
      · have hsame : modifyList target (adopt child) ns = ns := by
          refine modifyList_of_forall_ne ns fun m hm hid => ?_
          exact hdisjoint target htarget m.id (List.mem_map_of_mem hm) hid.symm
        rw [hsame, List.append_assoc]
        refine ((perm_preorder_modify_adopt child n hfirst htarget).append_right _).trans ?_
        rw [List.append_assoc]
        exact List.perm_append_comm.append_left _
      · have hsame : n.modify target (adopt child) = n := by
          refine modify_of_forall_ne n fun m hm hid => ?_
          exact hdisjoint m.id (List.mem_map_of_mem hm) target htarget hid
        rw [hsame, List.append_assoc]
        exact (perm_preorderList_modifyList_adopt child ns hrest htarget).append_left _

end

end Node

/-! ## Trees that are built -/

namespace Tree

/-- The tree is built: by a draft that takes events and passes over refusals, or node by node. -/
inductive Built : Tree → Prop
  | draft (naming : Naming) (es : List FilterEvent) :
    Built (Draft.empty.replayAll naming es).tree
  | addNode {t : Tree} (ht : Built t) {parent : Nat}
    (hparent : parent ∈ t.root.preorder.map Node.id) (name : NodeName) :
    Built (t.addNode parent name none)
  | putPredicate {t : Tree} (ht : Built t) {id : Nat} (hid : id ∈ t.root.preorder.map Node.id)
    (predicate : Predicate) : Built (t.putPredicate id predicate)

namespace Built

variable {t : Tree}

/-- The root is no condition on a field. -/
theorem root (ht : t.Built) : t.root.IsGroup := by
  induction ht with
  | draft naming es => exact ((Draft.consistent_empty naming).replayAll es).tree.isGroup_root
  | addNode ht hparent name ih =>
      intro field hfield
      exact ih field ((Node.name_modify (Node.name_adopt _) _ _).symm.trans hfield)
  | putPredicate ht hid predicate ih =>
      intro field hfield
      exact ih field ((Node.name_modify (Node.name_putPredicate _) _ _).symm.trans hfield)

/-- Every number up to the next is that of one node. -/
theorem numbers (ht : t.Built) : (t.root.preorder.map Node.id).Perm (List.range t.size) := by
  induction ht with
  | draft naming es =>
      exact .of_eq ((Draft.consistent_empty naming).replayAll es).tree.numbers
  | @addNode t ht parent hparent name ih =>
      have hnodup := ih.nodup_iff.mpr List.nodup_range
      rw [Tree.addNode, List.range_succ]
      refine (Node.perm_preorder_modify_adopt _ t.root hnodup hparent).trans ?_
      exact ih.append_right _
  | putPredicate ht hid predicate ih =>
      rw [Tree.putPredicate, Node.map_id_preorder_modify_putPredicate]
      exact ih

theorem find?_eq_some (ht : t.Built) {n : Node} (hn : n ∈ t.root.preorder) :
    t.find? n.id = some n :=
  Node.find?_eq_some (ht.numbers.nodup_iff.mpr List.nodup_range) hn

/-- The tree of a filter text is built. -/
theorem of_compile {parser : FilterParser} {naming : Naming} {text : String}
    (h : Filter.compile parser naming text = .ok t) : t.Built := by
  have hreplay {d next : Draft} {es : List FilterEvent} (h : d.replay naming es = .ok next) :
      d.replayAll naming es = next := by
    induction es generalizing d with
    | nil => exact Except.ok.inj h
    | cons e es ih =>
        rw [Draft.replay] at h
        rw [Draft.replayAll, List.foldl_cons, Draft.acceptOrSkip]
        cases haccept : d.accept naming e with
        | ok after =>
            rw [haccept] at h
            exact ih h
        | error err =>
            rw [haccept] at h
            cases h
  rw [Filter.compile] at h
  split at h
  · cases h
    exact .draft naming []
  · obtain ⟨es, -, h⟩ := exists_of_bind_eq_ok h
    obtain ⟨d, hd, h⟩ := exists_of_bind_eq_ok h
    rw [Draft.finish] at h
    split at h
    · cases h
      rw [← hreplay hd]
      exact .draft naming es
    · cases h

end Built
end Tree

/-! ## One filter, written in several ways -/

theorem Selection.toJson_eq_object_query (s : Selection) : s.toJson = .object s.query := by
  cases s with
  | everything => rfl
  | terms ts =>
      rw [toJson, Json.ofMembers, Members.ofList, List.foldl_map]
      rfl
  | group combinator clauses =>
      rw [toJson, Clause.groupJson, Clause.listJson_eq_map]
      rfl

/-- The conditions and groups that stand side by side at the top of the selection. -/
def Selection.elements : Selection → List Clause
  | everything => []
  | terms ts => ts.map .term
  | group _ clauses => clauses

namespace Node

/-- The clause of a group lists the clauses of the children. -/
theorem IsGroup.clause_eq {n : Node} (h : n.IsGroup) :
    n.clause = .group n.combinator (n.children.map clause) := by
  obtain ⟨id, name, predicate, children⟩ := n
  cases name with
  | field field => exact absurd rfl (h field)
  | unnamed => rw [clause, clauses_eq_map]; rfl
  | combinator c => rw [clause, clauses_eq_map]; rfl

/-- A group is written as its clause, unless it has no children. -/
theorem IsGroup.toJson_eq {n : Node} (h : n.IsGroup) :
    n.toJson = if n.children = [] then .object [] else n.clause.toJson := by
  have hgroup : n.clause.toJson =
      Clause.groupJson n.combinator (Clause.listJson (clauses n.children)) := by
    rw [h.clause_eq, Clause.toJson, clauses_eq_map]
  rw [toJson]
  split
  · next field hfield => exact absurd hfield (h field)
  · rw [hgroup]
    simp only [List.isEmpty_iff]

/-- A condition on a field is written as its clause. -/
theorem toJson_of_not_isGroup {n : Node} (h : ¬ n.IsGroup) : n.toJson = n.clause.toJson := by
  rw [toJson]
  split
  · rfl
  · next hfield => exact absurd (fun field hname => hfield field hname) h

end Node

namespace Tree

variable {t : Tree}

/-- A root without a name stands for its only child. -/
theorem toJson_selection_of_only {only : Node} (hname : t.root.name = .unnamed)
    (hchildren : t.root.children = [only]) : t.selection.toJson = only.clause.toJson := by
  rw [selection, hname, hchildren]
  dsimp only
  cases only.clause with
  | term term => rfl
  | group combinator clauses => rfl

theorem selection_of_children (hchildren : t.root.children ≠ [])
    (honly : ¬ (t.root.name = .unnamed ∧ t.root.children.length = 1)) :
    t.selection = .group t.root.combinator (t.root.children.map Node.clause) := by
  rw [selection, ← Node.clauses_eq_map]
  split
  · next hnil => exact absurd hnil hchildren
  · next only hname hone =>
      refine absurd ⟨hname, ?_⟩ honly
      rw [hone]
      rfl
  · rfl

/-- The root as a query document is the selection, but for a root that is not named and has one
child only. -/
theorem rootJson_eq (h : t.root.IsGroup) :
    t.rootJson =
      if t.root.name = .unnamed ∧ t.root.children.length = 1 then
        Clause.groupJson .all [t.selection.toJson]
      else t.selection.toJson := by
  rw [rootJson, h.toJson_eq]
  split
  · next hnil =>
      have hselection : t.selection = .everything := by rw [selection, hnil]
      rw [if_neg (by simp [hnil]), hselection]
      rfl
  · next hchildren =>
      rw [h.clause_eq, Clause.toJson, Clause.listJson_eq_map]
      split
      · next honly =>
          obtain ⟨hname, hlength⟩ := honly
          obtain ⟨only, hone⟩ := List.length_eq_one_iff.mp hlength
          rw [toJson_selection_of_only hname hone, hone, Node.combinator, hname]
          rfl
      · next honly =>
          rw [selection_of_children hchildren honly, Selection.toJson, Clause.listJson_eq_map]

/-- The root as a query matches what the selection does. -/
theorem exists_rootJson_eq_object [SearchEngine] (h : t.root.IsGroup) :
    ∃ q, t.rootJson = .object q ∧
      ∀ d, Document.matchesQuery d q = Document.matchesQuery d t.selection.query := by
  rw [rootJson_eq h, Selection.toJson_eq_object_query]
  split
  · refine ⟨_, rfl, fun d => ?_⟩
    rw [Document.matchesQuery, Document.matchesEntry]
    simp [Document.matchesQuery, Document.matchesAll, Combinator.tag]
  · exact ⟨_, rfl, fun d => rfl⟩

end Tree

/-! ## Selections of a tenant -/

namespace Scoped

/-- The selection is made for the tenant: from a tree, from an identifier or several, or of all that
the tenant has. -/
inductive MadeFor (tenant : Tenant) (naming : Naming) : Scoped → Prop
  | ofTree (t : Tree) : MadeFor tenant naming (ofTree t tenant naming)
  | ofTenant : MadeFor tenant naming (ofTenant tenant naming)
  | ofId (id : String) : MadeFor tenant naming (ofId tenant id naming)
  | ofIds (ids : List String) : MadeFor tenant naming (ofIds tenant ids naming)

variable {tenant : Tenant} {naming : Naming} {s : Scoped}

/-- The condition on the tenant stands last. -/
theorem MadeFor.getLast?_elements (h : s.MadeFor tenant naming) :
    s.selection.elements.getLast? = some (.term (tenantTerm tenant naming)) := by
  cases h with
  | ofTree t =>
      rw [Scoped.ofTree]
      cases t.selection with
      | everything => rfl
      | terms ts => rw [ofSelection, Selection.elements, List.map_append, List.map_singleton,
          List.getLast?_concat]
      | group combinator clauses => exact List.getLast?_concat
  | ofTenant => rfl
  | ofId id => rfl
  | ofIds ids => rfl

/-- No two conditions that stand side by side are on the same field. -/
theorem MadeFor.pairwise_field (h : s.MadeFor tenant naming) (hkey : naming.key ≠ naming.tenant)
    {ts : List Term} (hts : s.selection = .terms ts) :
    ts.Pairwise fun a b => a.field ≠ b.field := by
  cases h with
  | ofTree t =>
      rw [Scoped.ofTree] at hts
      cases hshape : t.selection with
      | everything =>
          rw [hshape] at hts
          cases hts
          exact List.pairwise_singleton _ _
      | terms us =>
          obtain ⟨u, rfl⟩ := t.eq_singleton_of_selection_eq_terms hshape
          rw [hshape] at hts
          cases hts
          refine List.pairwise_append.mpr ⟨?_, List.pairwise_singleton _ _, ?_⟩
          · exact (List.pairwise_singleton _ u).filter _
          · intro a ha b hb
            cases List.mem_singleton.mp hb
            exact of_decide_eq_true (List.mem_filter.mp ha).2
      | group combinator clauses =>
          rw [hshape] at hts
          cases hts
  | ofTenant =>
      cases hts
      exact List.pairwise_singleton _ _
  | ofId id =>
      cases hts
      exact List.pairwise_pair.mpr hkey
  | ofIds ids => cases hts

end Scoped

/-- All ways to write a filter as a query document agree. The tree of a filter text is built, and so
are trees that grow node by node. The root of such a tree is written as the selection of the tree,
or as a group of it if it is not named and has one child only, and it matches the same documents.
Every other node is found by its number, and below a group it is written as what the group lists for
it, unless it is a group without children: that puts no condition, while its parent lists an empty
group. The selection of a tenant is written as its query. The condition on the tenant stands last in
it, and conditions side by side are on different fields, so the query keeps all of them. -/
theorem Filter.renderings_agree [SearchEngine] :
    (∀ (parser : FilterParser) (naming : Naming) (text : String) (t : Tree),
      Filter.compile parser naming text = .ok t → t.Built) ∧
    (∀ t : Tree, t.Built →
      (t.rootJson =
          if t.root.name = .unnamed ∧ t.root.children.length = 1 then
            Clause.groupJson .all [t.selection.toJson]
          else t.selection.toJson) ∧
        (∃ q, t.rootJson = .object q ∧
          ∀ d, Document.matchesQuery d q = Document.matchesQuery d t.selection.query) ∧
        ∀ parent ∈ t.root.preorder, parent.IsGroup →
          parent.clause = .group parent.combinator (parent.children.map Node.clause) ∧
            ∀ n ∈ parent.children, t.find? n.id = some n ∧
              (n.IsGroup ∧ n.children = [] →
                n.toJson = .object [] ∧ n.clause.toJson = Clause.groupJson n.combinator []) ∧
              (¬ (n.IsGroup ∧ n.children = []) → n.toJson = n.clause.toJson)) ∧
    ∀ (tenant : Tenant) (naming : Naming), naming.key ≠ naming.tenant →
      ∀ s : Scoped, s.MadeFor tenant naming →
        s.selection.toJson = .object s.query ∧
          (∀ ts, s.selection = .terms ts →
            (ts.Pairwise fun a b => a.field ≠ b.field) ∧
              s.query.Perm (ts.map fun t => (t.field, t.predicate.toJson))) ∧
          s.selection ≠ .everything ∧
          s.selection.elements.getLast? = some (.term (Scoped.tenantTerm tenant naming)) := by
  refine ⟨fun _ _ _ _ => .of_compile, fun t ht => ?_, fun tenant naming hkey s hs => ?_⟩
  · refine ⟨Tree.rootJson_eq ht.root, Tree.exists_rootJson_eq_object ht.root, ?_⟩
    intro parent hparent hgroup
    refine ⟨hgroup.clause_eq, fun n hn => ⟨?_, ?_, ?_⟩⟩
    · exact ht.find?_eq_some (Node.mem_preorder_of_mem_children hparent hn)
    · rintro ⟨hn, hnil⟩
      rw [hn.toJson_eq, if_pos hnil, hn.clause_eq, hnil]
      exact ⟨rfl, rfl⟩
    · intro h
      by_cases hn : n.IsGroup
      · rw [hn.toJson_eq, if_neg fun hnil => h ⟨hn, hnil⟩]
      · exact Node.toJson_of_not_isGroup hn
  · refine ⟨s.selection.toJson_eq_object_query, fun ts hts => ?_, ?_, hs.getLast?_elements⟩
    · have hfields := hs.pairwise_field hkey hts
      refine ⟨hfields, ?_⟩
      rw [Scoped.query, hts, Selection.query]
      have hnames : (ts.map fun t => (t.field, t.predicate.toJson)).Pairwise fun p q => p.1 ≠ q.1 :=
        List.pairwise_map.mpr hfields
      have hperm := Members.perm_ofList hnames
      rwa [Members.ofList, List.foldl_map] at hperm
    · intro heverything
      have hlast := hs.getLast?_elements
      rw [heverything] at hlast
      cases hlast

/-- A root that is not named and has a field as its only child is written as a group, and its
selection as the condition alone. With a tenant, the conditions on the key and on the tenant are
both kept. -/
theorem Filter.renderings_agree_only_child :
    let t := Tree.empty.addNode 0 (.field "age") none
    let s := Scoped.ofId ⟨"acme", by decide⟩ "7" .document
    (t.Built ∧ t.root.name = .unnamed ∧ t.root.children.length = 1) ∧
      t.rootJson = .object [("$and", .array [.object [("age", .null)]])] ∧
      t.selection.toJson = .object [("age", .null)] ∧
      s.query.length = 2 := by
  intro t s
  have ht : t.Built := .addNode (.draft .document []) (by decide) _
  have hs : s.MadeFor ⟨"acme", by decide⟩ .document := .ofId "7"
  obtain ⟨hroot, -⟩ := Filter.renderings_agree.2.1 t ht
  obtain ⟨-, hterms, -⟩ := Filter.renderings_agree.2.2 _ .document (by decide) s hs
  refine ⟨⟨ht, rfl, rfl⟩, ?_, rfl, ?_⟩
  · rw [hroot, if_pos ⟨rfl, rfl⟩]
    rfl
  · exact (hterms _ rfl).2.length_eq

end TenantStore
