import Mathlib.Data.List.Chain
import Mathlib.Data.List.Nodup
import TenantStore.Proofs.Filter.Change

/-!
# The right edge of a filter tree

A tree that only grows at its right edge shows the order in which it grew. `Node.Spine` is a way
from a node down along last children, `Node.Grows` says that a node adopts another one at the end of
such a way. The adopted node then stands behind all others (`Node.Grows.map_preorder`), and the way
still leads down along last children, to the adopted node as well if that is a group
(`Node.Grows.spine`, `Node.Grows.spine_append`).

The rest of the module reads a tree off its nodes in order: when the numbers of the nodes differ,
every node but the first is a child of exactly one node (`Node.exists_parent`), and when
conditions have no children, the conditions of the clause are those of the nodes
(`Node.terms_clause`).
-/

namespace TenantStore.Node

/-- The node is no condition on a field. -/
def IsGroup (n : Node) : Prop :=
  ∀ field, n.name ≠ .field field

/-- What the node says apart from its number and its children. -/
def label (n : Node) : NodeName × Option Predicate :=
  (n.name, n.predicate)

/-- Conditions on fields have no children. -/
def FieldsAreLeaves (n : Node) : Prop :=
  ∀ m ∈ n.preorder, ∀ field, m.name = .field field → m.children = []

theorem preorderList_append (ns ms : List Node) :
    preorderList (ns ++ ms) = preorderList ns ++ preorderList ms := by
  rw [preorderList_eq_flatMap, preorderList_eq_flatMap, preorderList_eq_flatMap,
    List.flatMap_append]

/-- The last child comes last. -/
theorem preorder_mk_append (id : Nat) (name : NodeName) (predicate : Option Predicate)
    (before : List Node) (child : Node) :
    (mk id name predicate (before ++ [child])).preorder =
      mk id name predicate (before ++ [child]) :: (preorderList before ++ child.preorder) := by
  rw [preorder, preorderList_append, preorderList, preorderList, List.append_nil]

theorem mem_preorder_self (n : Node) : n ∈ n.preorder := by
  cases n
  exact List.mem_cons_self

/-- When the numbers of the nodes differ, a node is found by its number. -/
theorem find?_eq_some {n m : Node} (hnodup : (n.preorder.map Node.id).Nodup)
    (hm : m ∈ n.preorder) : n.find? m.id = some m := by
  unfold find?
  cases hfind : n.preorder.find? fun k => k.id = m.id with
  | none => exact absurd (decide_eq_true rfl) (List.find?_eq_none.mp hfind m hm)
  | some k =>
      have hid : k.id = m.id := by simpa using List.find?_some hfind
      rw [List.inj_on_of_nodup_map hnodup (List.mem_of_find?_eq_some hfind) hm hid]

/-! ## The way down along last children -/

/-- The numbers on the way from a node down along last children to a group. -/
inductive Spine : List Nat → Node → Prop
  | single {id : Nat} {name : NodeName} {predicate : Option Predicate} {children : List Node}
    (hgroup : ∀ field, name ≠ .field field) : Spine [id] (mk id name predicate children)
  | cons {id : Nat} {name : NodeName} {predicate : Option Predicate} {before : List Node}
    {child : Node} {path : List Nat} (hgroup : ∀ field, name ≠ .field field)
    (hpath : Spine path child) : Spine (id :: path) (mk id name predicate (before ++ [child]))

namespace Spine

variable {path : List Nat} {n : Node}

theorem head?_eq (h : Spine path n) : path.head? = some n.id := by
  cases h <;> rfl

theorem ne_nil (h : Spine path n) : path ≠ [] := by
  cases h <;> exact List.cons_ne_nil _ _

/-- Every number on the way is that of a group. -/
theorem exists_mem (h : Spine path n) {i : Nat} (hi : i ∈ path) :
    ∃ m ∈ n.preorder, m.id = i ∧ m.IsGroup := by
  induction h with
  | single hgroup =>
      cases List.mem_singleton.mp hi
      exact ⟨_, mem_preorder_self _, rfl, hgroup⟩
  | cons hgroup hpath ih =>
      rcases List.mem_cons.mp hi with rfl | hi
      · exact ⟨_, mem_preorder_self _, rfl, hgroup⟩
      · obtain ⟨m, hm, hid, hname⟩ := ih hi
        refine ⟨m, ?_, hid, hname⟩
        rw [preorder_mk_append]
        exact List.mem_cons_of_mem _ (List.mem_append_right _ hm)

/-- A way may end earlier. -/
theorem of_append {x : Nat} (h : Spine (path ++ [x]) n) (hpath : path ≠ []) : Spine path n := by
  induction path generalizing n with
  | nil => exact absurd rfl hpath
  | cons i rest ih =>
      cases rest with
      | nil =>
          cases h with
          | cons hgroup hrest => exact .single hgroup
      | cons j rest =>
          cases h with
          | cons hgroup hrest => exact .cons hgroup (ih hrest (List.cons_ne_nil _ _))

/-- Each number on the way is that of the last child of the node before. -/
theorem isChain (h : Spine path n) :
    path.IsChain fun outer inner =>
      ∃ m ∈ n.preorder, m.id = outer ∧ m.children.getLast?.map Node.id = some inner := by
  induction h with
  | single hgroup => exact List.isChain_singleton _
  | @cons id name predicate before child path hgroup hpath ih =>
      refine List.isChain_cons.mpr ⟨?_, ih.imp ?_⟩
      · intro inner hinner
        rw [hpath.head?_eq] at hinner
        cases hinner
        refine ⟨_, mem_preorder_self _, rfl, ?_⟩
        rw [children, List.getLast?_concat]
        rfl
      · rintro outer inner ⟨m, hm, hid, hlast⟩
        refine ⟨m, ?_, hid, hlast⟩
        rw [preorder_mk_append]
        exact List.mem_cons_of_mem _ (List.mem_append_right _ hm)

end Spine

/-! ## Growth at the end of the way -/

/-- A node, and the same node with a new one adopted at the end of a way down along last children.
-/
inductive Grows (new : Node) : List Nat → Node → Node → Prop
  | single {id : Nat} {name : NodeName} {predicate : Option Predicate} {children : List Node}
    (hgroup : ∀ field, name ≠ .field field) :
    Grows new [id] (mk id name predicate children) (mk id name predicate (children ++ [new]))
  | cons {id : Nat} {name : NodeName} {predicate : Option Predicate} {before : List Node}
    {child grown : Node} {path : List Nat} (hgroup : ∀ field, name ≠ .field field)
    (hpath : Grows new path child grown) :
    Grows new (id :: path) (mk id name predicate (before ++ [child]))
      (mk id name predicate (before ++ [grown]))

/-- When the numbers of the nodes differ, an adoption at the number at the end of the way changes
nothing beside the way. -/
theorem Spine.grows {path : List Nat} {n : Node} (h : Spine path n)
    (hnodup : (n.preorder.map Node.id).Nodup) {target : Nat} (hlast : path.getLast? = some target)
    (new : Node) : Grows new path n (n.modify target (adopt new)) := by
  induction h with
  | single hgroup =>
      rw [List.getLast?_singleton] at hlast
      cases hlast
      rw [modify, if_pos rfl]
      exact .single hgroup
  | @cons id name predicate before child path hgroup hpath ih =>
      have htarget : path.getLast? = some target := by
        rw [← hlast, List.getLast?_cons_of_ne_nil hpath.ne_nil]
      obtain ⟨m, hm, hid, -⟩ := hpath.exists_mem (List.mem_of_getLast? htarget)
      have hmem : target ∈ child.preorder.map Node.id := hid ▸ List.mem_map_of_mem hm
      rw [preorder_mk_append, List.map_cons, List.map_append, List.nodup_cons,
        List.nodup_append] at hnodup
      obtain ⟨hnew, -, hchild, hdisjoint⟩ := hnodup
      -- The end of the way lies below the last child, and so neither beside it nor above it.
      have hbefore : ∀ k ∈ preorderList before, k.id ≠ target :=
        fun k hk => hdisjoint k.id (List.mem_map_of_mem hk) target hmem
      have hroot : id ≠ target := by
        rintro rfl
        exact hnew (List.mem_append_right _ hmem)
      rw [modify, if_neg hroot, modifyList_append, modifyList_of_forall_ne before hbefore,
        modifyList, modifyList]
      exact .cons hgroup (ih hchild htarget)

namespace Grows

variable {new n grown : Node} {path : List Nat}

theorem spine (h : Grows new path n grown) : Spine path grown := by
  induction h with
  | single hgroup => exact .single hgroup
  | cons hgroup hpath ih => exact .cons hgroup ih

/-- The way leads on to an adopted group. -/
theorem spine_append (h : Grows new path n grown) (hnew : new.IsGroup) :
    Spine (path ++ [new.id]) grown := by
  induction h with
  | single hgroup =>
      cases new
      exact .cons hgroup (.single hnew)
  | cons hgroup hpath ih => exact .cons hgroup ih

/-- The adopted nodes stand behind all others, which say the same as before. -/
theorem map_preorder {β : Type} {g : Node → β}
    (hg : ∀ id name predicate cs cs', g (mk id name predicate cs) = g (mk id name predicate cs'))
    (h : Grows new path n grown) :
    grown.preorder.map g = n.preorder.map g ++ new.preorder.map g := by
  induction h with
  | @single id name predicate children hgroup =>
      rw [preorder_mk_append, preorder, List.map_cons, List.map_append, List.map_cons,
        List.cons_append, hg id name predicate _ children]
  | @cons id name predicate before child grown path hgroup hpath ih =>
      rw [preorder_mk_append, preorder_mk_append, List.map_cons, List.map_append, ih,
        List.map_cons, List.map_append, List.cons_append, List.append_assoc,
        hg id name predicate _ (before ++ [child])]

theorem fieldsAreLeaves (h : Grows new path n grown) (hn : n.FieldsAreLeaves)
    (hnew : new.FieldsAreLeaves) : grown.FieldsAreLeaves := by
  induction h with
  | @single id name predicate children hgroup =>
      intro m hm field hfield
      rw [preorder_mk_append, List.mem_cons, List.mem_append] at hm
      rcases hm with rfl | hm | hm
      · exact absurd hfield (hgroup field)
      · exact hn m (List.mem_cons_of_mem _ hm) field hfield
      · exact hnew m hm field hfield
  | @cons id name predicate before child grown path hgroup hpath ih =>
      have hold : ∀ m ∈ preorderList before ++ child.preorder, ∀ field, m.name = .field field →
          m.children = [] := by
        intro m hm
        refine hn m ?_
        rw [preorder_mk_append]
        exact List.mem_cons_of_mem _ hm
      have hgrown := ih fun m hm => hold m (List.mem_append_right _ hm)
      intro m hm field hfield
      rw [preorder_mk_append, List.mem_cons, List.mem_append] at hm
      rcases hm with rfl | hm | hm
      · exact absurd hfield (hgroup field)
      · exact hold m (List.mem_append_left _ hm) field hfield
      · exact hgrown m hm field hfield

end Grows

/-! ## Parents -/

mutual

/-- The subtree of a node stands together in the nodes of the tree. -/
theorem preorder_sublist {m : Node} : (n : Node) → m ∈ n.preorder →
    m.preorder.Sublist n.preorder
  | mk id name predicate children, h => by
      rw [preorder, List.mem_cons] at h
      rcases h with rfl | h
      · exact List.Sublist.refl _
      · rw [preorder.eq_def (mk id name predicate children)]
        exact (preorder_sublist_preorderList children h).trans (List.sublist_cons_self _ _)

/-- The subtree of a node stands together in the nodes of the trees. -/
theorem preorder_sublist_preorderList {m : Node} : (ns : List Node) → m ∈ preorderList ns →
    m.preorder.Sublist (preorderList ns)
  | [], h => nomatch h
  | n :: ns, h => by
      rw [preorderList, List.mem_append] at h
      rw [preorderList]
      rcases h with h | h
      · exact (preorder_sublist n h).trans (List.sublist_append_left _ _)
      · exact (preorder_sublist_preorderList ns h).trans (List.sublist_append_right _ _)

end

/-- When numbers grow from node to node, a child has a greater number than its parent. -/
theorem id_lt_id_of_mem_children {n : Node} (h : (n.preorder.map Node.id).Pairwise (· < ·))
    {p c : Node} (hp : p ∈ n.preorder) (hc : c ∈ p.children) : p.id < c.id := by
  have hsub := (h.sublist ((preorder_sublist n hp).map Node.id))
  cases p with
  | mk id name predicate children =>
      rw [preorder, List.map_cons, List.pairwise_cons] at hsub
      refine hsub.1 c.id (List.mem_map_of_mem ?_)
      rw [preorderList_eq_flatMap]
      exact List.mem_flatMap.mpr ⟨c, hc, mem_preorder_self c⟩

mutual

/-- The numbers of a node and of all children below it are those of the nodes. -/
theorem perm_childNumbers : (n : Node) →
    (n.id :: n.preorder.flatMap fun p => p.children.map Node.id).Perm (n.preorder.map Node.id)
  | mk id name predicate children => by
      rw [preorder, List.flatMap_cons, List.map_cons]
      exact (perm_listChildNumbers children).cons _

/-- The numbers of nodes and of all children below them are those of the nodes of the trees. -/
theorem perm_listChildNumbers : (ns : List Node) →
    (ns.map Node.id ++ (preorderList ns).flatMap fun p => p.children.map Node.id).Perm
      ((preorderList ns).map Node.id)
  | [] => List.Perm.refl _
  | n :: ns => by
      rw [preorderList, List.map_append, List.flatMap_append, List.map_cons, List.cons_append]
      refine .trans ?_ ((perm_childNumbers n).append (perm_listChildNumbers ns))
      exact (List.perm_append_comm_assoc _ _ _).cons _

end

/-- When the numbers of the nodes differ, every number but that of the first node is the number of
one child of one node, and of no other. -/
theorem exists_parent {n : Node} (hnodup : (n.preorder.map Node.id).Nodup) {i : Nat}
    (hi : i ∈ n.preorder.map Node.id) (hroot : i ≠ n.id) :
    ∃ p ∈ n.preorder, (p.children.map Node.id).count i = 1 ∧
      ∀ q ∈ n.preorder, i ∈ q.children.map Node.id → q = p := by
  -- Every number but the first is counted once among the numbers of all children.
  have hperm := perm_childNumbers n
  have hchildren := (List.nodup_cons.mp (hperm.nodup_iff.mpr hnodup)).2
  obtain ⟨hcounts, hdisjoint⟩ := List.nodup_flatMap.mp hchildren
  have hmem := (List.mem_cons.mp (hperm.mem_iff.mpr hi)).resolve_left hroot
  obtain ⟨p, hp, hip⟩ := List.mem_flatMap.mp hmem
  refine ⟨p, hp, List.count_eq_one_of_mem (hcounts p hp) hip, fun q hq hiq => ?_⟩
  have hsymm : Std.Symm (Function.onFun List.Disjoint fun p : Node => p.children.map Node.id) :=
    ⟨fun _ _ h _ hp hq => h hq hp⟩
  by_contra hne
  exact hdisjoint.forall hq hp hne hiq hip

/-! ## Conditions in order -/

/-- The condition that a label stands for. -/
def termOf : NodeName × Option Predicate → Option Term
  | (.field name, predicate) => some ⟨name, predicate.getD (.eq .null)⟩
  | _ => none

mutual

/-- The conditions of the clause are those of the nodes in order. -/
theorem terms_clause : (n : Node) → n.FieldsAreLeaves →
    n.clause.terms = n.preorder.filterMap fun m => termOf m.label
  | mk id name predicate children, h => by
      have hchildren : ∀ m ∈ preorderList children, ∀ field, m.name = .field field →
          m.children = [] := fun m hm => h m (List.mem_cons_of_mem _ hm)
      cases name with
      | field name =>
          have hleaf : children = [] := h _ (mem_preorder_self _) name rfl
          subst hleaf
          rfl
      | unnamed =>
          rw [clause, Clause.terms, terms_clauses children hchildren]
          rfl
      | combinator c =>
          rw [clause, Clause.terms, terms_clauses children hchildren]
          rfl

/-- The conditions of the clauses are those of the nodes in order. -/
theorem terms_clauses : (ns : List Node) →
    (∀ m ∈ preorderList ns, ∀ field, m.name = .field field → m.children = []) →
      Clause.listTerms (clauses ns) = (preorderList ns).filterMap fun m => termOf m.label
  | [], _ => rfl
  | n :: ns, h => by
      rw [clauses, Clause.listTerms, preorderList, List.filterMap_append,
        terms_clause n fun m hm => h m (List.mem_append_left _ hm),
        terms_clauses ns fun m hm => h m (List.mem_append_right _ hm)]

end

end TenantStore.Node
