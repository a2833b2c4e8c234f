import TenantStore.Filter.Event
import TenantStore.Proofs.Filter.Spine

/-!
# Trees that list events

Every event that is accepted adds one node to a tree, or none if it ends a group; a group that
starts first takes over the root. `Tree.Lists` says that the nodes of a tree in order are the nodes
of some events in order. An event more is a node more, as long as the node is added at the end of
the way down along last children (`Tree.Lists.addNode`).
-/

namespace TenantStore

namespace FilterEvent

/-- A group starts. -/
def isStart : FilterEvent → Bool
  | groupStart _ => true
  | _ => false

/-- A group ends. -/
def isEnd : FilterEvent → Bool
  | groupEnd => true
  | _ => false

/-- The condition that a comparison puts on a field of a backend. -/
def term? (naming : Naming) : FilterEvent → Option Term
  | comparison field operator operand =>
    some ⟨naming.native field, Predicate.ofComparison operator operand⟩
  | _ => none

/-- The label of the node that an event adds. -/
def label? (naming : Naming) : FilterEvent → Option (NodeName × Option Predicate)
  | groupStart combinator => some (.combinator combinator, none)
  | groupEnd => none
  | comparison field operator operand =>
    some (.field (naming.native field), some (Predicate.ofComparison operator operand))

theorem bind_label?_termOf (naming : Naming) (e : FilterEvent) :
    (e.label? naming).bind Node.termOf = e.term? naming := by
  cases e <;> rfl

/-- The node of an event is a condition on a field or a group. -/
theorem label?_cases {naming : Naming} {e : FilterEvent} {l : NodeName × Option Predicate}
    (h : e.label? naming = some l) :
    (∃ field predicate, l = (.field field, some predicate)) ∨
      ∃ combinator, l = (.combinator combinator, none) := by
  cases e with
  | groupStart combinator => exact .inr ⟨combinator, (Option.some.inj h).symm⟩
  | groupEnd => cases h
  | comparison field operator operand => exact .inl ⟨_, _, (Option.some.inj h).symm⟩

/-- The name of the root after events: a group that starts first takes over the root. -/
def rootName (es : List FilterEvent) : NodeName :=
  match es.head? with
  | some (groupStart combinator) => .combinator combinator
  | _ => .unnamed

/-- The events that add nodes behind the root. -/
def behindRoot : List FilterEvent → List FilterEvent
  | groupStart _ :: es => es
  | es => es

/-- The labels of all nodes after events, in the order of the events. -/
def labels (naming : Naming) (es : List FilterEvent) : List (NodeName × Option Predicate) :=
  (rootName es, none) :: (behindRoot es).filterMap (label? naming)

variable {naming : Naming} {es : List FilterEvent}

theorem rootName_ne_field (field : String) : rootName es ≠ .field field := by
  unfold rootName
  split <;> nofun

theorem rootName_append (h : es ≠ []) (others : List FilterEvent) :
    rootName (es ++ others) = rootName es := by
  cases es with
  | nil => exact absurd rfl h
  | cons e es => rfl

theorem behindRoot_append (h : es ≠ []) (others : List FilterEvent) :
    behindRoot (es ++ others) = behindRoot es ++ others := by
  cases es with
  | nil => exact absurd rfl h
  | cons e es => cases e <;> rfl

/-- What the first event of a list adds stands behind the root, unless it takes over the root. -/
theorem label?_mem_labels {first : FilterEvent} (h : es.head? = some first)
    (hroot : rootName es = .unnamed) {l : NodeName × Option Predicate}
    (hl : first.label? naming = some l) : l ∈ (behindRoot es).filterMap (label? naming) := by
  cases es with
  | nil => cases h
  | cons e es =>
      cases h
      cases first with
      | groupStart combinator => cases hroot
      | groupEnd => cases hl
      | comparison field operator operand =>
          exact List.mem_filterMap.mpr ⟨_, List.mem_cons_self, hl⟩

theorem mem_of_mem_behindRoot {e : FilterEvent} (h : e ∈ behindRoot es) : e ∈ es := by
  unfold behindRoot at h
  split at h
  · exact List.mem_cons_of_mem _ h
  · exact h

/-- Every event adds its own label, unless it takes over the root. -/
theorem labels_append {e : FilterEvent} (h : es ≠ [] ∨ e.isStart = false) :
    labels naming (es ++ [e]) = labels naming es ++ (e.label? naming).toList := by
  have hone : [e].filterMap (label? naming) = (e.label? naming).toList := by
    cases h : e.label? naming <;> simp [h]
  by_cases hes : es = []
  · have hstart : e.isStart = false := h.resolve_left fun hne => hne hes
    subst hes
    cases e with
    | groupStart combinator => cases hstart
    | groupEnd => rfl
    | comparison field operator operand => rfl
  · rw [labels, labels, rootName_append hes, behindRoot_append hes, List.filterMap_append, hone,
      List.cons_append]

/-- The labels say the conditions of all comparisons, in order. -/
theorem filterMap_termOf_labels :
    (labels naming es).filterMap Node.termOf = es.filterMap (term? naming) := by
  have hroot : Node.termOf (rootName es, none) = none := by
    unfold rootName
    split <;> rfl
  have hbehind : (behindRoot es).filterMap (term? naming) = es.filterMap (term? naming) := by
    unfold behindRoot
    split <;> rfl
  rw [labels, List.filterMap_cons_none hroot, List.filterMap_filterMap, ← hbehind]
  exact List.filterMap_congr fun e _ => bind_label?_termOf naming e

end FilterEvent

/-! ## Trees of events -/

open FilterEvent (labels rootName behindRoot)

/-- The tree has a node for each event of a list that adds one, numbered in order. -/
structure Tree.Lists (naming : Naming) (es : List FilterEvent) (t : Tree) : Prop where
  numbers : t.root.preorder.map Node.id = List.range t.size
  labels : t.root.preorder.map Node.label = labels naming es
  fields : t.root.FieldsAreLeaves

namespace Tree.Lists

variable {naming : Naming} {es : List FilterEvent} {t : Tree}

theorem nodup (h : t.Lists naming es) : (t.root.preorder.map Node.id).Nodup :=
  h.numbers ▸ List.nodup_range

/-- The first node is the root, and the others are those of events. -/
theorem label_root (h : t.Lists naming es) :
    t.root.label = (rootName es, none) ∧
      (Node.preorderList t.root.children).map Node.label =
        (behindRoot es).filterMap (FilterEvent.label? naming) := by
  have hlabels := h.labels
  cases hroot : t.root with
  | mk id name predicate children =>
      rw [hroot, Node.preorder, List.map_cons] at hlabels
      exact List.cons.inj hlabels

theorem mem_preorder (h : t.Lists naming es) {m : Node} (hm : m ∈ t.root.preorder) :
    m = t.root ∨ ∃ e ∈ es, e.label? naming = some m.label := by
  have hbehind := h.label_root.2
  cases hroot : t.root with
  | mk id name predicate children =>
      rw [hroot, Node.preorder, List.mem_cons] at hm
      rw [hroot, Node.children] at hbehind
      refine hm.imp_right fun hm => ?_
      have hlabel := List.mem_map_of_mem (f := Node.label) hm
      rw [hbehind] at hlabel
      obtain ⟨e, he, hl⟩ := List.mem_filterMap.mp hlabel
      exact ⟨e, FilterEvent.mem_of_mem_behindRoot he, hl⟩

theorem id_root (h : t.Lists naming es) : t.root.id = 0 := by
  have hnumbers := h.numbers
  cases hroot : t.root with
  | mk id name predicate children =>
      rw [hroot, Node.preorder, List.map_cons] at hnumbers
      cases hsize : t.size with
      | zero => rw [hsize] at hnumbers; cases hnumbers
      | succ n =>
          rw [hsize, List.range_succ_eq_map] at hnumbers
          exact (List.cons.inj hnumbers).1

theorem isGroup_root (h : t.Lists naming es) : t.root.IsGroup := by
  intro field hfield
  have hroot : t.root.name = rootName es := congrArg Prod.fst h.label_root.1
  exact FilterEvent.rootName_ne_field field (hroot.symm.trans hfield)

/-- A node is a condition on a field, with a predicate and without children, or a group that has
none, and only the root is not named. -/
theorem classify (h : t.Lists naming es) {m : Node} (hm : m ∈ t.root.preorder) :
    (∃ field predicate, m.name = .field field ∧ m.predicate = some predicate ∧ m.children = []) ∨
      (∃ combinator, m.name = .combinator combinator ∧ m.predicate = none) ∨
        m = t.root ∧ m.name = .unnamed ∧ m.predicate = none := by
  rcases h.mem_preorder hm with rfl | ⟨e, -, hl⟩
  · have hpredicate : t.root.predicate = none := congrArg Prod.snd h.label_root.1
    cases hname : t.root.name with
    | unnamed => exact .inr (.inr ⟨rfl, rfl, hpredicate⟩)
    | combinator c => exact .inr (.inl ⟨c, rfl, hpredicate⟩)
    | field field => exact absurd hname (h.isGroup_root field)
  · rcases FilterEvent.label?_cases hl with ⟨field, predicate, hlabel⟩ | ⟨combinator, hlabel⟩
    · have hname : m.name = .field field := congrArg Prod.fst hlabel
      exact .inl ⟨field, predicate, hname, congrArg Prod.snd hlabel, h.fields m hm field hname⟩
    · exact .inr (.inl ⟨combinator, congrArg Prod.fst hlabel, congrArg Prod.snd hlabel⟩)

/-- Only the root may have no name. -/
theorem eq_root_of_unnamed (h : t.Lists naming es) {m : Node} (hm : m ∈ t.root.preorder)
    (hname : m.name = .unnamed) : m = t.root := by
  rcases h.classify hm with ⟨field, -, hfield, -⟩ | ⟨combinator, hcombinator, -⟩ | ⟨hroot, -⟩
  · rw [hname] at hfield
    cases hfield
  · rw [hname] at hcombinator
    cases hcombinator
  · exact hroot

/-- A root without a name has children if there was any event. -/
theorem children_ne_nil (h : t.Lists naming es) (hes : es ≠ [])
    (hhead : es.head? ≠ some .groupEnd) {m : Node} (hm : m ∈ t.root.preorder)
    (hname : m.name = .unnamed) : m.children ≠ [] := by
  cases h.eq_root_of_unnamed hm hname
  intro hnil
  obtain ⟨hlabel, hbehind⟩ := h.label_root
  have hroot : rootName es = .unnamed := (congrArg Prod.fst hlabel).symm.trans hname
  rw [hnil] at hbehind
  obtain ⟨first, hfirst⟩ := Option.ne_none_iff_exists'.mp (mt List.head?_eq_none_iff.mp hes)
  -- The first event adds no node at all, so it ends a group, which no first event does.
  have hnone : ∀ l, first.label? naming ≠ some l := by
    intro l hl
    have hmem := FilterEvent.label?_mem_labels hfirst hroot hl
    rw [← hbehind] at hmem
    exact nomatch hmem
  cases first with
  | groupStart combinator => exact hnone _ rfl
  | groupEnd => exact hhead hfirst
  | comparison field operator operand => exact hnone _ rfl

/-- A node that is added at the end of the way down along last children is listed last. -/
theorem addNode (h : t.Lists naming es) {path : List Nat} (hpath : Node.Spine path t.root)
    {parent : Nat} (hlast : path.getLast? = some parent) {e : FilterEvent}
    (hes : es ≠ [] ∨ e.isStart = false) {name : NodeName} {predicate : Option Predicate}
    (hlabel : e.label? naming = some (name, predicate)) :
    (t.addNode parent name predicate).Lists naming (es ++ [e]) := by
  have hgrows := hpath.grows h.nodup hlast (.leaf t.size name predicate)
  refine ⟨?_, ?_, hgrows.fieldsAreLeaves h.fields ?_⟩
  · rw [Tree.addNode, hgrows.map_preorder fun _ _ _ _ _ => rfl, h.numbers, List.range_succ]
    rfl
  · rw [Tree.addNode, hgrows.map_preorder fun _ _ _ _ _ => rfl, h.labels,
      FilterEvent.labels_append hes, hlabel]
    rfl
  · intro m hm field _
    cases List.mem_singleton.mp hm
    rfl

/-- The conditions of the tree from left to right are the comparisons in order. -/
theorem terms_clause (h : t.Lists naming es) :
    t.root.clause.terms = es.filterMap (FilterEvent.term? naming) := by
  rw [Node.terms_clause t.root h.fields, ← FilterEvent.filterMap_termOf_labels, ← h.labels,
    List.filterMap_map]
  rfl

end Tree.Lists

/-- Bringing a tree into the shape of a selection keeps its conditions and their order. -/
theorem Tree.allTerms_selection {t : Tree} (h : t.root.IsGroup) :
    t.selection.allTerms = t.root.clause.terms := by
  obtain ⟨⟨id, name, predicate, children⟩, size⟩ := t
  have hterms : (Node.mk id name predicate children).clause.terms =
      Clause.listTerms (Node.clauses children) := by
    cases name with
    | field field => exact absurd rfl (h field)
    | unnamed => rfl
    | combinator c => rfl
  rw [hterms]
  unfold Tree.selection
  split
  · rename_i hnil
    have hnil : children = [] := hnil
    rw [hnil]
    rfl
  · rename_i only _ hone
    have hone : children = [only] := hone
    rw [hone, Node.clauses, Node.clauses, Clause.listTerms, Clause.listTerms, List.append_nil]
    split <;> rename_i hclause <;> rw [hclause] <;> rfl
  · rfl

end TenantStore
