import TenantStore.Filter.Draft
import TenantStore.Proofs.Filter.Change

/-!
# From expressions to filter trees

The tree of a stream of events is known in advance when the stream reports expressions one after the
other: `Expr.tree` numbers their nodes in the order of the text and lets a group in front of all
others take over the root. `Filter.ofEvents` builds exactly this tree.

The proof follows a draft through the events of one expression. Once a draft is `Settled`, the nodes
of an expression go under the current node and nothing else changes (`replay_listEvents`), however
deep the current node is and whatever stands elsewhere in the tree. What carries the induction is
that nodes get new numbers: a change to a node with a new number changes no old node
(`Node.modify_adoptAll_of_forall_ne`).
-/

namespace TenantStore

/-! ## The tree of expressions -/

namespace Expr

mutual

/-- Every comparison names a field. -/
def isNamed : Expr → Bool
  | comparison field _ _ => !Text.isBlank field
  | group _ members => listIsNamed members

/-- Every comparison in the expressions names a field. -/
def listIsNamed : List Expr → Bool
  | [] => true
  | e :: es => isNamed e && listIsNamed es

end

mutual

/-- The number of nodes of an expression. -/
def nodeCount : Expr → Nat
  | comparison .. => 1
  | group _ members => 1 + listNodeCount members

/-- The number of nodes of expressions. -/
def listNodeCount : List Expr → Nat
  | [] => 0
  | e :: es => nodeCount e + listNodeCount es

end

mutual

/-- The node of an expression, with numbers from `next` on. -/
def node (naming : Naming) (next : Nat) : Expr → Node
  | comparison field operator operand =>
    .leaf next (.field (naming.native field)) (some (Predicate.ofComparison operator operand))
  | group combinator members =>
    .mk next (.combinator combinator) none (nodes naming (next + 1) members)

/-- The nodes of expressions side by side, with numbers from `next` on. -/
def nodes (naming : Naming) (next : Nat) : List Expr → List Node
  | [] => []
  | e :: es => node naming next e :: nodes naming (next + nodeCount e) es

end

/-- The combinator that the root of a tree is given, if any, and the expressions under it: a group
in front of all others is the root itself. -/
def rootParts : List Expr → Option Combinator × List Expr
  | group combinator members :: es => (some combinator, members ++ es)
  | es => (none, es)

/-- The name of a root that was given a combinator or none. -/
def rootName : Option Combinator → NodeName
  | some combinator => .combinator combinator
  | none => .unnamed

/-- The tree of expressions that follow one another. -/
def tree (naming : Naming) (es : List Expr) : Tree :=
  ⟨.mk 0 (rootName (rootParts es).1) none (nodes naming 1 (rootParts es).2),
    1 + listNodeCount (rootParts es).2⟩

theorem listNodeCount_append (es fs : List Expr) :
    listNodeCount (es ++ fs) = listNodeCount es + listNodeCount fs := by
  induction es with
  | nil => simp [listNodeCount]
  | cons e es ih =>
      simp only [List.cons_append, listNodeCount, ih]
      omega

theorem nodes_append (naming : Naming) (next : Nat) (es fs : List Expr) :
    nodes naming next (es ++ fs) =
      nodes naming next es ++ nodes naming (next + listNodeCount es) fs := by
  induction es generalizing next with
  | nil => simp [nodes, listNodeCount]
  | cons e es ih => simp only [List.cons_append, nodes, listNodeCount, ih, Nat.add_assoc]

mutual

/-- The nodes of an expression take the numbers from `next` on, and all of them have a name. -/
theorem mem_preorder_node {naming : Naming} {next : Nat} {m : Node} : (e : Expr) →
    m ∈ (node naming next e).preorder →
      next ≤ m.id ∧ m.id < next + nodeCount e ∧ m.name ≠ .unnamed
  | comparison field operator operand, h => by
      simp only [node, Node.leaf, Node.preorder, Node.preorderList, List.mem_singleton] at h
      subst h
      simp [Node.id, Node.name, nodeCount]
  | group combinator members, h => by
      simp only [node, Node.preorder, List.mem_cons] at h
      rcases h with rfl | h
      · simp only [Node.id, Node.name, nodeCount]
        exact ⟨Nat.le_refl _, by omega, by simp⟩
      · obtain ⟨hlow, hhigh, hname⟩ := mem_preorder_nodes members h
        simp only [nodeCount]
        exact ⟨by omega, by omega, hname⟩

/-- The nodes of expressions take the numbers from `next` on, and all of them have a name. -/
theorem mem_preorder_nodes {naming : Naming} {next : Nat} {m : Node} : (es : List Expr) →
    m ∈ Node.preorderList (nodes naming next es) →
      next ≤ m.id ∧ m.id < next + listNodeCount es ∧ m.name ≠ .unnamed
  | [], h => by simp [nodes, Node.preorderList] at h
  | e :: es, h => by
      simp only [nodes, Node.preorderList, List.mem_append] at h
      simp only [listNodeCount]
      rcases h with h | h
      · obtain ⟨hlow, hhigh, hname⟩ := mem_preorder_node e h
        exact ⟨hlow, by omega, hname⟩
      · obtain ⟨hlow, hhigh, hname⟩ := mem_preorder_nodes es h
        exact ⟨by omega, by omega, hname⟩

end

mutual

/-- The node of an expression stands for the clause that the expression means. -/
theorem clause_node (naming : Naming) : (next : Nat) → (e : Expr) →
    (node naming next e).clause = clause naming e
  | _, comparison .. => rfl
  | next, group combinator members => by
      rw [node, Node.clause, clauses_nodes naming (next + 1) members, clause]

/-- The nodes of expressions stand for the clauses that the expressions mean. -/
theorem clauses_nodes (naming : Naming) : (next : Nat) → (es : List Expr) →
    Node.clauses (nodes naming next es) = clauses naming es
  | _, [] => rfl
  | next, e :: es => by
      rw [nodes, Node.clauses, clause_node naming next e,
        clauses_nodes naming (next + nodeCount e) es, clauses]

end

end Expr

/-! ## Drafts that take whole expressions -/

namespace Draft

/-- Every node has a number that was given out, and none could still be made a group in place. -/
def Settled (d : Draft) : Prop :=
  ∀ n ∈ d.tree.root.preorder, n.id < d.tree.size ∧ (n.name = .unnamed → n.children ≠ [])

/-- The draft with more nodes under the current one, for which so many numbers were given out. -/
def attach (d : Draft) (more : List Node) (count : Nat) : Draft :=
  { d with tree := ⟨d.tree.root.modify d.current (Node.adoptAll more), d.tree.size + count⟩ }

/-- The draft inside a group that has a node of its own. -/
def enter (d : Draft) (combinator : Combinator) : Draft :=
  ⟨(d.attach [.leaf d.tree.size (.combinator combinator) none] 1).tree, d.tree.size,
    d.current :: d.enclosing⟩

theorem replay_cons_of_ok {naming : Naming} {d next : Draft} {e : FilterEvent}
    (h : d.accept naming e = .ok next) (es : List FilterEvent) :
    d.replay naming (e :: es) = next.replay naming es := by
  rw [replay, h]

theorem attach_nil (d : Draft) : d.attach [] 0 = d := by
  rw [attach, Node.modify_adoptAll_nil, Nat.add_zero]

theorem attach_attach (d : Draft) (more others : List Node) (count next : Nat) :
    (d.attach more count).attach others next = d.attach (more ++ others) (count + next) := by
  simp only [attach, Node.modify_modify_self (Node.id_adoptAll more), Node.adoptAll_adoptAll,
    Nat.add_assoc]

/-- No old node has the number of the next node. -/
theorem Settled.id_ne_size {d : Draft} (h : d.Settled) {n : Node} (hn : n ∈ d.tree.root.preorder) :
    n.id ≠ d.tree.size := by
  have := (h n hn).1
  omega

/-- In a settled draft, a group that starts becomes a node of its own. -/
theorem Settled.isUntouched_eq_false {d : Draft} (h : d.Settled) : d.isUntouched = false := by
  unfold isUntouched
  split
  · rename_i node hfind
    have hmem : node ∈ d.tree.root.preorder := List.mem_of_find?_eq_some hfind
    have hchildren := (h node hmem).2
    by_cases hname : node.name = .unnamed
    · simp [hchildren hname]
    · simp [hname]
  · rfl

/-- Nodes with names and with the next numbers leave a draft settled. -/
theorem Settled.attach {d : Draft} (h : d.Settled) {more : List Node} {count : Nat}
    (hmore : ∀ n ∈ Node.preorderList more, n.id < d.tree.size + count ∧ n.name ≠ .unnamed) :
    (d.attach more count).Settled := by
  intro n hn
  rcases Node.mem_preorder_modify_adoptAll _ hn with hn | ⟨m, hm, hid, hname, hchildren⟩
  · obtain ⟨hlt, hnamed⟩ := hmore n hn
    exact ⟨hlt, fun hunnamed => absurd hunnamed hnamed⟩
  · obtain ⟨hlt, hsettled⟩ := h m hm
    refine ⟨?_, fun hunnamed hnil => hsettled (hname ▸ hunnamed) (hchildren hnil)⟩
    simp only [Draft.attach, hid]
    omega

/-- Attaching expressions leaves a draft settled. -/
theorem Settled.attach_nodes {d : Draft} (h : d.Settled) (naming : Naming) (es : List Expr) :
    (d.attach (Expr.nodes naming d.tree.size es) (Expr.listNodeCount es)).Settled :=
  h.attach fun _ hn =>
    let ⟨_, hlt, hname⟩ := Expr.mem_preorder_nodes es hn
    ⟨hlt, hname⟩

/-- A draft that enters a group stays settled. -/
theorem Settled.enter {d : Draft} (h : d.Settled) (combinator : Combinator) :
    (d.enter combinator).Settled := by
  refine Settled.attach (d := d) h fun n hn => ?_
  simp only [Node.leaf, Node.preorderList, Node.preorder, List.append_nil,
    List.mem_singleton] at hn
  subst hn
  exact ⟨Nat.lt_succ_self _, by simp [Node.name]⟩

/-- A comparison puts its node under the current one. -/
theorem accept_comparison (naming : Naming) (d : Draft) {field : String} (operator : Operator)
    (operand : Operand) (h : Text.isBlank field = false) :
    d.accept naming (.comparison field operator operand) =
      .ok (d.attach [Expr.node naming d.tree.size (.comparison field operator operand)] 1) := by
  simp only [accept, addComparison, h, Bool.false_eq_true, if_false, Tree.addNode, attach,
    Expr.node, Node.adopt_eq_adoptAll]

/-- In a settled draft, a group that starts is entered by a node of its own. -/
theorem accept_groupStart (naming : Naming) {d : Draft} (hd : d.Settled) (combinator : Combinator) :
    d.accept naming (.groupStart combinator) = .ok (d.enter combinator) := by
  simp only [accept, startGroup, hd.isUntouched_eq_false, Bool.false_eq_true, if_false,
    Tree.addNode, enter, attach, Node.adopt_eq_adoptAll]

/-- The group that was entered ends with its nodes under its own node. -/
theorem accept_groupEnd (naming : Naming) {d : Draft} (hd : d.Settled) (combinator : Combinator)
    (members : List Expr) :
    ((d.enter combinator).attach (Expr.nodes naming (d.tree.size + 1) members)
        (Expr.listNodeCount members)).accept naming .groupEnd =
      .ok (d.attach [Expr.node naming d.tree.size (.group combinator members)]
        (1 + Expr.listNodeCount members)) := by
  have hleaf : Node.modifyList d.tree.size
      (Node.adoptAll (Expr.nodes naming (d.tree.size + 1) members))
      [.leaf d.tree.size (.combinator combinator) none] =
        [Expr.node naming d.tree.size (.group combinator members)] := by
    simp [Node.leaf, Node.modifyList, Node.modify, Node.adoptAll, Expr.node]
  simp only [accept, endGroup, enter, attach,
    Node.modify_adoptAll_of_forall_ne d.tree.root fun _ hn => hd.id_ne_size hn, hleaf,
    Nat.add_assoc]

mutual

/-- A settled draft takes an expression by attaching its node. -/
theorem replay_events (naming : Naming) : (e : Expr) → (d : Draft) → (rest : List FilterEvent) →
    d.Settled → e.isNamed = true →
      d.replay naming (e.events ++ rest) =
        (d.attach [Expr.node naming d.tree.size e] e.nodeCount).replay naming rest
  | .comparison field operator operand, d, rest, _, hnamed => by
      have hfield : Text.isBlank field = false := by simpa [Expr.isNamed] using hnamed
      rw [Expr.events, List.singleton_append]
      exact replay_cons_of_ok (accept_comparison naming d operator operand hfield) rest
  | .group combinator members, d, rest, hd, hnamed => by
      rw [Expr.isNamed] at hnamed
      rw [Expr.events, List.cons_append, List.append_assoc,
        replay_cons_of_ok (accept_groupStart naming hd combinator),
        replay_listEvents naming members _ _ (hd.enter combinator) hnamed, List.singleton_append]
      exact replay_cons_of_ok (accept_groupEnd naming hd combinator members) rest

/-- A settled draft takes expressions that follow one another by attaching their nodes. -/
theorem replay_listEvents (naming : Naming) : (es : List Expr) → (d : Draft) →
    (rest : List FilterEvent) → d.Settled → Expr.listIsNamed es = true →
      d.replay naming (Expr.listEvents es ++ rest) =
        (d.attach (Expr.nodes naming d.tree.size es) (Expr.listNodeCount es)).replay naming rest
  | [], d, rest, _, _ => by
      rw [Expr.listEvents, Expr.nodes, Expr.listNodeCount, attach_nil, List.nil_append]
  | e :: es, d, rest, hd, hnamed => by
      rw [Expr.listIsNamed, Bool.and_eq_true] at hnamed
      obtain ⟨hfirst, hothers⟩ := hnamed
      have hnext : (d.attach [Expr.node naming d.tree.size e] e.nodeCount).Settled := by
        have h := hd.attach_nodes naming [e]
        simpa only [Expr.nodes, Expr.listNodeCount, Nat.add_zero] using h
      rw [Expr.listEvents, List.append_assoc, replay_events naming e d _ hd hfirst,
        replay_listEvents naming es _ _ hnext hothers, attach_attach, Expr.nodes,
        Expr.listNodeCount]
      rfl

end

/-! ## The first expression -/

/-- The draft with nothing but a root. -/
def ofRoot (root : Option Combinator) (enclosing : List Nat) : Draft :=
  ⟨⟨.leaf 0 (Expr.rootName root) none, 1⟩, 0, enclosing⟩

/-- A root that is a group does not change any more. -/
theorem settled_ofRoot (combinator : Combinator) (enclosing : List Nat) :
    (ofRoot (some combinator) enclosing).Settled := by
  intro n hn
  simp only [ofRoot, Node.leaf, Node.preorder, Node.preorderList, List.mem_singleton] at hn
  subst hn
  exact ⟨Nat.one_pos, by simp [Node.name, Expr.rootName]⟩

/-- A root with a comparison under it does not change any more. -/
theorem settled_attach_ofRoot (naming : Naming) (field : String) (operator : Operator)
    (operand : Operand) :
    ((ofRoot none []).attach
      [Expr.node naming 1 (.comparison field operator operand)] 1).Settled := by
  intro n hn
  simp only [attach, ofRoot, Node.leaf, Node.modify, if_true, Node.adoptAll, List.nil_append,
    Node.preorder, Node.preorderList, Expr.node, List.mem_cons, List.append_nil,
    List.not_mem_nil, or_false] at hn
  rcases hn with rfl | rfl
  · exact ⟨by simp [attach, ofRoot, Node.id], by simp [Node.children]⟩
  · exact ⟨by simp [attach, ofRoot, Node.id], by simp [Node.name]⟩

/-- Expressions are taken from the first event on. -/
theorem replay_empty (naming : Naming) {es : List Expr} (hnamed : Expr.listIsNamed es = true) :
    Draft.empty.replay naming (Expr.listEvents es) = .ok ⟨Expr.tree naming es, 0, []⟩ := by
  match es with
  | [] => rfl
  | .comparison field operator operand :: es =>
      rw [Expr.listIsNamed, Bool.and_eq_true] at hnamed
      obtain ⟨hfirst, hothers⟩ := hnamed
      have hfield : Text.isBlank field = false := by simpa [Expr.isNamed] using hfirst
      have hstart := accept_comparison naming (ofRoot none []) operator operand hfield
      have hrest := replay_listEvents naming es _ []
        (settled_attach_ofRoot naming field operator operand) hothers
      rw [List.append_nil, attach_attach] at hrest
      rw [Expr.listEvents, Expr.events, List.singleton_append]
      exact (replay_cons_of_ok hstart _).trans hrest
  | .group combinator members :: es =>
      rw [Expr.listIsNamed, Expr.isNamed, Bool.and_eq_true] at hnamed
      obtain ⟨hmembers, hothers⟩ := hnamed
      have hstart : Draft.empty.accept naming (.groupStart combinator) =
          .ok (ofRoot (some combinator) [0]) := rfl
      have hinner := replay_listEvents naming members _ (.groupEnd :: Expr.listEvents es)
        (settled_ofRoot combinator [0]) hmembers
      have hend : ((ofRoot (some combinator) [0]).attach (Expr.nodes naming 1 members)
          (Expr.listNodeCount members)).accept naming .groupEnd =
            .ok ((ofRoot (some combinator) []).attach (Expr.nodes naming 1 members)
              (Expr.listNodeCount members)) := rfl
      have hrest := replay_listEvents naming es _ []
        ((settled_ofRoot combinator []).attach_nodes naming members) hothers
      rw [List.append_nil, attach_attach] at hrest
      rw [Expr.listEvents, Expr.events, List.cons_append, List.append_assoc,
        List.singleton_append]
      refine (replay_cons_of_ok hstart _).trans (hinner.trans ?_)
      refine (replay_cons_of_ok hend _).trans (hrest.trans ?_)
      simp only [replay, Expr.tree, Expr.rootParts, Expr.nodes_append, Expr.listNodeCount_append]
      rfl

end Draft

/-! ## What the tree says -/

/-- A root that is a group is read as that group, unless it has no children. -/
theorem Tree.selection_of_combinator (combinator : Combinator) (children : List Node) (size : Nat) :
    (⟨.mk 0 (.combinator combinator) none children, size⟩ : Tree).selection =
      if children.isEmpty then .everything else .group combinator (Node.clauses children) := by
  match children with
  | [] => rfl
  | [_] => rfl
  | _ :: _ :: _ => rfl

namespace Expr

theorem isEmpty_nodes (naming : Naming) (next : Nat) (es : List Expr) :
    (nodes naming next es).isEmpty = es.isEmpty := by
  cases es <;> rfl

/-- The selection of the tree of expressions. -/
theorem selection_tree (naming : Naming) (es : List Expr) :
    (tree naming es).selection =
      match es with
      | [.comparison field operator operand] =>
        .terms [⟨naming.native field, Predicate.ofComparison operator operand⟩]
      | es =>
        if (rootParts es).2.isEmpty then .everything
        else .group ((rootParts es).1.getD .all) (clauses naming (rootParts es).2) := by
  match es with
  | [] => rfl
  | [.comparison field operator operand] => rfl
  | .comparison field operator operand :: e :: es =>
      have hclauses := clauses_nodes naming 1 (.comparison field operator operand :: e :: es)
      exact congrArg (Selection.group .all) hclauses
  | .group combinator members :: es =>
      rw [tree, rootParts, rootName, Tree.selection_of_combinator, isEmpty_nodes, clauses_nodes]
      rfl

end Expr

/-- A stream that reports expressions one after the other is read as the tree of the expressions.
The tree has no condition if its root has no children, one condition if the stream is a single
comparison, and otherwise it is the group at its root, of which all parts have to hold if the stream
gives it no combinator. -/
theorem Filter.ofEvents_listEvents (naming : Naming) {es : List Expr}
    (hnamed : Expr.listIsNamed es = true) :
    Filter.ofEvents naming (Expr.listEvents es) = .ok (Expr.tree naming es) ∧
      ((Expr.tree naming es).selection = .everything ↔ (Expr.tree naming es).root.children = []) ∧
      (∀ ts, (Expr.tree naming es).selection = .terms ts ↔
        ∃ field operator operand, es = [.comparison field operator operand] ∧
          ts = [⟨naming.native field, Predicate.ofComparison operator operand⟩]) ∧
      (∀ combinator clauses, (Expr.tree naming es).selection = .group combinator clauses ↔
        (Expr.tree naming es).root.children ≠ [] ∧
          (∀ field operator operand, es ≠ [.comparison field operator operand]) ∧
          combinator = (Expr.rootParts es).1.getD .all ∧
          clauses = Expr.clauses naming (Expr.rootParts es).2) := by
  have hchildren : (Expr.tree naming es).root.children = [] ↔ (Expr.rootParts es).2 = [] := by
    have h := Expr.isEmpty_nodes naming 1 (Expr.rootParts es).2
    rw [← List.isEmpty_iff, ← List.isEmpty_iff, ← h]
    rfl
  constructor
  · rw [Filter.ofEvents, Draft.replay_empty naming hnamed]
    rfl
  rw [Expr.selection_tree, Ne, hchildren]
  split
  · rename_i field operator operand
    refine ⟨by simp [Expr.rootParts], fun ts => ?_, fun combinator clauses => ?_⟩
    · constructor
      · intro h
        exact ⟨field, operator, operand, rfl, (Selection.terms.inj h).symm⟩
      · rintro ⟨field', operator', operand', hes, rfl⟩
        cases hes
        rfl
    · refine ⟨fun h => by simp at h, ?_⟩
      rintro ⟨-, hsingle, -⟩
      exact absurd rfl (hsingle field operator operand)
  · rename_i hsingle
    by_cases hempty : (Expr.rootParts es).2 = []
    · rw [hempty]
      refine ⟨by simp, fun ts => ?_, fun combinator clauses => by simp⟩
      refine ⟨fun h => by simp at h, ?_⟩
      rintro ⟨field, operator, operand, rfl, -⟩
      exact (hsingle field operator operand rfl).elim
    · rw [if_neg (by simpa using hempty)]
      refine ⟨by simp [hempty], fun ts => ?_, fun combinator clauses => ?_⟩
      · refine ⟨fun h => by simp at h, ?_⟩
        rintro ⟨field, operator, operand, rfl, -⟩
        exact (hsingle field operator operand rfl).elim
      · constructor
        · intro h
          obtain ⟨hcombinator, hclauses⟩ := Selection.group.inj h
          exact ⟨hempty, hsingle, hcombinator.symm, hclauses.symm⟩
        · rintro ⟨-, -, rfl, rfl⟩
          rfl

/-- Behind a group that the root was made of, comparisons and empty groups stay where they stand. -/
theorem Filter.ofEvents_listEvents_leading_group :
    let es : List Expr :=
      [.group .any [.comparison "id" .eq (.scalar (.string "u1")), .group .all []],
        .comparison "name" .like (.scalar (.string "ad"))]
    Expr.listIsNamed es = true ∧
      ∃ tree, Filter.ofEvents Naming.document (Expr.listEvents es) = .ok tree ∧
        tree.selection =
          .group .any
            [.term ⟨"_id", .eq (.string "u1")⟩, .group .all [], .term ⟨"name", .like "ad"⟩] := by
  intro es
  have hnamed : Expr.listIsNamed es = true := by decide
  exact ⟨hnamed, _, (Filter.ofEvents_listEvents Naming.document hnamed).1, rfl⟩

end TenantStore
