import TenantStore.Filter.Selection

/-!
# Filter trees

A filter is a tree of named nodes. A node is a group with a combinator, a condition on a field, or
not named yet, which reads as a group that all of has to hold. Nodes are numbered in the order of
their creation, the root being 0.

`Tree.selection` brings a tree into the shape of a selection, and `Node.toJson` writes any node as a
query document.
-/

namespace TenantStore

/-- What a node is. -/
inductive NodeName where
  /-- Not named yet. -/
  | unnamed
  /-- A group. -/
  | combinator (c : Combinator)
  /-- A condition on a field. -/
  | field (name : String)
  deriving DecidableEq, Repr

/-- A node of a filter tree, with its number and its children in order. -/
inductive Node where
  | mk (id : Nat) (name : NodeName) (predicate : Option Predicate) (children : List Node)
  deriving Repr

namespace Node

/-- The number of the node. -/
def id : Node → Nat
  | mk id _ _ _ => id

/-- What the node is. -/
def name : Node → NodeName
  | mk _ name _ _ => name

/-- The condition that was put on the node. -/
def predicate : Node → Option Predicate
  | mk _ _ predicate _ => predicate

/-- The children in order. -/
def children : Node → List Node
  | mk _ _ _ children => children

/-- A node without children. -/
def leaf (id : Nat) (name : NodeName) (predicate : Option Predicate) : Node :=
  mk id name predicate []

/-- The node with one more child behind the others. -/
def adopt (child : Node) : Node → Node
  | mk id name predicate children => mk id name predicate (children ++ [child])

/-- The node under another name. -/
def rename (new : NodeName) : Node → Node
  | mk id _ predicate children => mk id new predicate children

/-- The node with the condition put on it. -/
def putPredicate (new : Predicate) : Node → Node
  | mk id name _ children => mk id name (some new) children

/-- The combinator of the node as a group. -/
def combinator (n : Node) : Combinator :=
  match n.name with
  | .combinator c => c
  | .unnamed | .field _ => .all

mutual

/-- Changes the node of a number. -/
def modify (target : Nat) (f : Node → Node) : Node → Node
  | mk id name predicate children =>
    if id = target then f (mk id name predicate children)
    else mk id name predicate (modifyList target f children)

/-- Changes the node of a number among subtrees. -/
def modifyList (target : Nat) (f : Node → Node) : List Node → List Node
  | [] => []
  | n :: ns => modify target f n :: modifyList target f ns

end

mutual

/-- The nodes of the subtree, a node before its children. -/
def preorder : Node → List Node
  | mk id name predicate children => mk id name predicate children :: preorderList children

/-- The nodes of subtrees, one subtree after the other. -/
def preorderList : List Node → List Node
  | [] => []
  | n :: ns => preorder n ++ preorderList ns

end

/-- The node of a number in the subtree. -/
def find? (target : Nat) (n : Node) : Option Node :=
  n.preorder.find? fun m => m.id = target

mutual

/-- The greatest number of groups on a path down from the node. -/
def depth : Node → Nat
  | mk _ name _ children =>
    (match name with
      | .combinator _ => 1
      | _ => 0) + depthList children

/-- The greatest number of groups on a path down from any of the nodes. -/
def depthList : List Node → Nat
  | [] => 0
  | n :: ns => max (depth n) (depthList ns)

end

mutual

/-- The clause that the node stands for. A field without a condition has to be null. -/
def clause : Node → Clause
  | mk _ (.field name) predicate _ => .term ⟨name, predicate.getD (.eq .null)⟩
  | mk _ (.combinator c) _ children => .group c (clauses children)
  | mk _ .unnamed _ children => .group .all (clauses children)

/-- The clauses that nodes stand for. -/
def clauses : List Node → List Clause
  | [] => []
  | n :: ns => clause n :: clauses ns

end

/-- The node as a query document. A group without children puts no condition. -/
def toJson (n : Node) : Json :=
  match n.name with
  | .field _ => n.clause.toJson
  | _ =>
    if n.children.isEmpty then .object []
    else Clause.groupJson n.combinator (Clause.listJson (clauses n.children))

theorem clauses_eq_map (ns : List Node) : clauses ns = ns.map clause := by
  induction ns with
  | nil => rfl
  | cons n ns ih => simp [clauses, ih]

theorem preorderList_eq_flatMap (ns : List Node) : preorderList ns = ns.flatMap preorder := by
  induction ns with
  | nil => rfl
  | cons n ns ih => simp [preorderList, ih]

end Node

/-- A filter tree and the number that its next node gets. -/
structure Tree where
  root : Node
  size : Nat
  deriving Repr

namespace Tree

/-- The tree with nothing but a root that is not named yet. -/
def empty : Tree :=
  ⟨.leaf 0 .unnamed none, 1⟩

/-- There are no conditions. -/
def isEmpty (t : Tree) : Bool :=
  t.root.children.isEmpty

/-- The node of a number. -/
def find? (t : Tree) (id : Nat) : Option Node :=
  t.root.find? id

/-- Adds a node behind the other children of its parent. -/
def addNode (t : Tree) (parent : Nat) (name : NodeName) (predicate : Option Predicate) : Tree :=
  ⟨t.root.modify parent (Node.adopt (.leaf t.size name predicate)), t.size + 1⟩

/-- Puts a condition on a node. -/
def putPredicate (t : Tree) (id : Nat) (predicate : Predicate) : Tree :=
  { t with root := t.root.modify id (Node.putPredicate predicate) }

/-- Makes a node a group. -/
def makeGroup (t : Tree) (id : Nat) (combinator : Combinator) : Tree :=
  { t with root := t.root.modify id (Node.rename (.combinator combinator)) }

/-- The greatest number of groups on a path down from the root. -/
def depth (t : Tree) : Nat :=
  t.root.depth

/-- The tree as a selection. A root that is not named stands for its only child, if it has only one.
-/
def selection (t : Tree) : Selection :=
  match t.root.name, t.root.children with
  | _, [] => .everything
  | .unnamed, [only] =>
    match only.clause with
    | .term term => .terms [term]
    | .group combinator clauses => .group combinator clauses
  | _, children => .group t.root.combinator (Node.clauses children)

/-- The tree with its root as a query document. -/
def rootJson (t : Tree) : Json :=
  t.root.toJson

end Tree
end TenantStore
