import TenantStore.Filter.Draft
import TenantStore.Filter.Scoped

/-!
# Filters in the names of a backend

A filter is compiled in the names that a backend has for the fields, and the names are all that
differs between backends: `mapFields` puts other names on the conditions of a filter, and every step
from the events of a filter text to the selection of a tenant commutes with it. No step compares
names of fields but the one that drops conditions on the tenant, so there alone the new names have
to keep the tenant's field apart from the others (`Naming.KeepsTenant`).

A filter that is compiled in the names of a backend is the filter in logical names with the names of
the backend put on it (`Filter.compile_eq_map`), and it is refused for the same reasons.
-/

namespace TenantStore

/-! ## Other names for fields -/

section Definitions

variable (f : String → String)

/-- The condition on the field with the new name. -/
def Term.mapFields (t : Term) : Term :=
  { t with field := f t.field }

namespace Clause

mutual

/-- The clause with new names for all fields. -/
def mapFields : Clause → Clause
  | .term t => .term (t.mapFields f)
  | .group combinator clauses => .group combinator (mapFieldsList clauses)

/-- Clauses with new names for all fields. -/
def mapFieldsList : List Clause → List Clause
  | [] => []
  | c :: cs => mapFields c :: mapFieldsList cs

end

theorem mapFieldsList_eq_map (cs : List Clause) : mapFieldsList f cs = cs.map (mapFields f) := by
  induction cs with
  | nil => rfl
  | cons c cs ih => rw [mapFieldsList, ih, List.map_cons]

end Clause

/-- The selection with new names for all fields. -/
def Selection.mapFields : Selection → Selection
  | everything => everything
  | terms ts => terms (ts.map (Term.mapFields f))
  | group combinator clauses => group combinator (clauses.map (Clause.mapFields f))

/-- The tenant's selection with new names for all fields. -/
def Scoped.mapFields (s : Scoped) : Scoped :=
  ⟨s.selection.mapFields f⟩

/-- A condition on the field with the new name, or the same group. -/
def NodeName.mapFields : NodeName → NodeName
  | unnamed => unnamed
  | combinator c => combinator c
  | field name => field (f name)

namespace Node

mutual

/-- The subtree with new names for all fields. -/
def mapFields : Node → Node
  | mk id name predicate children => mk id (name.mapFields f) predicate (mapFieldsList children)

/-- Subtrees with new names for all fields. -/
def mapFieldsList : List Node → List Node
  | [] => []
  | n :: ns => mapFields n :: mapFieldsList ns

end

theorem mapFieldsList_eq_map (ns : List Node) : mapFieldsList f ns = ns.map (mapFields f) := by
  induction ns with
  | nil => rfl
  | cons n ns ih => rw [mapFieldsList, ih, List.map_cons]

end Node

/-- The tree with new names for all fields. -/
def Tree.mapFields (t : Tree) : Tree :=
  { t with root := t.root.mapFields f }

/-- The draft with new names for all fields. -/
def Draft.mapFields (d : Draft) : Draft :=
  { d with tree := d.tree.mapFields f }

end Definitions

variable {f : String → String}

theorem Naming.native_graph (field : String) : Naming.graph.native field = field := by
  by_cases h : field = idField
  · rw [h, native_id]
    rfl
  · exact native_of_ne _ h

/-! ## Changes to trees -/

namespace Node

theorem id_mapFields (n : Node) : (n.mapFields f).id = n.id := by
  cases n
  rfl

theorem name_mapFields (n : Node) : (n.mapFields f).name = n.name.mapFields f := by
  cases n
  rfl

theorem children_mapFields (n : Node) :
    (n.mapFields f).children = n.children.map (mapFields f) := by
  cases n
  exact mapFieldsList_eq_map f _

theorem mapFields_leaf (id : Nat) (name : NodeName) (predicate : Option Predicate) :
    (leaf id name predicate).mapFields f = leaf id (name.mapFields f) predicate :=
  rfl

theorem mapFields_adopt (child n : Node) :
    (adopt child n).mapFields f = adopt (child.mapFields f) (n.mapFields f) := by
  cases n
  simp only [adopt, mapFields, mapFieldsList_eq_map, List.map_append, List.map_cons, List.map_nil]

theorem mapFields_rename (new : NodeName) (n : Node) :
    (n.rename new).mapFields f = (n.mapFields f).rename (new.mapFields f) := by
  cases n
  rfl

mutual

/-- Names are put on a tree before or after a change that does not depend on them. -/
theorem mapFields_modify {target : Nat} {change change' : Node → Node}
    (h : ∀ m, (change m).mapFields f = change' (m.mapFields f)) : (n : Node) →
      (n.modify target change).mapFields f = (n.mapFields f).modify target change'
  | mk id name predicate children => by
      rw [modify, mapFields, modify, apply_ite (mapFields f), h, mapFields, mapFields,
        mapFieldsList_modifyList h children]

/-- Names are put on subtrees before or after a change that does not depend on them. -/
theorem mapFieldsList_modifyList {target : Nat} {change change' : Node → Node}
    (h : ∀ m, (change m).mapFields f = change' (m.mapFields f)) : (ns : List Node) →
      mapFieldsList f (modifyList target change ns) =
        modifyList target change' (mapFieldsList f ns)
  | [] => rfl
  | n :: ns => by
      rw [modifyList, mapFieldsList, mapFields_modify h n, mapFieldsList_modifyList h ns]
      rfl

end

mutual

theorem preorder_mapFields : (n : Node) →
    (n.mapFields f).preorder = n.preorder.map (mapFields f)
  | mk id name predicate children => by
      rw [preorder, List.map_cons, mapFields, preorder, preorderList_mapFieldsList children]

theorem preorderList_mapFieldsList : (ns : List Node) →
    preorderList (mapFieldsList f ns) = (preorderList ns).map (mapFields f)
  | [] => rfl
  | n :: ns => by
      rw [mapFieldsList, preorderList, preorderList, List.map_append, preorder_mapFields n,
        preorderList_mapFieldsList ns]

end

theorem find?_mapFields (target : Nat) (n : Node) :
    (n.mapFields f).find? target = (n.find? target).map (mapFields f) := by
  rw [find?, find?, preorder_mapFields, List.find?_map]
  congr 1
  simp only [Function.comp_def, id_mapFields]

mutual

theorem clause_mapFields : (n : Node) → (n.mapFields f).clause = n.clause.mapFields f
  | mk _ (.field _) _ _ => rfl
  | mk _ (.combinator c) _ children => congrArg (Clause.group c) (clauses_mapFieldsList children)
  | mk _ .unnamed _ children => congrArg (Clause.group .all) (clauses_mapFieldsList children)

theorem clauses_mapFieldsList : (ns : List Node) →
    clauses (mapFieldsList f ns) = Clause.mapFieldsList f (clauses ns)
  | [] => rfl
  | n :: ns => by
      rw [mapFieldsList, clauses, clauses, Clause.mapFieldsList, clause_mapFields n,
        clauses_mapFieldsList ns]

end

end Node

namespace Tree

theorem mapFields_addNode (t : Tree) (parent : Nat) (name : NodeName)
    (predicate : Option Predicate) :
    (t.addNode parent name predicate).mapFields f =
      (t.mapFields f).addNode parent (name.mapFields f) predicate := by
  simp only [addNode, mapFields, Node.mapFields_modify (Node.mapFields_adopt _),
    Node.mapFields_leaf]

theorem mapFields_makeGroup (t : Tree) (id : Nat) (combinator : Combinator) :
    (t.makeGroup id combinator).mapFields f = (t.mapFields f).makeGroup id combinator := by
  simp only [makeGroup, mapFields, Node.mapFields_modify (Node.mapFields_rename _)]
  rfl

theorem selection_mapFields (t : Tree) : (t.mapFields f).selection = t.selection.mapFields f := by
  obtain ⟨⟨id, name, predicate, children⟩, size⟩ := t
  have hgroup (c : Combinator) (ns : List Node) :
      Selection.group c (Node.clauses (Node.mapFieldsList f ns)) =
        (Selection.group c (Node.clauses ns)).mapFields f := by
    rw [Node.clauses_mapFieldsList, Clause.mapFieldsList_eq_map]
    rfl
  match name, children with
  | .unnamed, [] | .combinator _, [] | .field _, [] => rfl
  | .unnamed, [only] =>
      -- The root stands for its only child.
      show (match (only.mapFields f).clause with
        | .term term => Selection.terms [term]
        | .group combinator clauses => .group combinator clauses) =
          (match only.clause with
            | .term term => Selection.terms [term]
            | .group combinator clauses => .group combinator clauses).mapFields f
      rw [Node.clause_mapFields]
      cases only.clause with
      | term term => rfl
      | group combinator clauses =>
          exact congrArg (Selection.group combinator) (Clause.mapFieldsList_eq_map f clauses)
  | .combinator _, [only] | .field _, [only] => exact hgroup _ [only]
  | .unnamed, a :: b :: rest | .combinator _, a :: b :: rest | .field _, a :: b :: rest =>
      exact hgroup _ (a :: b :: rest)

end Tree

/-! ## Drafts -/

namespace Draft

variable (d : Draft)

theorem isUntouched_mapFields : (d.mapFields f).isUntouched = d.isUntouched := by
  have hfind : (d.mapFields f).tree.find? d.current =
      (d.tree.find? d.current).map (Node.mapFields f) :=
    Node.find?_mapFields d.current d.tree.root
  rw [isUntouched, isUntouched]
  rw [show (d.mapFields f).current = d.current from rfl, hfind]
  cases d.tree.find? d.current with
  | none => rfl
  | some node =>
      simp only [Option.map_some, Node.name_mapFields, Node.children_mapFields, List.isEmpty_map]
      cases node.name <;> rfl

theorem mapFields_startGroup (combinator : Combinator) :
    (d.startGroup combinator).mapFields f = (d.mapFields f).startGroup combinator := by
  rw [startGroup, startGroup, isUntouched_mapFields, apply_ite (mapFields f)]
  simp only [mapFields, Tree.mapFields_makeGroup, Tree.mapFields_addNode]
  rfl

theorem endGroup_mapFields : (d.mapFields f).endGroup = d.endGroup.map (mapFields f) := by
  simp only [endGroup, mapFields]
  cases d.enclosing <;> rfl

theorem addComparison_mapFields (n : Naming) (field : String) (operator : Operator)
    (operand : Operand) :
    (d.mapFields n.native).addComparison n field operator operand =
      (d.addComparison .graph field operator operand).map (mapFields n.native) := by
  simp only [addComparison, mapFields, Naming.native_graph]
  cases Text.isBlank field with
  | true => rfl
  | false =>
      simp only [Bool.false_eq_true, if_false, Except.map, mapFields, Tree.mapFields_addNode]
      rfl

/-- An event is taken in the names of a backend as it is taken in logical names. -/
theorem accept_mapFields (n : Naming) (e : FilterEvent) :
    (d.mapFields n.native).accept n e = (d.accept .graph e).map (mapFields n.native) := by
  cases e with
  | groupStart combinator => exact congrArg Except.ok (mapFields_startGroup d combinator).symm
  | groupEnd => exact endGroup_mapFields d
  | comparison field operator operand => exact addComparison_mapFields d n field operator operand

/-- So are events one after the other. -/
theorem replay_mapFields (n : Naming) (es : List FilterEvent) :
    (d.mapFields n.native).replay n es = (d.replay .graph es).map (mapFields n.native) := by
  induction es generalizing d with
  | nil => rfl
  | cons e es ih =>
      rw [replay, replay, accept_mapFields]
      cases d.accept .graph e with
      | error err => rfl
      | ok next => exact ih next

theorem finish_mapFields : (d.mapFields f).finish = d.finish.map (Tree.mapFields f) := by
  simp only [finish, openGroups, mapFields]
  cases d.enclosing.length <;> rfl

end Draft

namespace Filter

theorem ofEvents_eq_map (n : Naming) (es : List FilterEvent) :
    ofEvents n es = (ofEvents .graph es).map (Tree.mapFields n.native) := by
  have hreplay := Draft.replay_mapFields Draft.empty n es
  rw [show Draft.empty.mapFields n.native = Draft.empty from rfl] at hreplay
  rw [ofEvents, ofEvents, hreplay]
  cases Draft.empty.replay .graph es with
  | error err => rfl
  | ok d => exact Draft.finish_mapFields d

/-- The filter in the names of a backend is the filter in logical names with the names of the
backend put on it, and it is refused for the same reasons. -/
theorem compile_eq_map (parser : FilterParser) (n : Naming) (text : String) :
    compile parser n text = (compile parser .graph text).map (Tree.mapFields n.native) := by
  rw [compile, compile]
  cases Text.isBlank text with
  | true => rfl
  | false =>
      simp only [Bool.false_eq_true, if_false]
      cases parser text with
      | error err => rfl
      | ok es => exact ofEvents_eq_map n es

end Filter

/-! ## Selections of a tenant -/

namespace Naming

/-- The names of a backend in which the tenant's field has its logical name and no other field has
it. -/
structure KeepsTenant (n : Naming) : Prop where
  tenant : n.tenant = tenantField
  key : n.key ≠ tenantField

theorem keepsTenant_document : document.KeepsTenant :=
  ⟨rfl, by decide⟩

variable {n : Naming} (hn : n.KeepsTenant)

include hn

theorem KeepsTenant.native_eq_iff (field : String) :
    n.native field = tenantField ↔ field = tenantField := by
  by_cases h : field = idField
  · subst h
    rw [native_id]
    exact iff_of_false hn.key (by decide)
  · rw [native_of_ne n h]

end Naming

namespace Scoped

variable {n : Naming} (hn : n.KeepsTenant)

include hn

theorem tenantTerm_eq_mapFields (tenant : Tenant) :
    tenantTerm tenant n = (tenantTerm tenant .graph).mapFields n.native := by
  have htenant : n.native tenantField = tenantField := (hn.native_eq_iff _).mpr rfl
  simp only [tenantTerm, Term.mapFields, hn.tenant, Naming.graph, htenant]

theorem ofSelection_mapFields (tenant : Tenant) (s : Selection) :
    ofSelection tenant n (s.mapFields n.native) =
      (ofSelection tenant .graph s).mapFields n.native := by
  have htenant := tenantTerm_eq_mapFields hn tenant
  cases s with
  | everything => exact congrArg (fun t => Scoped.mk (.terms [t])) htenant
  | terms ts =>
      have hkept : (ts.map (Term.mapFields n.native)).filter (·.field ≠ n.tenant) =
          (ts.filter (·.field ≠ Naming.graph.tenant)).map (Term.mapFields n.native) := by
        rw [List.filter_map, hn.tenant]
        congr 1
        refine List.filter_congr fun t _ => decide_eq_decide.mpr (not_congr ?_)
        exact hn.native_eq_iff t.field
      simp only [ofSelection, Selection.mapFields, mapFields, List.map_append, hkept, htenant]
      rfl
  | group combinator clauses =>
      simp only [ofSelection, Selection.mapFields, mapFields, List.map_append, htenant]
      rfl

theorem ofTree_mapFields (t : Tree) (tenant : Tenant) :
    ofTree (t.mapFields n.native) tenant n = (ofTree t tenant .graph).mapFields n.native := by
  rw [ofTree, Tree.selection_mapFields, ofSelection_mapFields hn]
  rfl

theorem ofTenant_eq_mapFields (tenant : Tenant) :
    ofTenant tenant n = (ofTenant tenant .graph).mapFields n.native := by
  rw [ofTenant, tenantTerm_eq_mapFields hn]
  rfl

theorem ofId_eq_mapFields (tenant : Tenant) (id : String) :
    ofId tenant id n = (ofId tenant id .graph).mapFields n.native := by
  rw [ofId, tenantTerm_eq_mapFields hn, ← n.native_id]
  rfl

theorem ofIds_eq_mapFields (tenant : Tenant) (ids : List String) :
    ofIds tenant ids n = (ofIds tenant ids .graph).mapFields n.native := by
  rw [ofIds, tenantTerm_eq_mapFields hn, ← n.native_id]
  rfl

end Scoped
end TenantStore
