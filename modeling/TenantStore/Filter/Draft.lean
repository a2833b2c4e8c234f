import TenantStore.Filter.Event
import TenantStore.Filter.Tree
import TenantStore.Text.Blank

/-!
# Filters in the making

A draft is a filter tree that events are still added to, with the groups that are open. The first
group to start while the root has neither a name nor children takes over the root itself, every
other group becomes a new node. An event that is refused leaves no trace, so a caller may go on
after it.

`Draft.finish` gives the tree once all groups are closed, `Draft.replay` takes a stream of events up
to the first refusal, and `Draft.replayAll` passes over refusals. `Filter.compile` reads a filter
text; blank text puts no condition and is not parsed.
-/

namespace TenantStore

/-- A filter tree in the making. -/
structure Draft where
  tree : Tree
  /-- The node of the innermost open group, or the root. -/
  current : Nat
  /-- The nodes of the groups around it, from the inside out. The last is the root. -/
  enclosing : List Nat
  deriving Repr

namespace Draft

/-- The draft of no events. -/
def empty : Draft :=
  ⟨.empty, 0, []⟩

/-- The number of groups that are open. -/
def openGroups (d : Draft) : Nat :=
  d.enclosing.length

/-- The current node has neither a name nor children. -/
def isUntouched (d : Draft) : Bool :=
  match d.tree.find? d.current with
  | some node => decide (node.name = .unnamed) && node.children.isEmpty
  | none => false

/-- A group starts. -/
def startGroup (d : Draft) (combinator : Combinator) : Draft :=
  if d.isUntouched then
    ⟨d.tree.makeGroup d.current combinator, d.current, d.current :: d.enclosing⟩
  else
    ⟨d.tree.addNode d.current (.combinator combinator) none, d.tree.size, d.current :: d.enclosing⟩

/-- The innermost group ends. -/
def endGroup (d : Draft) : Except FilterError Draft :=
  match d.enclosing with
  | [] => .error .unbalancedGroupEnd
  | outer :: rest => .ok ⟨d.tree, outer, rest⟩

/-- A comparison is added to the innermost group. -/
def addComparison (naming : Naming) (d : Draft) (field : String) (operator : Operator)
    (operand : Operand) : Except FilterError Draft :=
  if Text.isBlank field then .error .emptyField
  else
    .ok
      { d with
        tree := d.tree.addNode d.current (.field (naming.native field))
          (some (Predicate.ofComparison operator operand)) }

/-- Takes an event. -/
def accept (naming : Naming) (d : Draft) : FilterEvent → Except FilterError Draft
  | .groupStart combinator => .ok (d.startGroup combinator)
  | .groupEnd => d.endGroup
  | .comparison field operator operand => d.addComparison naming field operator operand

/-- The draft after an event, which is the same draft if the event is refused. -/
def acceptOrSkip (naming : Naming) (d : Draft) (e : FilterEvent) : Draft :=
  match d.accept naming e with
  | .ok next => next
  | .error _ => d

/-- Takes events up to the first that is refused. -/
def replay (naming : Naming) : Draft → List FilterEvent → Except FilterError Draft
  | d, [] => .ok d
  | d, e :: es =>
    match d.accept naming e with
    | .ok next => replay naming next es
    | .error err => .error err

/-- Takes all events that are not refused. -/
def replayAll (naming : Naming) (d : Draft) (es : List FilterEvent) : Draft :=
  es.foldl (acceptOrSkip naming) d

/-- The tree, if no group is open. -/
def finish (d : Draft) : Except FilterError Tree :=
  match d.openGroups with
  | 0 => .ok d.tree
  | count => .error (.unclosedGroups count)

end Draft

namespace Filter

/-- The tree of a whole stream of events. -/
def ofEvents (naming : Naming) (es : List FilterEvent) : Except FilterError Tree := do
  (← Draft.empty.replay naming es).finish

/-- The tree of a filter text. -/
def compile (parser : FilterParser) (naming : Naming) (text : String) : Except FilterError Tree :=
  if Text.isBlank text then .ok .empty
  else do ofEvents naming (← parser text)

end Filter
end TenantStore
