import TenantStore.Graph.Session

/-!
# Graph databases as backends

Entities are the nodes of one label, with the members of the entity as their properties, and
selections are conditions of statements. Of an answer to a search every row has to hold an entity,
also if only the first is asked for.
-/

namespace TenantStore.Graph

open Cypher (Statement)

variable {α : Type} [Entity α]

/-- The number in the first row of an answer, zero if there is none. -/
def countColumn (rows : List (Members Json)) (column : String) : Nat :=
  (rows.head?.bind fun row => (Members.get? row column).bind Json.natural?).getD 0

/-- An answer to a search has a row without a node. -/
def missingNode : StoreError :=
  .infrastructure ("result row has no " ++ Cypher.quotedName Cypher.nodeAlias ++ " column")

/-- The entity in a row of an answer. -/
def rowEntity (row : Members Json) : Except StoreError α :=
  match Members.get? row Cypher.nodeAlias with
  | some node => (Entity.ofJson node).mapError Entity.unreadable
  | none => .error missingNode

/-- The entities in an answer. -/
def entities (rows : List (Members Json)) : Except StoreError (List α) :=
  rows.mapM rowEntity

/-- Finds entities by a statement. -/
def search (statement : Statement) : Access Session (List α) := do
  entities (← Session.run statement .read)

/-- The backend of the nodes of a label. -/
def backend (label : String) : Backend Session α where
  naming := .graph
  insert e := do
    let _ ← Session.run (.create label (← Entity.members e)) .write
    return ()
  update s e := do
    let rows ← Session.run (.update label s (← Entity.members e)) .write
    return !rows.isEmpty
  delete s := do
    return countColumn (← Session.run (.delete label s) .write) Cypher.deletedColumn
  first s := do
    let found ← search (.find label s [] 0 none)
    return found.head?
  find s w := search (.find label s w.sort w.skip w.limit)
  count s := do
    return countColumn (← Session.run (.count label s) .read) Cypher.totalColumn

end TenantStore.Graph
