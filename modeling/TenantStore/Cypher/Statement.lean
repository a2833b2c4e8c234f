import TenantStore.Cypher.Condition
import TenantStore.Paging.Sort

/-!
# Statements in Cypher

The statements that a repository of nodes with one label runs. Each has the node under the alias
`n`; values are in its parameters.
-/

namespace TenantStore.Cypher

/-- A statement with the values of its parameters. -/
structure Statement where
  text : String
  params : Members Json
  deriving DecidableEq, Repr

/-- The alias of the node. -/
def nodeAlias : String := "n"

/-- The column with the number of deleted nodes. -/
def deletedColumn : String := "deleted"

/-- The column with the number of nodes that match. -/
def totalColumn : String := "total"

namespace Statement

/-- The node with its label. -/
def node (label : String) : String :=
  "(" ++ nodeAlias ++ ":" ++ quotedName label ++ ")"

/-- The start of a statement on the nodes of a selection. -/
def matching (label : String) (s : Scoped) : Statement :=
  let condition := Where.ofScoped s nodeAlias
  ⟨"MATCH " ++ node label ++ " WHERE " ++ condition.clause, condition.params⟩

/-- The statement with more text and another parameter behind. -/
def andThen (s : Statement) (text name : String) (value : Json) : Statement :=
  ⟨s.text ++ text, Members.insert s.params name value⟩

/-- What gives the node all its properties. -/
def setProperties : String :=
  " SET " ++ nodeAlias ++ " = $props RETURN " ++ nodeAlias

/-- Creates a node. -/
def create (label : String) (properties : Members Json) : Statement :=
  (⟨"CREATE " ++ node label, []⟩ : Statement).andThen setProperties "props" (.object properties)

/-- Gives the nodes of a selection new properties. -/
def update (label : String) (s : Scoped) (properties : Members Json) : Statement :=
  (matching label s).andThen setProperties "props" (.object properties)

/-- Deletes the nodes of a selection and counts them. -/
def delete (label : String) (s : Scoped) : Statement :=
  let head := matching label s
  { head with
    text :=
      head.text ++ " DETACH DELETE " ++ nodeAlias ++ " RETURN count(" ++ nodeAlias ++ ") AS " ++
        deletedColumn }

/-- Counts the nodes of a selection. -/
def count (label : String) (s : Scoped) : Statement :=
  let head := matching label s
  { head with text := head.text ++ " RETURN count(" ++ nodeAlias ++ ") AS " ++ totalColumn }

/-- A field of a sort order. -/
def orderItem (f : SortField) : String :=
  property nodeAlias f.field ++
    match f.direction with
    | .ascending => " ASC"
    | .descending => " DESC"

/-- The sort order, if there is one. -/
def orderText : List SortField → String
  | [] => ""
  | fs => " ORDER BY " ++ String.intercalate ", " (fs.map orderItem)

/-- Finds the nodes of a selection in a sort order: `limit` of them behind `skip`. -/
def find (label : String) (s : Scoped) (sort : List SortField) (skip : Nat) (limit : Option Nat) :
    Statement :=
  let head := matching label s
  let ordered := { head with text := head.text ++ " RETURN " ++ nodeAlias ++ orderText sort }
  let skipped :=
    if 0 < skip then ordered.andThen " SKIP $skip" "skip" (Json.ofNat skip) else ordered
  match limit with
  | some n => skipped.andThen " LIMIT $limit" "limit" (Json.ofNat n)
  | none => skipped

end Statement
end TenantStore.Cypher
