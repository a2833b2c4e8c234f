import TenantStore.Cypher.Name
import TenantStore.Filter.Scoped

/-!
# Conditions in Cypher

The condition of a `WHERE` clause compares properties with numbered parameters, so that no value is
ever part of the text. `Condition.ofSelection` gives the condition of a selection and the values of
its parameters, numbered from left to right; comparing with null needs no parameter.
`Condition.text` writes a condition: `AND` binds tighter than `OR`, and every group inside a group
has parentheses.
-/

namespace TenantStore.Cypher

/-- How a property is compared with a parameter. -/
inductive Relation where
  | equal
  | unequal
  | greater
  | atLeast
  | less
  | atMost
  /-- The property as a whole matches a regular expression. -/
  | matchesRegex
  | isIn
  | notIn
  deriving DecidableEq, Repr

/-- A condition on one property. -/
inductive Test where
  | isNull (field : String)
  | isNotNull (field : String)
  | compare (field : String) (relation : Relation) (parameter : Nat)
  deriving DecidableEq, Repr

/-- A condition. -/
inductive Condition where
  | test (t : Test)
  | group (combinator : Combinator) (parts : List Condition)
  deriving Repr

/-- The regular expression that a `like` pattern stands for: it may match anywhere in the text. -/
def likeRegex (pattern : String) : String :=
  "(?" ++ likeFlags ++ ").*" ++ pattern ++ ".*"

namespace Test

/-- The test of a term and the value of its parameter, which has the given number. -/
def ofTerm (next : Nat) (t : Term) : Test × List Json :=
  match t.predicate with
  | .eq .null => (.isNull t.field, [])
  | .ne .null => (.isNotNull t.field, [])
  | .eq v => (.compare t.field .equal next, [v])
  | .ne v => (.compare t.field .unequal next, [v])
  | .gt v => (.compare t.field .greater next, [v])
  | .gte v => (.compare t.field .atLeast next, [v])
  | .lt v => (.compare t.field .less next, [v])
  | .lte v => (.compare t.field .atMost next, [v])
  | .like p => (.compare t.field .matchesRegex next, [.string (likeRegex p)])
  | .isIn vs => (.compare t.field .isIn next, [.array vs])
  | .notIn vs => (.compare t.field .notIn next, [.array vs])

end Test

/-- What the names of parameters start with. -/
def parameterPrefix : String := "f"

/-- The name of a parameter. -/
def parameterName (n : Nat) : String :=
  parameterPrefix ++ toString n

/-- A parameter where it is used. -/
def placeholder (n : Nat) : String :=
  "$" ++ parameterName n

namespace Test

/-- A comparison of a property with a parameter. -/
def comparison (property : String) (relation : Relation) (parameter : String) : String :=
  match relation with
  | .equal => property ++ " = " ++ parameter
  | .unequal => property ++ " <> " ++ parameter
  | .greater => property ++ " > " ++ parameter
  | .atLeast => property ++ " >= " ++ parameter
  | .less => property ++ " < " ++ parameter
  | .atMost => property ++ " <= " ++ parameter
  | .matchesRegex => property ++ " =~ " ++ parameter
  | .isIn => property ++ " IN " ++ parameter
  | .notIn => "NOT " ++ property ++ " IN " ++ parameter

/-- The text of a test on the node with an alias. -/
def text (node : String) : Test → String
  | isNull field => property node field ++ " IS NULL"
  | isNotNull field => property node field ++ " IS NOT NULL"
  | compare field relation parameter =>
    comparison (property node field) relation (placeholder parameter)

end Test

/-- Conditions side by side. Without any, all of them hold and none of them does. -/
def join : Combinator → List String → String
  | .all, [] => "true"
  | .any, [] => "false"
  | .all, parts => String.intercalate " AND " parts
  | .any, parts => String.intercalate " OR " parts

namespace Condition

mutual

/-- The condition of a clause and the values of its parameters, numbered from `next` on. -/
def ofClause (next : Nat) : Clause → Condition × List Json
  | .term t =>
    let (atom, values) := Test.ofTerm next t
    (.test atom, values)
  | .group combinator clauses =>
    let (parts, values) := ofClauses next clauses
    (.group combinator parts, values)

/-- The conditions of clauses and the values of their parameters, numbered from `next` on. -/
def ofClauses (next : Nat) : List Clause → List Condition × List Json
  | [] => ([], [])
  | c :: cs =>
    let (part, values) := ofClause next c
    let (parts, others) := ofClauses (next + values.length) cs
    (part :: parts, values ++ others)

end

/-- The condition of a selection and the values of its parameters. -/
def ofSelection : Selection → Condition × List Json
  | .everything => (.group .all [], [])
  | .terms ts => ofClause 0 (.group .all (ts.map .term))
  | .group combinator clauses => ofClause 0 (.group combinator clauses)

mutual

/-- The text of a condition on the node with an alias. -/
def text (node : String) : Condition → String
  | test t => t.text node
  | group combinator parts => join combinator (partTexts node parts)

/-- The texts of the parts of a group. -/
def partTexts (node : String) : List Condition → List String
  | [] => []
  | test t :: parts => t.text node :: partTexts node parts
  | group combinator inner :: parts =>
    ("(" ++ join combinator (partTexts node inner) ++ ")") :: partTexts node parts

end

end Condition

/-- The values of parameters under their names. -/
def parameters (values : List Json) : Members Json :=
  Members.ofList (values.zipIdx.map fun (v, n) => (parameterName n, v))

/-- The condition of a tenant's selection: its text and the values of its parameters. -/
structure Where where
  clause : String
  params : Members Json
  deriving DecidableEq, Repr

/-- The condition of a tenant's selection on the node with an alias. -/
def Where.ofScoped (s : Scoped) (node : String) : Where :=
  let (condition, values) := Condition.ofSelection s.selection
  ⟨condition.text node, parameters values⟩

end TenantStore.Cypher
