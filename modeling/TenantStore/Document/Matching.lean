import TenantStore.Filter.Scoped
import TenantStore.Json.Order
import TenantStore.Pattern.Engine

/-!
# Query documents

Documents are objects, and so are the queries on them. A query puts a condition on each of its
members: under `$and` and `$or` stand queries of which all or any have to match, under every other
name stands a condition on the field of that name. A condition is an object of operators if it is an
object with at least one member and the names of all of them start with a dollar; any other value
has to be equal. A field that is missing counts as null. Whether a regular expression is found in a
text is for a search engine to say.

`Scoped.query` writes a selection as a query.
-/

namespace TenantStore

/-- The members of a stored object, or of a query. -/
abbrev Document := Members Json

namespace Document

/-- The value of a field, null if it is missing. -/
def field (d : Document) (name : String) : Json :=
  (Members.get? d name).getD .null

/-- The name is that of an operator. -/
def isOperator (name : String) : Bool :=
  name.toList.head? = some '$'

variable [SearchEngine]

/-- A pattern is found in a text under flags. -/
def matchesPattern (value pattern : Json) (flags : Option Json) : Bool :=
  match value, pattern with
  | .string text, .string pattern =>
    let pattern :=
      match flags with
      | some (.string flags) => if flags = "" then pattern else "(?" ++ flags ++ ")" ++ pattern
      | _ => pattern
    SearchEngine.finds pattern text
  | _, _ => false

/-- A value meets an operator. The flags of a pattern are an operator of their own, which every
value meets. -/
def meets (value : Json) (operators : Members Json) (operator : String) (operand : Json) : Bool :=
  let order := Json.compare? value operand
  let candidates := operand.items?.getD []
  if operator = "$ne" then !Json.equals value operand
  else if operator = "$gt" then order = some .gt
  else if operator = "$gte" then order = some .gt || order = some .eq
  else if operator = "$lt" then order = some .lt
  else if operator = "$lte" then order = some .lt || order = some .eq
  else if operator = "$in" then candidates.any (Json.equals value)
  else if operator = "$nin" then !candidates.any (Json.equals value)
  else if operator = "$regex" then
    matchesPattern value operand (Members.get? operators "$options")
  else operator = "$options"

/-- A value meets a condition. -/
def meetsCondition (value : Json) (condition : Json) : Bool :=
  match condition with
  | .object operators =>
    if !operators.isEmpty && operators.all (isOperator ·.1) then
      operators.all fun (operator, operand) => meets value operators operator operand
    else Json.equals value condition
  | _ => Json.equals value condition

mutual

/-- The document meets the condition that a query puts under a name. -/
def matchesEntry (d : Document) (name : String) : Json → Bool
  | .array queries =>
    if name = "$and" then matchesAll d queries
    else if name = "$or" then matchesAny d queries
    else meetsCondition (field d name) (.array queries)
  | condition =>
    if name = "$and" then true
    else if name = "$or" then false
    else meetsCondition (field d name) condition

/-- The document matches the query: it meets the conditions under all names. -/
def matchesQuery (d : Document) : List (String × Json) → Bool
  | [] => true
  | (name, condition) :: rest => matchesEntry d name condition && matchesQuery d rest

/-- The document matches all queries of a list; what is no object is no query. -/
def matchesAll (d : Document) : List Json → Bool
  | [] => true
  | .object query :: rest => matchesQuery d query && matchesAll d rest
  | _ :: rest => matchesAll d rest

/-- The document matches some query of a list; what is no object is no query. -/
def matchesAny (d : Document) : List Json → Bool
  | [] => false
  | .object query :: rest => matchesQuery d query || matchesAny d rest
  | _ :: rest => matchesAny d rest

end

theorem matchesQuery_eq_all (d : Document) (query : List (String × Json)) :
    matchesQuery d query = query.all fun (name, condition) => matchesEntry d name condition := by
  induction query with
  | nil => rfl
  | cons m rest ih => simp [matchesQuery, ih]

end Document

namespace Selection

/-- The query of a selection. Of two conditions on one field the later one stands. -/
def query : Selection → Document
  | everything => []
  | terms ts => ts.foldl (fun d t => Members.insert d t.field t.predicate.toJson) []
  | group combinator clauses => [(combinator.tag, .array (clauses.map Clause.toJson))]

end Selection

/-- The query of a tenant's selection. -/
def Scoped.query (s : Scoped) : Document :=
  s.selection.query

end TenantStore
