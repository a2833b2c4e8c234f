import TenantStore.Error
import TenantStore.Filter.Comparison
import TenantStore.Filter.Naming
import TenantStore.Filter.Selection

/-!
# Filter events

A parser of filter text reports what it reads as events: groups that start and end, and comparisons.
`Expr` is the nested form of a balanced stream of events, and `Expr.events` its events in order.
-/

namespace TenantStore

/-- Something that a parser of filter text reports. -/
inductive FilterEvent where
  | groupStart (combinator : Combinator)
  /-- The innermost group ends. -/
  | groupEnd
  | comparison (field : String) (operator : Operator) (operand : Operand)
  deriving DecidableEq, Repr

/-- Why a stream of events is no filter. -/
inductive FilterError where
  /-- A group ends and none is open. -/
  | unbalancedGroupEnd
  /-- The stream ends and groups are open. -/
  | unclosedGroups (count : Nat)
  /-- A comparison has no field. -/
  | emptyField
  /-- The text was not read. -/
  | parse (reason : String)
  deriving DecidableEq, Repr

namespace FilterError

/-- The wording of an error. -/
def message : FilterError → String
  | unbalancedGroupEnd => "group end without a matching group start"
  | unclosedGroups count => toString count ++ " group(s) still open at the end of the filter"
  | emptyField => "comparison without a field name"
  | parse reason => "filter parse error: " ++ reason

/-- The error breaks the pairing of groups. -/
def isContractViolation : FilterError → Bool
  | unbalancedGroupEnd | unclosedGroups _ => true
  | emptyField | parse _ => false

/-- As an error of the store, broken pairing is told apart from everything else. -/
def toStoreError (e : FilterError) : StoreError :=
  if e.isContractViolation then .contractViolation e.message else .invalidFilter e.message

end FilterError

/-- A parser of filter text, which reports events or refuses the text. -/
abbrev FilterParser := String → Except FilterError (List FilterEvent)

namespace FilterParser

/-- The parser that knows the events of some texts, the first entry of a text counting, and refuses
every other text. -/
def ofTable (table : List (String × List FilterEvent)) : FilterParser := fun text =>
  match table.lookup text with
  | some events => .ok events
  | none => .error (.parse ("unexpected filter '" ++ text ++ "'"))

end FilterParser

/-- A filter as a nested expression. -/
inductive Expr where
  | comparison (field : String) (operator : Operator) (operand : Operand)
  | group (combinator : Combinator) (members : List Expr)
  deriving Repr

namespace Expr

mutual

/-- The events that report an expression. -/
def events : Expr → List FilterEvent
  | comparison field operator operand => [.comparison field operator operand]
  | group combinator members => .groupStart combinator :: (listEvents members ++ [.groupEnd])

/-- The events that report expressions one after the other. -/
def listEvents : List Expr → List FilterEvent
  | [] => []
  | e :: es => events e ++ listEvents es

end

mutual

/-- The clause that an expression means in a backend. -/
def clause (naming : Naming) : Expr → Clause
  | comparison field operator operand =>
    .term ⟨naming.native field, Predicate.ofComparison operator operand⟩
  | group combinator members => .group combinator (clauses naming members)

/-- The clauses that expressions mean. -/
def clauses (naming : Naming) : List Expr → List Clause
  | [] => []
  | e :: es => clause naming e :: clauses naming es

end

end Expr
end TenantStore
