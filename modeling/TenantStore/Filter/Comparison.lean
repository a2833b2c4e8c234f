import TenantStore.Json.Printer

/-!
# Comparisons

A filter compares fields with operands. `Predicate.ofComparison` gives the predicate that a
comparison stands for, and `Predicate.toJson` writes it as the condition of a query document:
equality is the operand itself, everything else is an object with one operator (`like` has its flags
beside it).
-/

namespace TenantStore

/-- How the members of a group combine. -/
inductive Combinator where
  /-- All have to hold. -/
  | all
  /-- One has to hold. -/
  | any
  deriving DecidableEq, Repr

/-- The name of a combinator in a query document. -/
def Combinator.tag : Combinator → String
  | .all => "$and"
  | .any => "$or"

/-- The operators of comparisons. -/
inductive Operator where
  | eq
  | ne
  /-- The text matches a pattern. -/
  | like
  /-- Reads as `lt`. -/
  | notLike
  | gt
  | gte
  | lt
  | lte
  /-- The value is one of a list. -/
  | isIn
  /-- The value is none of a list. -/
  | notIn
  deriving DecidableEq, Repr

/-- What a field is compared with. -/
inductive Operand where
  | scalar (value : Json)
  | list (values : List Json)
  deriving DecidableEq, Repr

namespace Operand

/-- The operand as one value: a list is an array. -/
def value : Operand → Json
  | scalar v => v
  | list vs => .array vs

/-- The operand as a list: a value is the only one of it. -/
def values : Operand → List Json
  | scalar v => [v]
  | list vs => vs

/-- The operand as a pattern: a string itself, any other value by its text. -/
def pattern (o : Operand) : String :=
  match o.value with
  | .string s => s
  | v => v.text

end Operand

/-- The flags of a `like` pattern: case does not count, and lines have ends of their own. -/
def likeFlags : String := "im"

/-- The condition that a comparison puts on a field. -/
inductive Predicate where
  | eq (value : Json)
  | ne (value : Json)
  | gt (value : Json)
  | gte (value : Json)
  | lt (value : Json)
  | lte (value : Json)
  | like (pattern : String)
  | isIn (values : List Json)
  | notIn (values : List Json)
  deriving DecidableEq, Repr

namespace Predicate

/-- The predicate of a comparison. -/
def ofComparison (operator : Operator) (operand : Operand) : Predicate :=
  match operator with
  | .eq => eq operand.value
  | .ne => ne operand.value
  | .like => like operand.pattern
  | .notLike | .lt => lt operand.value
  | .gt => gt operand.value
  | .gte => gte operand.value
  | .lte => lte operand.value
  | .isIn => isIn operand.values
  | .notIn => notIn operand.values

/-- The condition in a query document. -/
def toJson : Predicate → Json
  | eq v => v
  | ne v => .object [("$ne", v)]
  | gt v => .object [("$gt", v)]
  | gte v => .object [("$gte", v)]
  | lt v => .object [("$lt", v)]
  | lte v => .object [("$lte", v)]
  | like p => .object [("$options", .string likeFlags), ("$regex", .string p)]
  | isIn vs => .object [("$in", .array vs)]
  | notIn vs => .object [("$nin", .array vs)]

end Predicate
end TenantStore
