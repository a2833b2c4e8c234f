import TenantStore.Filter.Comparison

/-!
# Selections

A selection is a filter that has been brought into one of three shapes: no condition at all, a few
conditions on fields that all have to hold, or a group of clauses. `Selection.toJson` writes it as a
query document.
-/

namespace TenantStore

/-- A condition on a field. -/
structure Term where
  /-- The name of the field in the backend. -/
  field : String
  predicate : Predicate
  deriving DecidableEq, Repr

/-- The object with the condition under the name of the field. -/
def Term.toJson (t : Term) : Json :=
  .object [(t.field, t.predicate.toJson)]

/-- A part of a group: a condition or a group in turn. -/
inductive Clause where
  | term (t : Term)
  | group (combinator : Combinator) (clauses : List Clause)
  deriving Repr

namespace Clause

/-- A group in a query document. -/
def groupJson (combinator : Combinator) (clauses : List Json) : Json :=
  .object [(combinator.tag, .array clauses)]

mutual

/-- The clause in a query document. -/
def toJson : Clause → Json
  | .term t => t.toJson
  | .group combinator clauses => groupJson combinator (listJson clauses)

/-- The clauses of a group in a query document. -/
def listJson : List Clause → List Json
  | [] => []
  | c :: cs => toJson c :: listJson cs

end

mutual

/-- The conditions of the clause from left to right. -/
def terms : Clause → List Term
  | .term t => [t]
  | .group _ clauses => listTerms clauses

/-- The conditions of clauses from left to right. -/
def listTerms : List Clause → List Term
  | [] => []
  | c :: cs => terms c ++ listTerms cs

end

mutual

/-- Equality of clauses is decided structurally. -/
def decEq : (a b : Clause) → Decidable (a = b)
  | .term s, .term t => decidable_of_iff (s = t) (by simp)
  | .term _, .group _ _ => isFalse (by simp)
  | .group _ _, .term _ => isFalse (by simp)
  | .group c xs, .group d ys =>
    @decidable_of_iff _ (c = d ∧ xs = ys) (by simp)
      (@instDecidableAnd _ _ inferInstance (decEqList xs ys))

/-- Equality of lists of clauses is decided one after the other. -/
def decEqList : (xs ys : List Clause) → Decidable (xs = ys)
  | [], [] => isTrue rfl
  | [], _ :: _ => isFalse (by simp)
  | _ :: _, [] => isFalse (by simp)
  | x :: xs, y :: ys =>
    @decidable_of_iff _ (x = y ∧ xs = ys) (by simp)
      (@instDecidableAnd _ _ (decEq x y) (decEqList xs ys))

end

instance : DecidableEq Clause := decEq

theorem listJson_eq_map (cs : List Clause) : listJson cs = cs.map toJson := by
  induction cs with
  | nil => rfl
  | cons c cs ih => simp [listJson, ih]

theorem listTerms_eq_flatMap (cs : List Clause) : listTerms cs = cs.flatMap terms := by
  induction cs with
  | nil => rfl
  | cons c cs ih => simp [listTerms, ih]

end Clause

/-- A filter in one of three shapes. -/
inductive Selection where
  /-- No condition. -/
  | everything
  /-- Conditions that all have to hold. -/
  | terms (ts : List Term)
  /-- A group of clauses. -/
  | group (combinator : Combinator) (clauses : List Clause)
  deriving DecidableEq, Repr

namespace Selection

/-- The selection as a query document. Of two conditions on one field the later one stands. -/
def toJson : Selection → Json
  | everything => .object []
  | terms ts => Json.ofMembers (ts.map fun t => (t.field, t.predicate.toJson))
  | group combinator clauses => Clause.groupJson combinator (Clause.listJson clauses)

/-- The conditions of the selection from left to right. -/
def allTerms : Selection → List Term
  | everything => []
  | terms ts => ts
  | group _ clauses => Clause.listTerms clauses

end Selection
end TenantStore
