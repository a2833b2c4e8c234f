import TenantStore.Cypher.Condition

/-!
# Formulas of selections

A selection stands for a formula over its terms, in which a group of one part is that part and a
group without parts is a truth value (`Formula.ofSelection`). A condition stands for the same
formula over the names of its parameters, and the parameters have the values of the terms, each of
them its own (`Condition.ofSelection_spec`).
-/

namespace TenantStore.Cypher

/-- A formula over properties that are compared with values of the type `ν`. -/
inductive Formula (ν : Type) where
  | truth (b : Bool)
  | isNull (field : String)
  | isNotNull (field : String)
  | compare (field : String) (relation : Relation) (value : ν)
  | group (combinator : Combinator) (parts : List (Formula ν))
  deriving Repr

namespace Formula

variable {μ ν : Type}

/-- The formula that formulas side by side stand for. -/
def collect : Combinator → List (Formula ν) → Formula ν
  | .all, [] => truth true
  | .any, [] => truth false
  | _, [f] => f
  | combinator, fs => group combinator fs

theorem collect_singleton (combinator : Combinator) (f : Formula ν) :
    collect combinator [f] = f := by
  cases combinator <;> rfl

mutual

/-- The formula with other values in place of those it has, if all of them have one. -/
def substitute (value : μ → Option ν) : Formula μ → Option (Formula ν)
  | truth b => some (truth b)
  | isNull field => some (isNull field)
  | isNotNull field => some (isNotNull field)
  | compare field relation v => (value v).map (compare field relation)
  | group combinator parts => (substituteList value parts).map (group combinator)

/-- The formulas with other values in place of those they have. -/
def substituteList (value : μ → Option ν) : List (Formula μ) → Option (List (Formula ν))
  | [] => some []
  | f :: fs =>
    match substitute value f, substituteList value fs with
    | some g, some gs => some (g :: gs)
    | _, _ => none

end

theorem substitute_collect {value : μ → Option ν} {fs : List (Formula μ)} {gs : List (Formula ν)}
    (h : substituteList value fs = some gs) (combinator : Combinator) :
    substitute value (collect combinator fs) = some (collect combinator gs) := by
  cases fs with
  | nil =>
      cases h
      cases combinator <;> rfl
  | cons f fs =>
      rw [substituteList] at h
      split at h
      · rename_i g gs' hg hgs
        cases h
        cases fs with
        | nil =>
            cases hgs
            rw [collect_singleton, collect_singleton, hg]
        | cons f' fs =>
            rw [substituteList] at hgs
            split at hgs
            · rename_i g' gs'' hg' hgs'
              cases hgs
              have hparts : substituteList value (f :: f' :: fs) = some (g :: g' :: gs'') := by
                simp only [substituteList, hg, hg', hgs']
              cases combinator <;> exact congrArg (Option.map (group _)) hparts
            · cases hgs
      · cases h

/-- The formula of a term: comparing with null asks whether there is a value, and a `like` pattern
may match anywhere in the text. -/
def ofTerm (t : Term) : Formula Json :=
  match t.predicate with
  | .eq .null => isNull t.field
  | .ne .null => isNotNull t.field
  | .eq v => compare t.field .equal v
  | .ne v => compare t.field .unequal v
  | .gt v => compare t.field .greater v
  | .gte v => compare t.field .atLeast v
  | .lt v => compare t.field .less v
  | .lte v => compare t.field .atMost v
  | .like p => compare t.field .matchesRegex (.string ("(?im).*" ++ p ++ ".*"))
  | .isIn vs => compare t.field .isIn (.array vs)
  | .notIn vs => compare t.field .notIn (.array vs)

mutual

/-- The formula of a clause. -/
def ofClause : Clause → Formula Json
  | .term t => ofTerm t
  | .group combinator clauses => collect combinator (ofClauses clauses)

/-- The formulas of clauses. -/
def ofClauses : List Clause → List (Formula Json)
  | [] => []
  | c :: cs => ofClause c :: ofClauses cs

end

/-- The formula of a selection. -/
def ofSelection : Selection → Formula Json
  | .everything => collect .all []
  | .terms ts => collect .all (ts.map ofTerm)
  | .group combinator clauses => collect combinator (ofClauses clauses)

theorem ofClauses_map_term (ts : List Term) : ofClauses (ts.map .term) = ts.map ofTerm := by
  induction ts with
  | nil => rfl
  | cons t ts ih => rw [List.map_cons, ofClauses, ih]; rfl

end Formula

/-- The value that a term compares with, unless it compares with null. -/
def boundValue? (t : Term) : Option Json :=
  match t.predicate with
  | .eq .null | .ne .null => none
  | .eq v | .ne v | .gt v | .gte v | .lt v | .lte v => some v
  | .like p => some (.string ("(?im).*" ++ p ++ ".*"))
  | .isIn vs | .notIn vs => some (.array vs)

/-! ## Formulas of conditions -/

/-- The formula of a test over the name of its parameter. -/
def Test.formula : Test → Formula String
  | isNull field => .isNull field
  | isNotNull field => .isNotNull field
  | compare field relation n => .compare field relation (parameterName n)

/-- The number of the parameter of a test. -/
def Test.parameter? : Test → Option Nat
  | compare _ _ n => some n
  | _ => none

namespace Condition

mutual

/-- The formula of a condition over the names of its parameters. -/
def formula : Condition → Formula String
  | test t => t.formula
  | group combinator parts => .collect combinator (formulas parts)

/-- The formulas of conditions. -/
def formulas : List Condition → List (Formula String)
  | [] => []
  | c :: cs => formula c :: formulas cs

end

mutual

/-- The numbers of the parameters of a condition from left to right. -/
def numbers : Condition → List Nat
  | test t => t.parameter?.toList
  | group _ parts => listNumbers parts

/-- The numbers of the parameters of conditions from left to right. -/
def listNumbers : List Condition → List Nat
  | [] => []
  | c :: cs => numbers c ++ listNumbers cs

end

end Condition

/-- The parameters with numbers from `next` on have these values. -/
def Supplies (value : String → Option Json) (next : Nat) (values : List Json) : Prop :=
  ∀ (n : Nat) (v : Json), values[n]? = some v → value (parameterName (next + n)) = some v

theorem supplies_append {value : String → Option Json} {next : Nat} {vs ws : List Json}
    (h : Supplies value next (vs ++ ws)) :
    Supplies value next vs ∧ Supplies value (next + vs.length) ws := by
  constructor
  · intro n v hv
    have hn : n < vs.length := (List.getElem?_eq_some_iff.mp hv).1
    refine h n v ?_
    rw [List.getElem?_append_left hn, hv]
  · intro n v hv
    have hv' : (vs ++ ws)[vs.length + n]? = some v := by
      rw [List.getElem?_append_right (by omega), Nat.add_sub_cancel_left, hv]
    rw [Nat.add_assoc]
    exact h _ v hv'

namespace Test

/-- A term has a parameter if it has a value, and with this value its test stands for the formula of
the term. -/
theorem ofTerm_spec (next : Nat) (t : Term) :
    (ofTerm next t).2 = (boundValue? t).toList ∧
      (ofTerm next t).1.parameter?.toList = List.range' next (boundValue? t).toList.length ∧
      ∀ value, Supplies value next (boundValue? t).toList →
        (ofTerm next t).1.formula.substitute value = some (.ofTerm t) := by
  have hvalue : ∀ (field : String) (relation : Relation) (v : Json) (value : String → Option Json),
      Supplies value next [v] →
        (compare field relation next).formula.substitute value =
          some (.compare field relation v) := by
    intro field relation v value hvalue
    rw [formula, Formula.substitute, ← Nat.add_zero next, hvalue 0 v rfl]
    rfl
  obtain ⟨field, predicate⟩ := t
  cases predicate with
  | eq v | ne v =>
      cases v with
      | null => exact ⟨rfl, rfl, fun _ _ => rfl⟩
      | _ => exact ⟨rfl, rfl, hvalue field _ _⟩
  | gt v | gte v | lt v | lte v => exact ⟨rfl, rfl, hvalue field _ v⟩
  | like p => exact ⟨rfl, rfl, hvalue field _ _⟩
  | isIn vs | notIn vs => exact ⟨rfl, rfl, hvalue field _ _⟩

end Test

namespace Condition

mutual

/-- The parameters of a clause have the values of its terms and are numbered one after the other,
and with these values its condition stands for the formula of the clause. -/
theorem ofClause_spec (next : Nat) : (c : Clause) →
    (ofClause next c).2 = c.terms.filterMap boundValue? ∧
      (ofClause next c).1.numbers = List.range' next (ofClause next c).2.length ∧
      ∀ value, Supplies value next (ofClause next c).2 →
        (ofClause next c).1.formula.substitute value = some (.ofClause c)
  | .term t => by
      obtain ⟨hvalues, hnumbers, hformula⟩ := Test.ofTerm_spec next t
      refine ⟨?_, ?_, ?_⟩
      · rw [Clause.terms, List.filterMap_cons, List.filterMap_nil]
        refine hvalues.trans ?_
        cases boundValue? t <;> rfl
      · show (Test.ofTerm next t).1.parameter?.toList =
          List.range' next (Test.ofTerm next t).2.length
        rw [hnumbers, hvalues]
      · intro value hsupplies
        exact hformula value (hvalues ▸ hsupplies)
  | .group combinator clauses => by
      obtain ⟨hvalues, hnumbers, hformula⟩ := ofClauses_spec next clauses
      refine ⟨hvalues, hnumbers, ?_⟩
      intro value hsupplies
      exact Formula.substitute_collect (hformula value hsupplies) combinator

/-- The same of clauses side by side, the numbers going on from one to the next. -/
theorem ofClauses_spec (next : Nat) : (cs : List Clause) →
    (ofClauses next cs).2 = (Clause.listTerms cs).filterMap boundValue? ∧
      listNumbers (ofClauses next cs).1 = List.range' next (ofClauses next cs).2.length ∧
      ∀ value, Supplies value next (ofClauses next cs).2 →
        Formula.substituteList value (formulas (ofClauses next cs).1) =
          some (Formula.ofClauses cs)
  | [] => ⟨rfl, rfl, fun _ _ => rfl⟩
  | c :: cs => by
      obtain ⟨hvalues, hnumbers, hformula⟩ := ofClause_spec next c
      obtain ⟨hvalues', hnumbers', hformula'⟩ :=
        ofClauses_spec (next + (ofClause next c).2.length) cs
      refine ⟨?_, ?_, ?_⟩
      · rw [Clause.listTerms, List.filterMap_append, ← hvalues, ← hvalues']
        rfl
      · rw [ofClauses, listNumbers, hnumbers, hnumbers', List.length_append, ← List.range'_append_1]
      · intro value hsupplies
        -- The numbers of the other clauses start behind the values of the first.
        obtain ⟨hfirst, hrest⟩ := supplies_append hsupplies
        rw [ofClauses, formulas, Formula.substituteList, hformula value hfirst,
          hformula' value hrest]
        rfl

end

/-- The same of a whole selection, whose parameters are numbered from zero on. -/
theorem ofSelection_spec (s : Selection) :
    (ofSelection s).2 = s.allTerms.filterMap boundValue? ∧
      (ofSelection s).1.numbers = List.range (ofSelection s).2.length ∧
      ∀ value, Supplies value 0 (ofSelection s).2 →
        (ofSelection s).1.formula.substitute value = some (.ofSelection s) := by
  rw [List.range_eq_range']
  cases s with
  | everything => exact ⟨rfl, rfl, fun _ _ => rfl⟩
  | terms ts =>
      obtain ⟨hvalues, hnumbers, hformula⟩ := ofClause_spec 0 (.group .all (ts.map .term))
      have hterms : (Clause.group .all (ts.map .term)).terms = ts := by
        rw [Clause.terms, Clause.listTerms_eq_flatMap, List.flatMap_map]
        exact List.flatMap_singleton' ts
      rw [hterms] at hvalues
      refine ⟨hvalues, hnumbers, ?_⟩
      rw [Formula.ofClause, Formula.ofClauses_map_term] at hformula
      exact hformula
  | group combinator clauses => exact ofClause_spec 0 (.group combinator clauses)

end Condition

end TenantStore.Cypher
