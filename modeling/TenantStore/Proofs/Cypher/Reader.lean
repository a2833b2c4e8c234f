import TenantStore.Proofs.Cypher.Formula
import TenantStore.Proofs.Cypher.Token
import Mathlib.Data.List.Forall2

/-!
# Reading conditions

A condition is read token by token. The reader keeps what it has read of every open parenthesis: the
alternatives that `OR` has ended and the factors that `AND` has joined since (`Level`), so `AND`
binds tighter than `OR`. The tokens of a condition read as its formula (`run_tokens`).
-/

namespace TenantStore.Cypher

namespace Relation

/-- The relation that a symbol stands for. -/
def ofSymbol? (cs : List Char) : Option Relation :=
  if cs = "=".toList then some equal
  else if cs = "<>".toList then some unequal
  else if cs = ">".toList then some greater
  else if cs = ">=".toList then some atLeast
  else if cs = "<".toList then some less
  else if cs = "<=".toList then some atMost
  else if cs = "=~".toList then some matchesRegex
  else none

end Relation

/-! ## The reader -/

/-- What has been read of a condition up to here, within its parentheses. -/
structure Level where
  alternatives : List (Formula String)
  factors : List (Formula String)

namespace Level

/-- Nothing has been read. -/
def empty : Level :=
  ⟨[], []⟩

/-- One more factor has been read. -/
def add (l : Level) (f : Formula String) : Level :=
  { l with factors := l.factors ++ [f] }

/-- The alternatives up to here, the one that the factors make among them. -/
def all (l : Level) : List (Formula String) :=
  l.alternatives ++ [.collect .all l.factors]

/-- The alternative ends. -/
def next (l : Level) : Level :=
  ⟨l.all, []⟩

/-- What has been read as a formula. -/
def formula (l : Level) : Formula String :=
  .collect .any l.all

end Level

/-- What may come next. -/
inductive Phase where
  /-- A test, a truth value or a parenthesis. -/
  | operand
  /-- The property of a test behind `NOT`. -/
  | negation
  /-- A relation, or `IS` unless the test is negated. -/
  | subject (field : String) (negated : Bool)
  /-- `NULL` or `NOT`, behind `IS`. -/
  | presence (field : String)
  /-- `NULL`, behind `IS NOT`. -/
  | absence (field : String)
  /-- The parameter. -/
  | value (field : String) (relation : Relation)
  /-- `AND`, `OR`, the end of the parenthesis or of the text. -/
  | operator

/-- Where the reading stands. -/
structure Reader where
  phase : Phase
  level : Level
  /-- What was read in front of the open parentheses, innermost first. -/
  enclosing : List Level

namespace Reader

/-- Nothing has been read. -/
def start : Reader :=
  ⟨.operand, .empty, []⟩

/-- The reader in another phase. -/
def become (r : Reader) (phase : Phase) : Reader :=
  { r with phase }

/-- An operand has been read. -/
def take (r : Reader) (f : Formula String) : Reader :=
  { r with phase := .operator, level := r.level.add f }

/-- Reads a word. -/
def readWord (r : Reader) (w : List Char) : Option Reader :=
  match r.phase with
  | .operand =>
    if w = "NOT".toList then some (r.become .negation)
    else if w = "true".toList then some (r.take (.truth true))
    else if w = "false".toList then some (r.take (.truth false))
    else none
  | .subject field negated =>
    if w = "IN".toList then some (r.become (.value field (if negated then .notIn else .isIn)))
    else if w = "IS".toList ∧ negated = false then some (r.become (.presence field))
    else none
  | .presence field =>
    if w = "NULL".toList then some (r.take (.isNull field))
    else if w = "NOT".toList then some (r.become (.absence field))
    else none
  | .absence field => if w = "NULL".toList then some (r.take (.isNotNull field)) else none
  | .operator =>
    if w = "AND".toList then some (r.become .operand)
    else if w = "OR".toList then some { r with phase := .operand, level := r.level.next }
    else none
  | _ => none

/-- Reads a token. -/
def step (r : Reader) (t : Token) : Option Reader :=
  match t, r.phase with
  | .blank, _ => some r
  | .word w, _ => r.readWord w
  | .property _ field, .operand => some (r.become (.subject field false))
  | .property _ field, .negation => some (r.become (.subject field true))
  | .symbol cs, .subject field false =>
    (Relation.ofSymbol? cs).map fun relation => r.become (.value field relation)
  | .parameter cs, .value field relation =>
    some (r.take (.compare field relation (String.ofList cs)))
  | .opening, .operand => some ⟨.operand, .empty, r.level :: r.enclosing⟩
  | .closing, .operator =>
    match r.enclosing with
    | outer :: rest => some ⟨.operator, outer.add r.level.formula, rest⟩
    | [] => none
  | _, _ => none

/-- Reads tokens. -/
def run (r : Reader) (ts : List Token) : Option Reader :=
  ts.foldlM step r

/-- What has been read, if it is complete. -/
def finish? (r : Reader) : Option (Formula String) :=
  match r.phase, r.enclosing with
  | .operator, [] => some r.level.formula
  | _, _ => none

end Reader

/-- The formula that a text stands for, over the names of its parameters. -/
def read (text : String) : Option (Formula String) := do
  let ts ← lex text.toList
  let r ← Reader.start.run ts
  r.finish?

/-- The names of the parameters of a text from left to right. -/
def parameterNames (text : String) : Option (List String) :=
  (lex text.toList).map (List.filterMap Token.parameter?)

/-! ## The tokens of a condition -/

/-- The token between a property and a parameter. -/
def Relation.token : Relation → Token
  | equal => .symbol "=".toList
  | unequal => .symbol "<>".toList
  | greater => .symbol ">".toList
  | atLeast => .symbol ">=".toList
  | less => .symbol "<".toList
  | atMost => .symbol "<=".toList
  | matchesRegex => .symbol "=~".toList
  | isIn | notIn => .word "IN".toList

/-- The tokens of a comparison of a property with a parameter. -/
def Relation.tokens (property parameter : Token) (relation : Relation) : List Token :=
  let comparison := [property, .blank, relation.token, .blank, parameter]
  match relation with
  | notIn => .word "NOT".toList :: .blank :: comparison
  | _ => comparison

/-- The tokens of a test. -/
def Test.tokens (node : String) : Test → List Token
  | isNull field =>
    [.property node.toList field, .blank, .word "IS".toList, .blank, .word "NULL".toList]
  | isNotNull field =>
    [.property node.toList field, .blank, .word "IS".toList, .blank, .word "NOT".toList, .blank,
      .word "NULL".toList]
  | compare field relation n =>
    relation.tokens (.property node.toList field) (.parameter (parameterName n).toList)

/-- The tokens between the parts of a group. -/
def separator : Combinator → List Token
  | .all => [.blank, .word "AND".toList, .blank]
  | .any => [.blank, .word "OR".toList, .blank]

/-- The tokens of conditions side by side. -/
def joinTokens : Combinator → List (List Token) → List Token
  | .all, [] => [.word "true".toList]
  | .any, [] => [.word "false".toList]
  | combinator, parts => (separator combinator).intercalate parts

namespace Condition

mutual

/-- The tokens of a condition. -/
def tokens (node : String) : Condition → List Token
  | test t => t.tokens node
  | group combinator parts => joinTokens combinator (partTokens node parts)

/-- The tokens of the parts of a group. -/
def partTokens (node : String) : List Condition → List (List Token)
  | [] => []
  | test t :: parts => t.tokens node :: partTokens node parts
  | group combinator inner :: parts =>
    (.opening :: (joinTokens combinator (partTokens node inner) ++ [.closing])) ::
      partTokens node parts

end

end Condition

/-! ## Reading the tokens of a condition -/

/-- The tokens are read as one factor. -/
def Operand (ts : List Token) (f : Formula String) : Prop :=
  ∀ (l : Level) (enclosing : List Level),
    Reader.run ⟨.operand, l, enclosing⟩ ts = some ⟨.operator, l.add f, enclosing⟩

/-- The tokens are all that is read within their parentheses. -/
def Whole (ts : List Token) (f : Formula String) : Prop :=
  ∀ enclosing : List Level, ∃ l : Level,
    Reader.run ⟨.operand, .empty, enclosing⟩ ts = some ⟨.operator, l, enclosing⟩ ∧ l.formula = f

theorem Reader.run_append (r : Reader) (ts us : List Token) :
    r.run (ts ++ us) = (r.run ts).bind fun r' => r'.run us :=
  List.foldlM_append

theorem Operand.whole {ts : List Token} {f : Formula String} (h : Operand ts f) : Whole ts f := by
  intro enclosing
  refine ⟨_, h .empty enclosing, ?_⟩
  show Formula.collect .any [.collect .all [f]] = f
  rw [Formula.collect_singleton, Formula.collect_singleton]

/-- What is read within parentheses is a factor outside of them. -/
theorem Whole.operand {ts : List Token} {f : Formula String} (h : Whole ts f) :
    Operand (.opening :: (ts ++ [.closing])) f := by
  intro l enclosing
  obtain ⟨inner, hrun, hformula⟩ := h (l :: enclosing)
  show Reader.run ⟨.operand, .empty, l :: enclosing⟩ (ts ++ [.closing]) = _
  rw [Reader.run_append, hrun, ← hformula]
  rfl

theorem operand_test (node : String) (t : Test) : Operand (t.tokens node) t.formula := by
  intro l enclosing
  cases t with
  | isNull field => rfl
  | isNotNull field => rfl
  | compare field relation n =>
      have hname : String.ofList (parameterName n).toList = parameterName n := String.ofList_toList
      rw [Test.formula, ← hname]
      cases relation <;> rfl

/-- Factors with `AND` between them. -/
theorem run_intercalate_all {tss : List (List Token)} {fs : List (Formula String)}
    (h : List.Forall₂ Operand tss fs) (hne : tss ≠ []) (l : Level) (enclosing : List Level) :
    Reader.run ⟨.operand, l, enclosing⟩ ((separator .all).intercalate tss) =
      some ⟨.operator, ⟨l.alternatives, l.factors ++ fs⟩, enclosing⟩ := by
  induction h generalizing l with
  | nil => exact absurd rfl hne
  | @cons ts f tss fs hfirst hrest ih =>
      cases hrest with
      | nil => rw [List.intercalate_singleton, hfirst]; rfl
      | @cons ts' f' tss fs hsecond hrest =>
          rw [List.intercalate_cons_cons, List.append_assoc, Reader.run_append, hfirst,
            Option.bind_some, Reader.run_append]
          refine (ih (List.cons_ne_nil _ _) (l.add f)).trans ?_
          simp [Level.add]

/-- Alternatives with `OR` between them. -/
theorem run_intercalate_any {tss : List (List Token)} {fs : List (Formula String)}
    (h : List.Forall₂ Operand tss fs) (hne : tss ≠ []) (done : List (Formula String))
    (enclosing : List Level) :
    ∃ l : Level, Reader.run ⟨.operand, ⟨done, []⟩, enclosing⟩ ((separator .any).intercalate tss) =
        some ⟨.operator, l, enclosing⟩ ∧ l.all = done ++ fs := by
  induction h generalizing done with
  | nil => exact absurd rfl hne
  | @cons ts f tss fs hfirst hrest ih =>
      cases hrest with
      | nil => exact ⟨_, by rw [List.intercalate_singleton, hfirst], rfl⟩
      | @cons ts' f' tss fs hsecond hrest =>
          -- `OR` ends an alternative of one factor, which stands for itself.
          obtain ⟨l, hrun, hall⟩ := ih (List.cons_ne_nil _ _) (done ++ [f])
          refine ⟨l, ?_, by rw [hall, List.append_assoc]; rfl⟩
          rw [List.intercalate_cons_cons, List.append_assoc, Reader.run_append, hfirst,
            Option.bind_some, Reader.run_append]
          exact hrun

theorem joinTokens_of_ne_nil (combinator : Combinator) {tss : List (List Token)} (h : tss ≠ []) :
    joinTokens combinator tss = (separator combinator).intercalate tss := by
  cases tss with
  | nil => exact absurd rfl h
  | cons ts tss => cases combinator <;> rfl

/-- Conditions side by side. -/
theorem whole_joinTokens {tss : List (List Token)} {fs : List (Formula String)}
    (h : List.Forall₂ Operand tss fs) (combinator : Combinator) :
    Whole (joinTokens combinator tss) (.collect combinator fs) := by
  intro enclosing
  by_cases hne : tss = []
  · subst hne
    cases h
    cases combinator <;> exact ⟨_, rfl, rfl⟩
  · rw [joinTokens_of_ne_nil combinator hne]
    cases combinator with
    | all =>
        refine ⟨⟨[], fs⟩, ?_, Formula.collect_singleton .any _⟩
        exact run_intercalate_all h hne .empty enclosing
    | any =>
        obtain ⟨l, hrun, hall⟩ := run_intercalate_any h hne [] enclosing
        refine ⟨l, hrun, ?_⟩
        rw [Level.formula, hall, List.nil_append]

namespace Condition

mutual

/-- The tokens of a condition read as its formula. -/
theorem whole_tokens (node : String) : (c : Condition) → Whole (c.tokens node) c.formula
  | .test t => (operand_test node t).whole
  | .group combinator parts => whole_joinTokens (operand_partTokens node parts) combinator

/-- The tokens of every part of a group read as a factor. -/
theorem operand_partTokens (node : String) :
    (parts : List Condition) → List.Forall₂ Operand (partTokens node parts) (formulas parts)
  | [] => by
      rw [partTokens, formulas]
      exact .nil
  | .test t :: parts => by
      rw [partTokens, formulas, formula]
      exact .cons (operand_test node t) (operand_partTokens node parts)
  | .group combinator inner :: parts => by
      have hinner := whole_joinTokens (operand_partTokens node inner) combinator
      rw [partTokens, formulas, formula]
      exact .cons hinner.operand (operand_partTokens node parts)

end

end Condition

end TenantStore.Cypher
