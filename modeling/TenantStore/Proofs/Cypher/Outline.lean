import TenantStore.Proofs.Cypher.Scan

/-!
# The parts of a condition

A condition has a name for every test and a placeholder for every parameter, and what is left of its
text is written by its outline alone: the condition without names and values. So the fields of a
selection cannot reach the text around them (`Condition.outside_ofSelection_outline`).
-/

namespace TenantStore

/-! ## Outlines -/

/-- The predicate without what it compares with, unless that is null. -/
def Predicate.outline : Predicate → Predicate
  | .eq .null => .eq .null
  | .ne .null => .ne .null
  | .eq _ => .eq (.string "")
  | .ne _ => .ne (.string "")
  | .gt _ => .gt (.string "")
  | .gte _ => .gte (.string "")
  | .lt _ => .lt (.string "")
  | .lte _ => .lte (.string "")
  | .like _ => .like ""
  | .isIn _ => .isIn []
  | .notIn _ => .notIn []

/-- The term without its name and what it compares with. -/
def Term.outline (t : Term) : Term :=
  ⟨"", t.predicate.outline⟩

namespace Clause

mutual

/-- The clause with the outlines of its terms. -/
def outline : Clause → Clause
  | .term t => .term t.outline
  | .group combinator clauses => .group combinator (listOutline clauses)

/-- The clauses with the outlines of their terms. -/
def listOutline : List Clause → List Clause
  | [] => []
  | c :: cs => outline c :: listOutline cs

end

theorem listOutline_map_term (ts : List Term) :
    listOutline (ts.map .term) = (ts.map Term.outline).map .term := by
  induction ts with
  | nil => rfl
  | cons t ts ih => rw [List.map_cons, listOutline, ih]; rfl

end Clause

/-- The selection with the outlines of its terms. -/
def Selection.outline : Selection → Selection
  | everything => everything
  | terms ts => terms (ts.map Term.outline)
  | group combinator clauses => group combinator (Clause.listOutline clauses)

namespace Cypher

/-! ## Tests -/

namespace Test

/-- The field that a test is about. -/
def field : Test → String
  | isNull field | isNotNull field | compare field _ _ => field

/-- The text of a test without the name of the field. -/
def outside (node : String) : Test → String
  | isNull _ => node ++ "." ++ " IS NULL"
  | isNotNull _ => node ++ "." ++ " IS NOT NULL"
  | compare _ relation parameter => comparison (node ++ ".") relation (placeholder parameter)

/-- The parts of a test. -/
def parts (node : String) (t : Test) : Parts :=
  ⟨[t.field], t.parameter?.toList.map parameterName, t.outside node⟩

/-- A property and a parameter with a symbol or a word between them. -/
theorem scans_comparison {node : String} (hnode : IsPlain node) (field : String) (n : Nat)
    {cs : String} (hplain : IsPlain cs) (hapart : StartsApart cs) :
    Scans (property node field ++ cs ++ placeholder n)
      ⟨[field], [parameterName n], node ++ "." ++ cs ++ placeholder n⟩ := by
  have hparameter := scans_dollar (isIdentifier_parameterName n)
  rw [String.append_assoc, String.append_assoc]
  exact (hparameter.plain_append hplain).property_append hnode (hapart.append _) field

theorem scans_text {node : String} (hnode : IsPlain node) (t : Test) :
    Scans (t.text node) (t.parts node) := by
  cases t with
  | isNull field =>
      have hrest : Scans " IS NULL" ⟨[], [], " IS NULL"⟩ := scans_plain (by decide)
      exact hrest.property_append hnode (by decide) field
  | isNotNull field =>
      have hrest : Scans " IS NOT NULL" ⟨[], [], " IS NOT NULL"⟩ := scans_plain (by decide)
      exact hrest.property_append hnode (by decide) field
  | compare field relation n =>
      cases relation with
      | notIn =>
          have hin := scans_comparison hnode field n (by decide : IsPlain " IN ") (by decide)
          have hnot := hin.plain_append (by decide : IsPlain "NOT ")
          simp only [← String.append_assoc] at hnot
          show Scans _ ⟨_, _, "NOT " ++ (node ++ ".") ++ " IN " ++ placeholder n⟩
          rwa [← String.append_assoc]
      | _ =>
          refine scans_comparison hnode field n ?_ ?_
          · decide
          · decide

/-- What a test leaves outside of names is that of the outline of its term. -/
theorem outline_spec (node : String) (next : Nat) (t : Term) :
    (ofTerm next t.outline).2.length = (ofTerm next t).2.length ∧
      (ofTerm next t.outline).1.outside node = (ofTerm next t).1.outside node := by
  obtain ⟨field, predicate⟩ := t
  cases predicate with
  | eq v | ne v => cases v <;> exact ⟨rfl, rfl⟩
  | _ => exact ⟨rfl, rfl⟩

theorem field_ofTerm (next : Nat) (t : Term) : (ofTerm next t).1.field = t.field := by
  obtain ⟨field, predicate⟩ := t
  cases predicate with
  | eq v | ne v => cases v <;> rfl
  | _ => rfl

end Test

/-! ## Conditions -/

/-- The parts of a text in parentheses. -/
def Parts.parenthesized (p : Parts) : Parts :=
  ⟨p.names, p.placeholders, "(" ++ p.outside ++ ")"⟩

theorem Scans.parenthesized {text : String} {p : Parts} (h : Scans text p) :
    Scans ("(" ++ text ++ ")") p.parenthesized := by
  have hclosed := h.append_plain (by decide : IsPlain ")") (by decide)
  rw [String.append_assoc, Parts.parenthesized, String.append_assoc]
  exact hclosed.plain_append (by decide)

namespace Condition

mutual

/-- The parts of a condition. -/
def parts (node : String) : Condition → Parts
  | test t => t.parts node
  | group combinator inner => .join combinator (listParts node inner)

/-- The parts of each of the conditions in a group. -/
def listParts (node : String) : List Condition → List Parts
  | [] => []
  | test t :: cs => t.parts node :: listParts node cs
  | group combinator inner :: cs =>
    (Parts.join combinator (listParts node inner)).parenthesized :: listParts node cs

end

section Scans

variable {node : String} (hnode : IsPlain node)

include hnode

theorem scans_partTexts (cs : List Condition) :
    List.Forall₂ Scans (partTexts node cs) (listParts node cs) := by
  cases cs with
  | nil =>
      rw [partTexts, listParts]
      exact .nil
  | cons c cs =>
      have hrest := scans_partTexts cs
      cases c with
      | test t =>
          rw [partTexts, listParts]
          exact .cons (t.scans_text hnode) hrest
      | group combinator inner =>
          have hinner := scans_join (scans_partTexts inner) combinator
          rw [partTexts, listParts]
          exact .cons hinner.parenthesized hrest

/-- The text of a condition has the parts of the condition, whatever its names are. -/
theorem scans_text (c : Condition) : Scans (c.text node) (c.parts node) := by
  cases c with
  | test t =>
      rw [text, parts]
      exact t.scans_text hnode
  | group combinator inner =>
      rw [text, parts]
      exact scans_join (scans_partTexts hnode inner) combinator

end Scans

/-- In a group a condition adds its own names and placeholders. -/
theorem exists_listParts_cons (node : String) (c : Condition) (cs : List Condition) :
    ∃ p : Parts, listParts node (c :: cs) = p :: listParts node cs ∧
      p.names = (c.parts node).names ∧ p.placeholders = (c.parts node).placeholders := by
  cases c with
  | test t =>
      rw [listParts, parts]
      exact ⟨_, rfl, rfl, rfl⟩
  | group combinator inner =>
      rw [listParts, parts]
      exact ⟨_, rfl, rfl, rfl⟩

mutual

/-- A condition has a placeholder for each of its parameters, in the same order. -/
theorem placeholders_parts (node : String) (c : Condition) :
    (c.parts node).placeholders = c.numbers.map parameterName := by
  cases c with
  | test t =>
      rw [parts, numbers]
      rfl
  | group combinator inner =>
      rw [parts, numbers]
      exact placeholders_listParts node inner

/-- The same of the conditions in a group. -/
theorem placeholders_listParts (node : String) (cs : List Condition) :
    (listParts node cs).flatMap Parts.placeholders = (listNumbers cs).map parameterName := by
  cases cs with
  | nil =>
      rw [listParts, listNumbers]
      rfl
  | cons c cs =>
      obtain ⟨p, hcons, -, hplaceholders⟩ := exists_listParts_cons node c cs
      rw [hcons, List.flatMap_cons, hplaceholders, placeholders_parts, placeholders_listParts,
        listNumbers, List.map_append]

end

/-! ## Clauses -/

theorem ofClauses_cons (next : Nat) (c : Clause) (cs : List Clause) :
    ofClauses next (c :: cs) =
      ((ofClause next c).1 :: (ofClauses (next + (ofClause next c).2.length) cs).1,
        (ofClause next c).2 ++ (ofClauses (next + (ofClause next c).2.length) cs).2) := by
  rw [ofClauses]

section Clauses

variable (node : String)

mutual

/-- The names in the condition of a clause are the fields of its terms. -/
theorem names_ofClause (next : Nat) (c : Clause) :
    ((ofClause next c).1.parts node).names = c.terms.map Term.field := by
  cases c with
  | term t =>
      rw [Clause.terms]
      exact congrArg ([·]) (Test.field_ofTerm next t)
  | group combinator clauses =>
      rw [Clause.terms]
      exact names_ofClauses next clauses

/-- The same of clauses side by side. -/
theorem names_ofClauses (next : Nat) (cs : List Clause) :
    (listParts node (ofClauses next cs).1).flatMap Parts.names =
      (Clause.listTerms cs).map Term.field := by
  cases cs with
  | nil =>
      rw [Clause.listTerms, ofClauses, listParts]
      rfl
  | cons c cs =>
      have hfirst := names_ofClause next c
      have hrest := names_ofClauses (next + (ofClause next c).2.length) cs
      obtain ⟨p, hcons, hnames, -⟩ := exists_listParts_cons node (ofClause next c).1
        (ofClauses (next + (ofClause next c).2.length) cs).1
      rw [Clause.listTerms, List.map_append, ← hfirst, ← hrest, ← hnames, ofClauses_cons, hcons,
        List.flatMap_cons]

end

mutual

/-- The condition of the outline of a clause has as many parameters, and leaves the same text
outside of names. -/
theorem outline_ofClause (next : Nat) (c : Clause) :
    (ofClause next c.outline).2.length = (ofClause next c).2.length ∧
      ((ofClause next c.outline).1.parts node).outside =
        ((ofClause next c).1.parts node).outside := by
  cases c with
  | term t =>
      rw [Clause.outline]
      exact Test.outline_spec node next t
  | group combinator clauses =>
      obtain ⟨hlength, houtside⟩ := outline_ofClauses next clauses
      rw [Clause.outline]
      exact ⟨hlength, congrArg (join combinator) houtside⟩

/-- The same of clauses side by side. -/
theorem outline_ofClauses (next : Nat) (cs : List Clause) :
    (ofClauses next (Clause.listOutline cs)).2.length = (ofClauses next cs).2.length ∧
      (listParts node (ofClauses next (Clause.listOutline cs)).1).map Parts.outside =
        (listParts node (ofClauses next cs).1).map Parts.outside := by
  cases cs with
  | nil =>
      rw [Clause.listOutline]
      exact ⟨rfl, rfl⟩
  | cons c cs =>
      obtain ⟨hlength, houtside⟩ := outline_ofClause next c
      obtain ⟨hlength', houtside'⟩ := outline_ofClauses (next + (ofClause next c).2.length) cs
      rw [Clause.listOutline, ofClauses_cons, ofClauses_cons, hlength]
      refine ⟨?_, ?_⟩
      · rw [List.length_append, List.length_append, hlength, hlength']
      · cases c with
        | term t =>
            rw [Clause.outline] at houtside ⊢
            rw [ofClause, ofClause, listParts, listParts]
            exact congrArg₂ List.cons houtside houtside'
        | group combinator clauses =>
            rw [Clause.outline] at houtside ⊢
            rw [ofClause, ofClause, listParts, listParts]
            have hclosed := congrArg (fun text => "(" ++ text ++ ")") houtside
            exact congrArg₂ List.cons hclosed houtside'

end

/-- The names in the condition of a selection are the fields of its terms. -/
theorem names_ofSelection (s : Selection) :
    ((ofSelection s).1.parts node).names = s.allTerms.map Term.field := by
  cases s with
  | everything =>
      rw [ofSelection, parts, listParts]
      rfl
  | terms ts =>
      have hnames := names_ofClause node 0 (.group .all (ts.map .term))
      rw [Clause.terms, Clause.listTerms_eq_flatMap, List.flatMap_map] at hnames
      exact hnames.trans (congrArg _ (List.flatMap_singleton' ts))
  | group combinator clauses => exact names_ofClause node 0 (.group combinator clauses)

/-- The placeholders in the condition of a selection are the names of its parameters. -/
theorem placeholders_ofSelection (s : Selection) :
    ((ofSelection s).1.parts node).placeholders =
      (List.range (s.allTerms.filterMap boundValue?).length).map parameterName := by
  obtain ⟨hvalues, hnumbers, -⟩ := ofSelection_spec s
  rw [placeholders_parts, hnumbers, hvalues]

/-- The text outside of names in the condition of a selection is that of its outline. -/
theorem outside_ofSelection_outline (s : Selection) :
    ((ofSelection s.outline).1.parts node).outside = ((ofSelection s).1.parts node).outside := by
  cases s with
  | everything => rfl
  | terms ts =>
      have houtside := (outline_ofClause node 0 (.group .all (ts.map .term))).2
      rwa [Clause.outline, Clause.listOutline_map_term] at houtside
  | group combinator clauses =>
      have houtside := (outline_ofClause node 0 (.group combinator clauses)).2
      rwa [Clause.outline] at houtside

end Clauses

end Condition

end Cypher

end TenantStore
