import TenantStore.Proofs.Cypher.Parameter
import TenantStore.Proofs.Cypher.Reader

/-!
# Reading what was written

The text of a condition has the tokens of the condition, whatever the names of its properties are
(`Condition.spells_text`), and these read as its formula. So the text of a selection together with
its parameters stands for the formula of the selection and for no other (`Where.read_ofScoped`).
-/

namespace TenantStore.Cypher

/-- In front of another text, the text adds its tokens to those of the other. -/
def Spells (text : String) (ts : List Token) : Prop :=
  ∀ (rest : List Char) (us : List Token), lex rest = some us → Apart us →
    lex (text.toList ++ rest) = some (ts ++ us)

theorem apart_blank (ts : List Token) : Apart (.blank :: ts) := by
  rintro t ⟨⟩
  rfl

theorem apart_closing (ts : List Token) : Apart (.closing :: ts) := by
  rintro t ⟨⟩
  rfl

theorem spells_word {w : String} (hw : IsIdentifier w) : Spells w [.word w.toList] :=
  fun _ _ hrest hus => lex_word hrest hw hus

/-! ## Tests -/

section Test

variable {node : String} (hnode : IsIdentifier node)

include hnode

/-- A property and a text behind it that starts with a blank. -/
theorem spells_property_append (field : String) {cs : String} {ts : List Token}
    (hcs : Spells cs ts) (hblank : cs.toList.head? = some ' ') :
    Spells (property node field ++ cs) (.property node.toList field :: ts) := by
  intro rest us hrest hus
  have hhead : (cs.toList ++ rest).head? ≠ some backtick := by
    rw [List.head?_append, hblank]
    exact (by decide : some ' ' ≠ some backtick)
  rw [String.toList_append, List.append_assoc]
  exact lex_property (hcs rest us hrest hus) hnode field hhead

/-- A property and a parameter with a symbol or a word between them. -/
theorem spells_comparison (field : String) (n : Nat) (cs : String) {t : Token}
    (hblank : cs.toList.head? = some ' ') (hplain : backtick ∉ cs.toList)
    (hts : ∀ us, cs.toList.foldr Token.push (.parameter (parameterName n).toList :: us) =
      .blank :: t :: .blank :: .parameter (parameterName n).toList :: us) :
    Spells (property node field ++ cs ++ placeholder n)
      [.property node.toList field, .blank, t, .blank, .parameter (parameterName n).toList] := by
  rw [String.append_assoc]
  refine spells_property_append hnode field ?_ ?_
  · intro rest us hrest hus
    rw [String.toList_append, List.append_assoc, lex_append (lex_placeholder hrest hus n) hplain,
      hts]
    rfl
  · rw [String.toList_append, List.head?_append, hblank]
    rfl

theorem spells_test (t : Test) : Spells (t.text node) (t.tokens node) := by
  cases t with
  | isNull field =>
      refine spells_property_append hnode field ?_ (by decide)
      intro rest us hrest hus
      have hnull := lex_word hrest (by decide : IsIdentifier "NULL") hus
      have hplain : backtick ∉ " IS ".toList := by decide
      exact lex_append hnull hplain
  | isNotNull field =>
      refine spells_property_append hnode field ?_ (by decide)
      intro rest us hrest hus
      have hnull := lex_word hrest (by decide : IsIdentifier "NULL") hus
      have hplain : backtick ∉ " IS NOT ".toList := by decide
      exact lex_append hnull hplain
  | compare field relation n =>
      cases relation with
      | notIn =>
          intro rest us hrest hus
          have hin := spells_comparison hnode field n " IN " (by decide) (by decide) (fun _ => rfl)
            rest us hrest hus
          have hplain : backtick ∉ "NOT ".toList := by decide
          have htext : "NOT " ++ property node field ++ " IN " ++ placeholder n =
              "NOT " ++ (property node field ++ " IN " ++ placeholder n) := by
            simp only [String.append_assoc]
          show lex (("NOT " ++ property node field ++ " IN " ++ placeholder n).toList ++ rest) = _
          rw [htext, String.toList_append, List.append_assoc, lex_append hin hplain]
          rfl
      | _ =>
          refine spells_comparison hnode field n _ ?_ ?_ fun _ => rfl
          · decide
          · decide

end Test

/-! ## Conditions -/

/-- Texts with a separator between them that starts with a blank. -/
theorem spells_intercalate {texts : List String} {tss : List (List Token)}
    (h : List.Forall₂ Spells texts tss) (hne : texts ≠ []) {sep : String} {ts : List Token}
    (hsep : ∀ rest us, lex rest = some us → lex (sep.toList ++ rest) = some (.blank :: ts ++ us)) :
    Spells (sep.intercalate texts) ((.blank :: ts).intercalate tss) := by
  induction h with
  | nil => exact absurd rfl hne
  | @cons text ts' texts tss hfirst hrest ih =>
      cases hrest with
      | nil => rwa [String.intercalate_singleton, List.intercalate_singleton]
      | @cons text' ts'' texts tss hsecond hrest =>
          intro rest us hlex hus
          -- The separator starts with a blank, so the text in front of it ends there.
          have htail := ih (List.cons_ne_nil _ _) rest us hlex hus
          rw [String.intercalate_cons_cons, List.intercalate_cons_cons, String.toList_append,
            String.toList_append, List.append_assoc, List.append_assoc,
            hfirst _ _ (hsep _ _ htail) (apart_blank _)]
          simp

theorem spells_join {texts : List String} {tss : List (List Token)}
    (h : List.Forall₂ Spells texts tss) (combinator : Combinator) :
    Spells (join combinator texts) (joinTokens combinator tss) := by
  have hand : ∀ rest us, lex rest = some us →
      lex (" AND ".toList ++ rest) = some (separator .all ++ us) :=
    fun _ _ hlex => lex_append hlex (by decide)
  have hor : ∀ rest us, lex rest = some us →
      lex (" OR ".toList ++ rest) = some (separator .any ++ us) :=
    fun _ _ hlex => lex_append hlex (by decide)
  cases h with
  | nil =>
      cases combinator with
      | all => exact spells_word (by decide)
      | any => exact spells_word (by decide)
  | cons hfirst hrest =>
      have hparts := List.Forall₂.cons hfirst hrest
      cases combinator with
      | all => exact spells_intercalate hparts (List.cons_ne_nil _ _) hand
      | any => exact spells_intercalate hparts (List.cons_ne_nil _ _) hor

/-- A text in parentheses. -/
theorem spells_parenthesized {text : String} {ts : List Token} (h : Spells text ts) :
    Spells ("(" ++ text ++ ")") (.opening :: (ts ++ [.closing])) := by
  intro rest us hlex hus
  have hclosing : lex (")".toList ++ rest) = some (.closing :: us) := lex_append hlex (by decide)
  have hinner := h _ _ hclosing (apart_closing us)
  rw [String.toList_append, String.toList_append, List.append_assoc, List.append_assoc,
    lex_append hinner (by decide)]
  simp [Token.push, isWordChar]

namespace Condition

variable {node : String} (hnode : IsIdentifier node)

include hnode

/-- The parts of a group are written with their tokens. -/
theorem spells_partTexts (parts : List Condition) :
    List.Forall₂ Spells (partTexts node parts) (partTokens node parts) := by
  cases parts with
  | nil =>
      rw [partTexts, partTokens]
      exact .nil
  | cons part parts =>
      have hrest := spells_partTexts parts
      cases part with
      | test t =>
          rw [partTexts, partTokens]
          exact .cons (spells_test hnode t) hrest
      | group combinator inner =>
          have hinner := spells_join (spells_partTexts inner) combinator
          rw [partTexts, partTokens]
          exact .cons (spells_parenthesized hinner) hrest

/-- A condition is written with its tokens. -/
theorem spells_text (c : Condition) : Spells (c.text node) (c.tokens node) := by
  cases c with
  | test t =>
      rw [text, tokens]
      exact spells_test hnode t
  | group combinator parts =>
      rw [text, tokens]
      exact spells_join (spells_partTexts hnode parts) combinator

/-- The text of a condition is read as its tokens. -/
theorem lex_text (c : Condition) : lex (c.text node).toList = some (c.tokens node) := by
  have hempty : lex [] = some [] := rfl
  have htext := spells_text hnode c [] [] hempty fun t ht => nomatch ht
  rwa [List.append_nil, List.append_nil] at htext

/-- The text of a condition reads as its formula. -/
theorem read_text (c : Condition) : read (c.text node) = some c.formula := by
  obtain ⟨l, hrun, hformula⟩ := whole_tokens node c []
  rw [read, lex_text hnode, Option.bind_eq_bind, Option.bind_some]
  show (Reader.run ⟨.operand, .empty, []⟩ (c.tokens node)).bind Reader.finish? = _
  rw [hrun, ← hformula]
  rfl

end Condition

/-! ## Parameters -/

theorem parameters_intercalate {seps : List Token}
    (hseps : seps.filterMap Token.parameter? = []) (tss : List (List Token)) :
    (seps.intercalate tss).filterMap Token.parameter? =
      tss.flatMap (List.filterMap Token.parameter?) := by
  induction tss with
  | nil => rfl
  | cons ts tss ih =>
      cases tss with
      | nil => simp
      | cons ts' tss =>
          rw [List.intercalate_cons_cons, List.filterMap_append, List.filterMap_append, hseps, ih,
            List.append_nil]
          rfl

theorem parameters_joinTokens (combinator : Combinator) (tss : List (List Token)) :
    (joinTokens combinator tss).filterMap Token.parameter? =
      tss.flatMap (List.filterMap Token.parameter?) := by
  by_cases hne : tss = []
  · subst hne
    cases combinator <;> rfl
  · rw [joinTokens_of_ne_nil combinator hne]
    cases combinator <;> exact parameters_intercalate rfl tss

theorem parameters_test (node : String) (t : Test) :
    (t.tokens node).filterMap Token.parameter? = t.parameter?.toList.map parameterName := by
  cases t with
  | isNull field => rfl
  | isNotNull field => rfl
  | compare field relation n =>
      have hname : String.ofList (parameterName n).toList = parameterName n := String.ofList_toList
      rw [Test.parameter?, Option.toList_some, List.map_singleton, ← hname]
      cases relation <;> rfl

namespace Condition

theorem parameters_partTokens (node : String) (parts : List Condition) :
    (partTokens node parts).flatMap (List.filterMap Token.parameter?) =
      (listNumbers parts).map parameterName := by
  cases parts with
  | nil =>
      rw [partTokens, listNumbers]
      rfl
  | cons part parts =>
      have hrest := parameters_partTokens node parts
      cases part with
      | test t =>
          rw [partTokens, listNumbers, numbers, List.map_append, List.flatMap_cons,
            parameters_test, hrest]
      | group combinator inner =>
          have hinner : (Token.opening :: (joinTokens combinator (partTokens node inner) ++
              [.closing])).filterMap Token.parameter? = (listNumbers inner).map parameterName := by
            rw [← parameters_partTokens node inner, ← parameters_joinTokens combinator,
              List.filterMap_cons_none rfl, List.filterMap_append]
            exact List.append_nil _
          rw [partTokens, listNumbers, numbers, List.map_append, List.flatMap_cons, hinner, hrest]

/-- The parameters in the tokens of a condition are those of the condition, in the same order. -/
theorem parameters_tokens (node : String) (c : Condition) :
    (c.tokens node).filterMap Token.parameter? = c.numbers.map parameterName := by
  cases c with
  | test t =>
      rw [tokens, numbers]
      exact parameters_test node t
  | group combinator parts =>
      rw [tokens, numbers, parameters_joinTokens]
      exact parameters_partTokens node parts

end Condition

/-! ## Selections -/

/-- The formula that a text stands for when its parameters have their values. -/
def Where.formula? (w : Where) : Option (Formula Json) :=
  (read w.clause).bind (Formula.substitute (Members.get? w.params))

theorem Where.formula?_ofScoped (s : Scoped) {node : String} (hnode : IsIdentifier node) :
    (Where.ofScoped s node).formula? = some (.ofSelection s.selection) := by
  obtain ⟨-, -, hformula⟩ := Condition.ofSelection_spec s.selection
  show (read ((Condition.ofSelection s.selection).1.text node)).bind _ = _
  rw [Condition.read_text hnode]
  exact hformula _ (supplies_parameters _)

/-- The number of values is that of the terms that do not compare with null. -/
theorem length_filterMap_boundValue? (ts : List Term) :
    (ts.filterMap boundValue?).length =
      (ts.filter fun t => t.predicate ≠ .eq .null ∧ t.predicate ≠ .ne .null).length := by
  induction ts with
  | nil => rfl
  | cons t ts ih =>
      have hvalue : (boundValue? t).isSome =
          decide (t.predicate ≠ .eq .null ∧ t.predicate ≠ .ne .null) := by
        obtain ⟨field, predicate⟩ := t
        cases predicate with
        | eq v | ne v => cases v <;> simp [boundValue?]
        | _ => simp [boundValue?]
      cases h : boundValue? t with
      | none =>
          rw [h] at hvalue
          rw [List.filterMap_cons_none h, List.filter_cons_of_neg (by simp [← hvalue]), ih]
      | some v =>
          rw [h] at hvalue
          rw [List.filterMap_cons_some h, List.filter_cons_of_pos (by simp [← hvalue]),
            List.length_cons, List.length_cons, ih]

/-- The text of a tenant's selection reads as the formula of the selection once its parameters have
their values. The parameters are as many as the terms that do not compare with null: the values of
these terms in order, each kept under the name of its number, and each name stands in the text once,
in the order of the numbers. So the text and the parameters determine the formula. -/
theorem Where.read_ofScoped (s : Scoped) {node : String} (hnode : IsIdentifier node) :
    (Where.ofScoped s node).formula? = some (.ofSelection s.selection) ∧
      (let values := s.selection.allTerms.filterMap boundValue?
       let compared := s.selection.allTerms.filter fun t =>
         t.predicate ≠ .eq .null ∧ t.predicate ≠ .ne .null
       values.length = compared.length ∧
        (Where.ofScoped s node).params.Perm
          (values.zipIdx.map fun (v, n) => (parameterName n, v)) ∧
        parameterNames (Where.ofScoped s node).clause =
          some ((List.range compared.length).map parameterName)) ∧
      ∀ (s' : Scoped) (node' : String), IsIdentifier node' →
        Where.ofScoped s' node' = Where.ofScoped s node →
          Formula.ofSelection s'.selection = .ofSelection s.selection := by
  obtain ⟨hvalues, hnumbers, -⟩ := Condition.ofSelection_spec s.selection
  have hlength := length_filterMap_boundValue? s.selection.allTerms
  refine ⟨formula?_ofScoped s hnode, ⟨hlength, ?_, ?_⟩, ?_⟩
  · rw [← hvalues]
    exact perm_parameters _
  · show (lex ((Condition.ofSelection s.selection).1.text node).toList).map _ = _
    rw [Condition.lex_text hnode, Option.map_some, Condition.parameters_tokens, hnumbers, hvalues,
      hlength]
  · intro s' node' hnode' h
    have hformula := formula?_ofScoped s' hnode'
    rw [h, formula?_ofScoped s hnode] at hformula
    exact (Option.some.inj hformula).symm

/-- Names that look like a part of the text do not change how it is read. -/
theorem Where.read_ofScoped_quoted_names :
    let s : Scoped :=
      ⟨.group .any
        [.term ⟨"a`b OR $f0", .eq (.string "x")⟩,
          .group .all [.term ⟨"id", .ne .null⟩, .term ⟨"tag", .notIn [.string "y"]⟩],
          .term ⟨"tenantId", .eq (.string "acme")⟩]⟩
    IsIdentifier "n" ∧
      (Where.ofScoped s "n").formula? =
        some (.group .any
          [.compare "a`b OR $f0" .equal (.string "x"),
            .group .all [.isNotNull "id", .compare "tag" .notIn (.array [.string "y"])],
            .compare "tenantId" .equal (.string "acme")]) ∧
      parameterNames (Where.ofScoped s "n").clause = some ["f0", "f1", "f2"] := by
  intro s
  have hnode : IsIdentifier "n" := by decide
  obtain ⟨hformula, ⟨-, -, hnames⟩, -⟩ := Where.read_ofScoped s hnode
  exact ⟨hnode, hformula, hnames⟩

end TenantStore.Cypher
