import TenantStore.Cypher.Condition
import TenantStore.Proofs.Document.Equality
import TenantStore.Proofs.Pattern.Usual

/-!
# The two meanings of `like`

A document store searches for a `like` pattern anywhere in the text of a field
(`matchesQuery_like`). A graph store matches a whole text, so the pattern is bound there with any
characters in front of it and behind it (`Cypher.bound_eq_flagged`). These bind tighter than the
bars of the pattern, so the two stores agree on patterns without a bar outside their groups, and on
all patterns what the graph store matches is found by the document store (`Cypher.like_agrees`).

Which engines the two stores search and match with is left open, as long as both read one dialect of
the usual kind.
-/

namespace TenantStore

/-- A `like` condition is met by the texts in which its pattern is found. -/
theorem matchesQuery_like [SearchEngine] {name : String} (hand : name ≠ "$and") (hor : name ≠ "$or")
    {d : Document} {text : String} (hfield : Members.get? d name = some (.string text))
    (p : String) :
    Document.matchesQuery d (Term.query ⟨name, .like p⟩) =
      SearchEngine.finds (flagged p) text := by
  have hvalue : Document.field d name = .string text := by rw [Document.field, hfield]; rfl
  have hoperators : Json.IsOperators (Predicate.like p).toJson :=
    ⟨List.cons_ne_nil _ _, by simp [Document.isOperator]⟩
  rw [Document.matchesQuery_term, Document.matchesEntry_eq_meetsCondition hand hor, hvalue]
  refine (Document.meetsCondition_of_isOperators hoperators _).trans ?_
  have hflags : "(?" ++ likeFlags ++ ")" = "(?im)" := by decide
  have hregex : (if likeFlags = "" then p else "(?" ++ likeFlags ++ ")" ++ p) = flagged p := by
    rw [if_neg (by decide), hflags, flagged]
  have hsearch : Document.matchesPattern (.string text) (.string p) (some (.string likeFlags)) =
      SearchEngine.finds (flagged p) text := by
    simp only [Document.matchesPattern, hregex]
  simp [Document.meets, Members.get?, hsearch]

namespace Cypher

theorem likeRegex_eq (p : String) : likeRegex p = "(?im).*" ++ p ++ ".*" := by
  have hfront : "(?" ++ likeFlags ++ ").*" = "(?im).*" := by decide
  rw [likeRegex, hfront]

/-- The bound expression is the pattern between any characters, under flags. -/
theorem bound_eq_flagged (p : String) : "(?im).*" ++ p ++ ".*" = flagged (".*" ++ (p ++ ".*")) := by
  have hfront : "(?im).*" = "(?im)" ++ ".*" := by decide
  rw [hfront, flagged, String.append_assoc, String.append_assoc]

/-- Let the two stores search and match with engines of one usual dialect, which can read a pattern
without comments and free spacing, and let a field hold a text of one line. A `like` condition is
written as a query for a document store, and as an expression that a graph store matches with the
whole text. The expression matches no text but those that the query takes, and all of these if no
bar stands outside the groups of the pattern. With such bars, it matches the texts that the first
alternative ends, those that the last one starts, and those that one between them is. -/
theorem like_agrees [SearchEngine] {D : Dialect} (hD : D.Usual)
    (hfinds : D.Searches SearchEngine.finds) {covers : String → String → Bool}
    (hcovers : D.Covers covers) {name : String} (hand : name ≠ "$and") (hor : name ≠ "$or")
    {d : Document} {text : String} (hfield : Members.get? d name = some (.string text))
    (hline : D.OneLine text) {p : String} (hplain : D.Plain p) {alternatives : List Spans}
    (hp : D.alternatives? p = some alternatives) (next : Nat) :
    let query : Document := [(name, .object [("$options", .string "im"), ("$regex", .string p)])]
    let bound := "(?im).*" ++ p ++ ".*"
    (Clause.term ⟨name, .like p⟩).toJson = .object query ∧
      (Test.ofTerm next ⟨name, .like p⟩).2 = [.string bound] ∧
      (covers bound text = true → Document.matchesQuery d query = true) ∧
      (alternatives.length = 1 →
        (Document.matchesQuery d query = true ↔ covers bound text = true)) ∧
      ∀ first between last, D.alternatives? ("(?im)" ++ p) = some (first :: (between ++ [last])) →
        (covers bound text = true ↔
          (∃ i, first text i text.length) ∨ (∃ a ∈ between, a text 0 text.length) ∨
            ∃ j, last text 0 j) := by
  intro query bound
  have hfound : Document.matchesQuery d query = SearchEngine.finds (flagged p) text :=
    matchesQuery_like hand hor hfield p
  have hvalue : (Test.ofTerm next ⟨name, .like p⟩).2 = [.string bound] :=
    congrArg (fun e => [Json.string e]) (likeRegex_eq p)
  have hbound : bound = flagged (".*" ++ (p ++ ".*")) := bound_eq_flagged p
  obtain ⟨flaggeds, hflagged, hlength⟩ := hD.flags hp
  rw [hvalue, hfound, hbound]
  refine ⟨rfl, rfl, hD.finds_of_covers hline hcovers hplain hfinds hflagged, fun hsingle => ?_,
    fun first between last hbars => hD.covers_bars hline hcovers hplain hbars⟩
  obtain ⟨a, rfl⟩ := List.length_eq_one_iff.mp (hlength.trans hsingle)
  exact (hD.covers_single hline hcovers hplain hfinds hflagged).symm

/-- A bar inside a group leaves the two stores agreed. -/
theorem like_agrees_group :
    let p := "^(ada|grace) *l"
    let text := "Grace Lee"
    let d : Document := [("name", .string text)]
    let query : Document := [("name", .object [("$options", .string "im"), ("$regex", .string p)])]
    Members.get? d "name" = some (.string text) ∧ Pattern.dialect.OneLine text ∧
      Pattern.dialect.Plain p ∧
      (∃ alternatives, Pattern.dialect.alternatives? p = some alternatives ∧
        alternatives.length = 1) ∧
      Document.matchesQuery d query = true ∧
      Pattern.matchesWhole "(?im).*^(ada|grace) *l.*" text = true := by
  intro p text d query
  have hline : Pattern.dialect.OneLine text := Pattern.oneLine_iff.mpr (by decide +kernel)
  have hsingle : (Pattern.alternatives? p).map List.length = some 1 := by decide +kernel
  obtain ⟨ps, hps, hlength⟩ := Option.map_eq_some_iff.mp hsingle
  have hp : Pattern.dialect.alternatives? p = some (ps.map Pattern.spans) :=
    congrArg (Option.map (List.map Pattern.spans)) hps
  have hone : (ps.map Pattern.spans).length = 1 := by rw [List.length_map, hlength]
  have hfound : Document.matchesQuery d query = true := by decide +kernel
  refine ⟨rfl, hline, trivial, ⟨_, hp, hone⟩, hfound, ?_⟩
  exact ((like_agrees Pattern.usual_dialect Pattern.searches_finds Pattern.covers_matchesWhole
    (by decide) (by decide) rfl hline trivial hp 0).2.2.2.1 hone).mp hfound

/-- With a bar outside all groups, a text that ends in its second alternative is found by a document
store and not matched by a graph store. -/
theorem like_disagrees_at_bar :
    let p := "a|b"
    let text := "xb"
    let d : Document := [("name", .string text)]
    let query : Document := [("name", .object [("$options", .string "im"), ("$regex", .string p)])]
    (Pattern.parse? p).isSome = true ∧ '\n' ∉ text.toList ∧
      (Clause.term ⟨"name", .like p⟩).toJson = .object query ∧
      Document.matchesQuery d query = true ∧
      (Test.ofTerm 0 ⟨"name", .like p⟩).2 = [.string "(?im).*a|b.*"] ∧
      Pattern.matchesWhole "(?im).*a|b.*" text = false := by
  decide +kernel

end Cypher
end TenantStore
