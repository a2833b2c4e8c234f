import TenantStore.Proofs.Graph.Closed

/-!
# The bounds of a search

A search for some rows only tells the graph how many rows to skip and how many to return. It does so
by clauses at the end of its text and by the parameters in these; nothing in front has a placeholder
for them. `Cypher.Statement.bounded_find` reads the bounds off the statement of any search.
-/

namespace TenantStore.Cypher.Statement

/-- The statement skips some rows and returns some of those behind. Its text ends with a clause for
each of these bounds, in front of which are no placeholders for bounds, and its parameters bind them
to the numbers. If nothing is skipped, or there is no limit, there is neither the clause nor the
parameter. -/
structure Bounded (t : Statement) (skip : Int) (limit : Option Int) : Prop where
  text : ∃ (start : String) (parts : Parts), parts? start = some parts ∧
    "skip" ∉ parts.placeholders ∧ "limit" ∉ parts.placeholders ∧
    t.text = start ++ (if 0 < skip then " SKIP $skip" else "") ++
      (if limit.isSome then " LIMIT $limit" else "")
  skip : Members.get? t.params "skip" = if 0 < skip then some (.number (.whole skip)) else none
  limit : Members.get? t.params "limit" = limit.map fun n => .number (.whole n)

variable {t : Statement} {skip : Int}

/-- A positive number of rows to skip gets a clause of its own. -/
theorem Bounded.skipping (h : t.Bounded 0 none) (skip : Nat) :
    (if 0 < skip then t.andThen " SKIP $skip" "skip" (Json.ofNat skip) else t).Bounded skip
      none := by
  by_cases hpos : 0 < skip
  · have hpos' : (0 : Int) < skip := Int.natCast_pos.mpr hpos
    obtain ⟨⟨start, parts, hstart, hskip, hlimit, htext⟩, -, hlimited⟩ := h
    rw [if_neg (Int.lt_irrefl 0), String.append_empty] at htext
    rw [if_pos hpos]
    refine ⟨⟨start, parts, hstart, hskip, hlimit, ?_⟩, ?_, ?_⟩
    · rw [if_pos hpos']
      simp [andThen, htext]
    · rw [if_pos hpos']
      exact Members.get?_insert_self ..
    · exact (Members.get?_insert_of_ne (by decide) ..).trans hlimited
  · rw [if_neg hpos, Nat.eq_zero_of_not_pos hpos]
    exact h

/-- A limit gets a clause of its own behind that. -/
theorem Bounded.limited (h : t.Bounded skip none) (limit : Option Nat) :
    (match limit with
      | some n => t.andThen " LIMIT $limit" "limit" (Json.ofNat n)
      | none => t).Bounded skip (limit.map Int.ofNat) := by
  cases limit with
  | none => exact h
  | some n =>
      obtain ⟨⟨start, parts, hstart, hskip, hlimit, htext⟩, hskipped, -⟩ := h
      refine ⟨⟨start, parts, hstart, hskip, hlimit, ?_⟩, ?_, ?_⟩
      · simp [andThen, htext]
      · exact (Members.get?_insert_of_ne (by decide) ..).trans hskipped
      · exact Members.get?_insert_self ..

/-- What a search begins with has no bounds. -/
theorem bounded_returning (label : String) (s : Scoped) (sort : List SortField) :
    (⟨(matching label s).text ++ (" RETURN " ++ nodeAlias ++ orderText sort),
        (matching label s).params⟩ : Statement).Bounded 0 none := by
  have hclosed := closed_returning label s sort
  -- The parameters of a selection have other names.
  have hnone (word : String) (hword : word.toList.head? ≠ some 'f') :
      Members.get? (matching label s).params word = none := by
    refine Members.get?_eq_none_of_not_mem fun hmem => not_mem_bindings s hword ?_
    exact (hclosed.params.map Prod.fst).mem_iff.mp hmem
  refine ⟨⟨_, _, hclosed.scans.parts?_eq, not_mem_bindings s (by decide),
    not_mem_bindings s (by decide), ?_⟩, hnone "skip" (by decide), hnone "limit" (by decide)⟩
  simp

/-- A search is bounded by its window. -/
theorem bounded_find (label : String) (s : Scoped) (w : Window) :
    (find label s w.sort w.skip w.limit).Bounded w.skip (w.limit.map Int.ofNat) := by
  have hbounded := ((bounded_returning label s w.sort).skipping w.skip).limited w.limit
  simp only [← String.append_assoc] at hbounded
  simp only [find]
  exact hbounded

end TenantStore.Cypher.Statement
