import Mathlib.Data.List.Basic
import TenantStore.Pattern.Engine

/-!
# Dialects of regular expressions

What single marks of an expression mean differs from engine to engine. What the usual engines have
in common is how an expression is put together: bars outside all groups part it into alternatives,
and parts side by side bind tighter than that. A `Dialect` says of every expression what its
alternatives match, and nothing more is known of it than the laws of `Dialect.Usual`.

By these laws, any characters that are written in front of an expression and behind it are not put
around the expression: those in front go to the first alternative and those behind go to the last
one (`Dialect.Usual.alternatives_between_single`, `Dialect.Usual.alternatives_between_bars`). So a
match of a whole text by the longer expression is a search for the shorter one if that has a single
alternative, and less than that otherwise (`Dialect.Usual.covers_single`,
`Dialect.Usual.covers_bars`).
-/

namespace TenantStore

/-- From where to where in a text there is a match. -/
abbrev Spans :=
  String → Nat → Nat → Prop

/-- A match of the first, and right behind it one of the second. -/
def Spans.andThen (first second : Spans) : Spans := fun text i k =>
  ∃ j, first text i j ∧ second text j k

/-- An expression for which case does not count and lines have ends of their own. -/
def flagged (p : String) : String :=
  "(?im)" ++ p

/-- A dialect of regular expressions. -/
structure Dialect where
  /-- What the alternatives of an expression match, as the bars outside all groups part them, if the
  expression can be read. -/
  alternatives? : String → Option (List Spans)
  /-- The character ends a line. -/
  EndsLine : Char → Prop
  /-- The expression has no comments and no free spacing, so what is written behind it is read as it
  is. -/
  Plain : String → Prop

namespace Dialect

variable (D : Dialect)

/-- The text is one line. -/
def OneLine (text : String) : Prop :=
  ∀ c ∈ text.toList, ¬ D.EndsLine c

/-- Within a line there is a match from any place to any later one. -/
def IsWide (a : Spans) : Prop :=
  ∀ text, D.OneLine text → ∀ i j, a text i j ↔ i ≤ j ∧ j ≤ text.length

/-- What the usual dialects have in common. -/
structure Usual : Prop where
  /-- An expression has an alternative, be it empty. -/
  ne_nil : ∀ {p : String}, D.alternatives? p ≠ some []
  /-- A match begins and ends within the text. -/
  within : ∀ {p : String} {spans : List Spans}, D.alternatives? p = some spans → ∀ a ∈ spans,
    ∀ text i j, a text i j → i ≤ text.length ∧ j ≤ text.length
  /-- Flags leave an expression readable and its bars where they are. -/
  flags : ∀ {p : String} {spans : List Spans}, D.alternatives? p = some spans →
    ∃ bs, D.alternatives? (flagged p) = some bs ∧ bs.length = spans.length
  /-- Any characters in front of an expression bind to what stands before its first bar. -/
  front : ∀ {p : String} {a : Spans} {spans : List Spans},
    D.alternatives? (flagged p) = some (a :: spans) →
      ∃ wide, D.IsWide wide ∧
        D.alternatives? (flagged (".*" ++ p)) = some (wide.andThen a :: spans)
  /-- Any characters behind an expression bind to what stands after its last bar. -/
  behind : ∀ {p : String} {spans : List Spans} {a : Spans}, D.Plain p →
    D.alternatives? (flagged p) = some (spans ++ [a]) →
      ∃ wide, D.IsWide wide ∧
        D.alternatives? (flagged (p ++ ".*")) = some (spans ++ [a.andThen wide])

/-- A search finds the expressions of the dialect that match somewhere in the text. -/
def Searches (finds : String → String → Bool) : Prop :=
  ∀ {p : String} {spans : List Spans}, D.alternatives? p = some spans →
    ∀ text, finds p text = true ↔ ∃ a ∈ spans, ∃ i j, a text i j

/-- A test of whole texts takes the expressions of the dialect that match from end to end. -/
def Covers (covers : String → String → Bool) : Prop :=
  ∀ {p : String} {spans : List Spans}, D.alternatives? p = some spans →
    ∀ text, covers p text = true ↔ ∃ a ∈ spans, a text 0 text.length

variable {D} (hD : D.Usual) {p : String}

namespace Usual

/-! ## Any characters on both sides -/

section Alternatives

variable (hplain : D.Plain p)

include hD hplain

/-- An expression with one alternative has any characters on both sides of it. -/
theorem alternatives_between_single {a : Spans} (h : D.alternatives? (flagged p) = some [a]) :
    ∃ front behind, D.IsWide front ∧ D.IsWide behind ∧
      D.alternatives? (flagged (".*" ++ (p ++ ".*"))) =
        some [front.andThen (a.andThen behind)] := by
  have hlast : D.alternatives? (flagged p) = some ([] ++ [a]) := h
  obtain ⟨behind, hbehind, hlast⟩ := hD.behind hplain hlast
  obtain ⟨front, hfront, hfirst⟩ := hD.front hlast
  exact ⟨front, behind, hfront, hbehind, hfirst⟩

/-- Of several alternatives, the first has any characters in front of it and the last has any
characters behind it. -/
theorem alternatives_between_bars {first last : Spans} {between : List Spans}
    (h : D.alternatives? (flagged p) = some (first :: (between ++ [last]))) :
    ∃ front behind, D.IsWide front ∧ D.IsWide behind ∧
      D.alternatives? (flagged (".*" ++ (p ++ ".*"))) =
        some (front.andThen first :: (between ++ [last.andThen behind])) := by
  have hlast : D.alternatives? (flagged p) = some ((first :: between) ++ [last]) := h
  obtain ⟨behind, hbehind, hlast⟩ := hD.behind hplain hlast
  obtain ⟨front, hfront, hfirst⟩ := hD.front hlast
  exact ⟨front, behind, hfront, hbehind, hfirst⟩

end Alternatives

/-! ## Whole texts -/

section Texts

variable {text : String} (hline : D.OneLine text)

section Wide

variable {wide a : Spans} (hwide : D.IsWide wide)

include hline hwide

/-- Behind any characters a match may start anywhere. -/
theorem wide_andThen_iff (ha : ∀ i j, a text i j → i ≤ text.length) {j : Nat} :
    wide.andThen a text 0 j ↔ ∃ i, a text i j := by
  refine exists_congr fun i => and_iff_right_of_imp fun hi => ?_
  exact (hwide text hline 0 i).mpr ⟨Nat.zero_le i, ha i j hi⟩

/-- In front of any characters a match may end anywhere. -/
theorem andThen_wide_iff (ha : ∀ i j, a text i j → j ≤ text.length) {i : Nat} :
    a.andThen wide text i text.length ↔ ∃ j, a text i j := by
  refine exists_congr fun j => and_iff_left_of_imp fun hj => ?_
  exact (hwide text hline j text.length).mpr ⟨ha i j hj, Nat.le_refl _⟩

end Wide

variable {finds covers : String → String → Bool} (hcovers : D.Covers covers)
  (hplain : D.Plain p)

include hD hline hcovers hplain

/-- Between any characters, an expression with one alternative covers the texts in which it is
found. -/
theorem covers_single (hfinds : D.Searches finds) {a : Spans}
    (h : D.alternatives? (flagged p) = some [a]) :
    covers (flagged (".*" ++ (p ++ ".*"))) text = true ↔ finds (flagged p) text = true := by
  obtain ⟨front, behind, hfront, hbehind, hbetween⟩ := hD.alternatives_between_single hplain h
  have hwithin : ∀ i j, a text i j → i ≤ text.length ∧ j ≤ text.length :=
    hD.within h a List.mem_cons_self text
  have hstart : ∀ i j, a.andThen behind text i j → i ≤ text.length :=
    fun i j ⟨k, hk, _⟩ => (hwithin i k hk).1
  rw [hcovers hbetween, hfinds h]
  simp only [List.mem_singleton, exists_eq_left]
  rw [wide_andThen_iff hline hfront hstart]
  exact exists_congr fun i => andThen_wide_iff hline hbehind fun i j hj => (hwithin i j hj).2

/-- With bars, the first alternative has to end where the text ends, the last one has to start where
it starts, and every other one has to be the text. -/
theorem covers_bars {first last : Spans} {between : List Spans}
    (h : D.alternatives? (flagged p) = some (first :: (between ++ [last]))) :
    covers (flagged (".*" ++ (p ++ ".*"))) text = true ↔
      (∃ i, first text i text.length) ∨ (∃ a ∈ between, a text 0 text.length) ∨
        ∃ j, last text 0 j := by
  obtain ⟨front, behind, hfront, hbehind, hbetween⟩ := hD.alternatives_between_bars hplain h
  have hfirst : ∀ i j, first text i j → i ≤ text.length :=
    fun i j hj => (hD.within h first (by simp) text i j hj).1
  have hlast : ∀ i j, last text i j → j ≤ text.length :=
    fun i j hj => (hD.within h last (by simp) text i j hj).2
  rw [hcovers hbetween, List.exists_mem_cons_iff, wide_andThen_iff hline hfront hfirst]
  simp only [List.mem_append, List.mem_singleton, or_and_right, exists_or, exists_eq_left]
  rw [andThen_wide_iff hline hbehind hlast]

/-- What an expression covers between any characters is a text in which it is found. -/
theorem finds_of_covers (hfinds : D.Searches finds) {spans : List Spans}
    (h : D.alternatives? (flagged p) = some spans)
    (hcover : covers (flagged (".*" ++ (p ++ ".*"))) text = true) :
    finds (flagged p) text = true := by
  cases spans with
  | nil => exact absurd h hD.ne_nil
  | cons first rest =>
    obtain rfl | ⟨between, last, rfl⟩ := rest.eq_nil_or_concat'
    · exact (hD.covers_single hline hcovers hplain hfinds h).mp hcover
    · rw [hfinds h]
      obtain ⟨i, hi⟩ | ⟨a, ha, hmatch⟩ | ⟨j, hj⟩ :=
        (hD.covers_bars hline hcovers hplain h).mp hcover
      · exact ⟨first, by simp, i, _, hi⟩
      · exact ⟨a, by simp [ha], _, _, hmatch⟩
      · exact ⟨last, by simp, _, j, hj⟩

end Texts
end Usual
end Dialect
end TenantStore
