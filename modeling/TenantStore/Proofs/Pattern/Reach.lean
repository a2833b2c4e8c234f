import Mathlib.Data.List.Basic
import TenantStore.Pattern.Parser

/-!
# What patterns reach

A pattern is run on a list of positions at once. Each position counts for itself
(`Pattern.pointwise_reach`), so what a pattern reaches is told by what it reaches from single
positions, and no run leaves the text (`Pattern.within_reach`).

* `Pattern.reach_sequence`, `Pattern.mem_reach_choice`: parts one after the other are run one after
  the other, alternatives beside each other.
* `Pattern.mem_reach_anyText`: any number of any characters leads from a position to every later
  one, in a text of one line.
* `Pattern.found_iff`, `Pattern.coversAll_iff`: a search and a match of the whole text.
-/

namespace TenantStore.Pattern

/-! ## Runs that read each position for itself -/

/-- What is reached from positions is what is reached from one of them. -/
def Pointwise (run : List Nat → List Nat) : Prop :=
  ∀ positions j, j ∈ run positions ↔ ∃ i ∈ positions, j ∈ run [i]

theorem mem_merge {xs ys : List Nat} {j : Nat} : j ∈ merge xs ys ↔ j ∈ xs ∨ j ∈ ys := by
  by_cases h : j ∈ xs <;> simp [merge, h]

theorem mem_afterChar {text : List Char} {test : Char → Bool} {positions : List Nat} {j : Nat} :
    j ∈ afterChar text test positions ↔
      ∃ i ∈ positions, ∃ c, text[i]? = some c ∧ test c = true ∧ j = i + 1 := by
  rw [afterChar, List.mem_filterMap]
  refine exists_congr fun i => and_congr_right fun _ => ?_
  cases text[i]? with
  | none => simp
  | some c => by_cases h : test c = true <;> simp [h, @eq_comm _ j]

namespace Pointwise

variable {run other : List Nat → List Nat}

theorem id : Pointwise fun positions => positions := by
  intro positions j
  simp

theorem afterChar (text : List Char) (test : Char → Bool) :
    Pointwise (afterChar text test) := by
  intro positions j
  simp [mem_afterChar]

theorem filter (test : Nat → Bool) : Pointwise (List.filter test) := by
  intro positions j
  rw [List.mem_filter]
  constructor
  · rintro ⟨hmem, htest⟩
    exact ⟨j, hmem, List.mem_filter.mpr ⟨List.mem_singleton_self j, htest⟩⟩
  · rintro ⟨i, hi, hj⟩
    obtain ⟨hmem, htest⟩ := List.mem_filter.mp hj
    rw [List.mem_singleton.mp hmem] at htest ⊢
    exact ⟨hi, htest⟩

/-- One run after the other. -/
theorem comp (hother : Pointwise other) (h : Pointwise run) :
    Pointwise fun positions => other (run positions) := by
  intro positions j
  rw [hother (run positions)]
  constructor
  · rintro ⟨k, hk, hj⟩
    obtain ⟨i, hi, hk⟩ := (h positions k).mp hk
    exact ⟨i, hi, (hother (run [i]) j).mpr ⟨k, hk, hj⟩⟩
  · rintro ⟨i, hi, hj⟩
    obtain ⟨k, hk, hj⟩ := (hother (run [i]) j).mp hj
    exact ⟨k, (h positions k).mpr ⟨i, hi, hk⟩, hj⟩

/-- Two runs beside each other. -/
theorem merge (h : Pointwise run) (hother : Pointwise other) :
    Pointwise fun positions => merge (run positions) (other positions) := by
  intro positions j
  simp only [mem_merge]
  rw [h positions, hother positions]
  simp only [← exists_or, and_or_left]

theorem exactly (h : Pointwise run) : ∀ count, Pointwise (exactly run count)
  | 0 => id
  | count + 1 => fun positions => comp (exactly h count) h positions

theorem atMost (h : Pointwise run) : ∀ count, Pointwise (atMost run count)
  | 0 => id
  | count + 1 => merge id (comp (atMost h count) h)

theorem closure (h : Pointwise run) : ∀ count, Pointwise (closure run count)
  | 0 => id
  | count + 1 => fun positions => comp (closure h count) (merge id h) positions

end Pointwise

/-- A pattern reads each position for itself. -/
theorem pointwise_reach (text : List Char) (p : Pattern) : Pointwise (reach text p) := by
  induction p with
  | empty => exact Pointwise.id
  | char c ignoreCase => exact Pointwise.afterChar _ _
  | anyChar lines => exact Pointwise.afterChar _ _
  | set parts negated ignoreCase => exact Pointwise.afterChar _ _
  | anchor place => exact Pointwise.filter _
  | seq first second hfirst hsecond => exact hsecond.comp hfirst
  | alt left right hleft hright => exact hleft.merge hright
  | repeated body least most hbody =>
    cases most with
    | some limit => exact (hbody.atMost _).comp (hbody.exactly _)
    | none => exact (hbody.closure _).comp (hbody.exactly _)

/-! ## Runs that stay within the text -/

/-- Positions up to a last one lead to positions up to it. -/
def Within (last : Nat) (run : List Nat → List Nat) : Prop :=
  ∀ positions, (∀ i ∈ positions, i ≤ last) → ∀ j ∈ run positions, j ≤ last

namespace Within

variable {last : Nat} {run other : List Nat → List Nat}

theorem id : Within last fun positions => positions :=
  fun _ h => h

theorem afterChar (text : List Char) (test : Char → Bool) :
    Within text.length (afterChar text test) := by
  intro positions _ j hj
  obtain ⟨i, -, c, hc, -, rfl⟩ := mem_afterChar.mp hj
  exact (List.getElem?_eq_some_iff.mp hc).1

theorem comp (hother : Within last other) (h : Within last run) :
    Within last fun positions => other (run positions) :=
  fun positions hpositions => hother _ (h positions hpositions)

theorem merge (h : Within last run) (hother : Within last other) :
    Within last fun positions => merge (run positions) (other positions) := by
  intro positions hpositions j hj
  exact (mem_merge.mp hj).elim (h positions hpositions j) (hother positions hpositions j)

theorem exactly (h : Within last run) : ∀ count, Within last (exactly run count)
  | 0 => id
  | count + 1 => fun positions => comp (exactly h count) h positions

theorem atMost (h : Within last run) : ∀ count, Within last (atMost run count)
  | 0 => id
  | count + 1 => merge id (comp (atMost h count) h)

theorem closure (h : Within last run) : ∀ count, Within last (closure run count)
  | 0 => id
  | count + 1 => fun positions => comp (closure h count) (merge id h) positions

end Within

/-- A match that starts within the text ends within it. -/
theorem within_reach (text : List Char) (p : Pattern) : Within text.length (reach text p) := by
  induction p with
  | empty => exact Within.id
  | char c ignoreCase => exact Within.afterChar _ _
  | anyChar lines => exact Within.afterChar _ _
  | set parts negated ignoreCase => exact Within.afterChar _ _
  | anchor place => exact fun _ h j hj => h j (List.mem_filter.mp hj).1
  | seq first second hfirst hsecond => exact hsecond.comp hfirst
  | alt left right hleft hright => exact hleft.merge hright
  | repeated body least most hbody =>
    cases most with
    | some limit => exact (hbody.atMost _).comp (hbody.exactly _)
    | none => exact (hbody.closure _).comp (hbody.exactly _)

/-! ## Any number of runs -/

/-- What any number of runs reaches is what some number of them reaches. -/
theorem mem_closure_iff {run : List Nat → List Nat} (h : Pointwise run) {count : Nat}
    {positions : List Nat} {j : Nat} :
    j ∈ closure run count positions ↔ ∃ k ≤ count, j ∈ exactly run k positions := by
  induction count generalizing positions with
  | zero => simp [closure, exactly]
  | succ count ih =>
    have hmerge (k : Nat) : j ∈ exactly run k (merge positions (run positions)) ↔
        j ∈ exactly run k positions ∨ j ∈ exactly run (k + 1) positions := by
      rw [h.exactly k (merge _ _), h.exactly k positions, exactly, h.exactly k (run positions)]
      simp only [mem_merge, or_and_right, exists_or]
    rw [closure, ih]
    simp only [hmerge]
    constructor
    · rintro ⟨k, hk, hj | hj⟩
      · exact ⟨k, by omega, hj⟩
      · exact ⟨k + 1, by omega, hj⟩
    · rintro ⟨k, hk, hj⟩
      cases k with
      | zero => exact ⟨0, by omega, Or.inl hj⟩
      | succ k => exact ⟨k, by omega, Or.inr hj⟩

/-- A line of any characters. -/
def anyText (lines : Bool) : Pattern :=
  .repeated (.anyChar lines) 0 none

section AnyText

variable {text : List Char} (hline : '\n' ∉ text) (lines : Bool)

include hline

theorem mem_reach_anyChar {positions : List Nat} {j : Nat} :
    j ∈ reach text (.anyChar lines) positions ↔ ∃ i ∈ positions, i < text.length ∧ j = i + 1 := by
  rw [reach, mem_afterChar]
  refine exists_congr fun i => and_congr_right fun _ => ?_
  constructor
  · rintro ⟨c, hc, -, rfl⟩
    exact ⟨(List.getElem?_eq_some_iff.mp hc).1, rfl⟩
  · rintro ⟨hi, rfl⟩
    refine ⟨text[i], List.getElem?_eq_getElem hi, ?_, rfl⟩
    have hne : text[i] ≠ '\n' := fun h => hline (h ▸ List.getElem_mem hi)
    simp [hne]

theorem mem_exactly_anyChar {k i j : Nat} (hi : i ≤ text.length) :
    j ∈ exactly (reach text (.anyChar lines)) k [i] ↔ j = i + k ∧ j ≤ text.length := by
  induction k generalizing i with
  | zero =>
    rw [exactly, List.mem_singleton]
    omega
  | succ k ih =>
    rw [exactly, (pointwise_reach text (.anyChar lines)).exactly k]
    simp only [mem_reach_anyChar hline, List.mem_singleton]
    constructor
    · rintro ⟨_, ⟨_, rfl, hlt, rfl⟩, hj⟩
      have := (ih hlt).mp hj
      omega
    · rintro ⟨rfl, hj⟩
      refine ⟨i + 1, ⟨i, rfl, by omega, rfl⟩, (ih (by omega)).mpr ⟨by omega, hj⟩⟩

/-- In a text of one line any number of any characters leads to every later position. -/
theorem mem_reach_anyText {i j : Nat} (hi : i ≤ text.length) :
    j ∈ reach text (anyText lines) [i] ↔ i ≤ j ∧ j ≤ text.length := by
  rw [anyText, reach, exactly, mem_closure_iff (pointwise_reach text _)]
  simp only [mem_exactly_anyChar hline lines hi]
  constructor
  · rintro ⟨k, -, rfl, hj⟩
    exact ⟨by omega, hj⟩
  · rintro ⟨hij, hj⟩
    exact ⟨j - i, by omega, by omega, hj⟩

end AnyText

/-! ## Sequences and choices -/

/-- Parts one after the other, given last first, are run one after the other. -/
theorem reach_sequence (text : List Char) (items : List Pattern) (positions : List Nat) :
    reach text (OpenGroup.sequence items) positions = items.foldr (reach text) positions := by
  cases items with
  | nil => rfl
  | cons p ps =>
    rw [OpenGroup.sequence, List.foldr_cons]
    induction ps generalizing p with
    | nil => rfl
    | cons q qs ih => rw [List.foldl_cons, ih, List.foldr_cons, reach]

theorem reach_sequence_cons (text : List Char) (last : Pattern) (items : List Pattern)
    (positions : List Nat) :
    reach text (OpenGroup.sequence (last :: items)) positions =
      reach text last (reach text (OpenGroup.sequence items) positions) := by
  rw [reach_sequence, reach_sequence, List.foldr_cons]

theorem reach_sequence_concat (text : List Char) (items : List Pattern) (first : Pattern)
    (positions : List Nat) :
    reach text (OpenGroup.sequence (items ++ [first])) positions =
      reach text (OpenGroup.sequence items) (reach text first positions) := by
  rw [reach_sequence, reach_sequence, List.foldr_append, List.foldr_cons, List.foldr_nil]

/-- Alternatives reach what one of them reaches. -/
theorem mem_reach_choice {text : List Char} {last : Pattern} {others : List Pattern}
    {positions : List Nat} {j : Nat} :
    j ∈ reach text (OpenGroup.choice last others) positions ↔
      ∃ p ∈ last :: others, j ∈ reach text p positions := by
  rw [OpenGroup.choice]
  induction others generalizing last with
  | nil => simp
  | cons q qs ih =>
    rw [List.foldl_cons, ih]
    simp only [List.exists_mem_cons_iff, reach, mem_merge]
    tauto

/-! ## Searches -/

/-- A pattern is found exactly if it matches from some position of the text on. -/
theorem found_iff {p : Pattern} {s : String} :
    p.found s = true ↔ ∃ i ≤ s.toList.length, ∃ j, j ∈ reach s.toList p [i] := by
  have hne (l : List Nat) : (!l.isEmpty) = true ↔ ∃ j, j ∈ l := by
    rw [Bool.not_eq_true', List.isEmpty_eq_false_iff_exists_mem]
  rw [found, hne]
  simp only [pointwise_reach s.toList p (List.range _), List.mem_range, Nat.lt_succ_iff]
  constructor
  · rintro ⟨j, i, hi, hj⟩
    exact ⟨i, hi, j, hj⟩
  · rintro ⟨i, hi, j, hj⟩
    exact ⟨j, i, hi, hj⟩

theorem coversAll_iff {p : Pattern} {s : String} :
    p.coversAll s = true ↔ s.toList.length ∈ reach s.toList p [0] :=
  List.contains_iff_mem

end TenantStore.Pattern
