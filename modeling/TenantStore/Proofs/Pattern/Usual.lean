import TenantStore.Pattern.Search
import TenantStore.Proofs.Pattern.Dialect
import TenantStore.Proofs.Pattern.Reach
import TenantStore.Proofs.Pattern.Reading

/-!
# Patterns as a dialect

The patterns that `Pattern.parse?` reads are a dialect: an expression has the alternatives that its
whole group was closed with, and a pattern matches between the positions that it leads to from each
other. The dialect is a usual one (`Pattern.usual_dialect`): the tokens of a pattern are the same
with others in front of them or behind them, and a part in front of all others is the first of the
first alternative (`OpenGroup.Led`), as one behind all others is the last of the last one.
-/

namespace TenantStore.Pattern

open OpenGroup

/-! ## Patterns as matches -/

/-- The matches of a pattern. -/
def spans (p : Pattern) : Spans := fun text i j =>
  i ≤ text.length ∧ j ∈ reach text.toList p [i]

section Spans

variable {p first second : Pattern} {text : String} {i j : Nat}

theorem le_length_of_spans (h : p.spans text i j) : i ≤ text.length ∧ j ≤ text.length := by
  obtain ⟨hi, hj⟩ := h
  refine ⟨hi, ?_⟩
  rw [← String.length_toList] at hi ⊢
  exact within_reach text.toList p [i] (by simpa using hi) j hj

/-- A pattern that is run as one behind another matches what these match one after the other. -/
theorem spans_eq_andThen
    (h : ∀ text positions,
      reach text p positions = reach text second (reach text first positions)) :
    p.spans = first.spans.andThen second.spans := by
  funext text i j
  apply propext
  rw [spans, h, pointwise_reach text.toList second]
  constructor
  · rintro ⟨hi, k, hk, hj⟩
    exact ⟨k, ⟨hi, hk⟩, (le_length_of_spans ⟨hi, hk⟩).2, hj⟩
  · rintro ⟨k, ⟨hi, hk⟩, -, hj⟩
    exact ⟨hi, k, hk, hj⟩

end Spans

/-- The dialect of the patterns that can be read. -/
def dialect : Dialect where
  alternatives? p := (alternatives? p).map (List.map spans)
  EndsLine c := c = '\n'
  -- There is no mark for comments or free spacing.
  Plain _ := True

theorem oneLine_iff {text : String} : dialect.OneLine text ↔ '\n' ∉ text.toList := by
  constructor
  · exact fun h hmem => h _ hmem rfl
  · rintro h _ hmem rfl
    exact h hmem

theorem isWide_anyText (lines : Bool) : dialect.IsWide (anyText lines).spans := by
  intro text hline i j
  have hlength : text.toList.length = text.length := String.length_toList
  constructor
  · rintro ⟨hi, hj⟩
    rw [← hlength] at hi ⊢
    exact (mem_reach_anyText (oneLine_iff.mp hline) lines hi).mp hj
  · rintro ⟨hij, hj⟩
    rw [← hlength] at hj
    have hi : i ≤ text.toList.length := Nat.le_trans hij hj
    exact ⟨hlength ▸ hi, (mem_reach_anyText (oneLine_iff.mp hline) lines hi).mpr ⟨hij, hj⟩⟩

/-- The alternatives of an expression are those that its whole group was closed with. -/
theorem alternatives?_eq_some_iff {p : String} {alternatives : List Spans} :
    dialect.alternatives? p = some alternatives ↔
      ∃ g, wholeGroup? p = some g ∧
        g.alternatives.reverse.map spans ++ [(sequence g.items).spans] = alternatives := by
  simp [dialect, alternatives?]

/-! ## Flags in front of a pattern -/

/-- The reading once the flags of `like` are in force. -/
def likeStart : ParseState :=
  ⟨.start ⟨true, true, false⟩, []⟩

theorem scan_flagged (p : String) :
    Token.scan (flagged p) = .flags ['i', 'm'] :: Token.scan p := by
  rw [Token.scan, flagged, String.toList_append]
  rfl

theorem wholeGroup?_flagged_eq_some_iff {p : String} {g : OpenGroup} :
    wholeGroup? (flagged p) = some g ↔
      (Token.scan p).foldlM ParseState.step likeStart = some ⟨g, []⟩ := by
  rw [wholeGroup?_eq_some_iff, scan_flagged, List.foldlM_cons]
  rfl

/-- The flags leave a pattern readable and its bars where they are. -/
theorem exists_wholeGroup?_flagged {p : String} {g : OpenGroup} (h : wholeGroup? p = some g) :
    ∃ g', wholeGroup? (flagged p) = some g' ∧ g.Alike g' := by
  have hstart : ParseState.Alike ⟨.start {}, []⟩ likeStart := ⟨⟨rfl, rfl, rfl⟩, .nil⟩
  obtain ⟨⟨g', enclosing⟩, hg', halike, henclosing⟩ :=
    ParseState.exists_foldlM ParseState.Alike.exists_steps hstart (wholeGroup?_eq_some_iff.mp h)
  cases henclosing
  exact ⟨g', wholeGroup?_flagged_eq_some_iff.mpr hg', halike⟩

/-! ## Any characters in front of a pattern and behind it -/

/-- A pattern that can be read does not start with a repetition, so its tokens are the same behind
one. -/
theorem scanFrom_afterTimes {cs : List Char} {g : OpenGroup}
    (h : (Token.scanFrom .between cs).foldlM ParseState.step likeStart = some ⟨g, []⟩) :
    Token.scanFrom .afterTimes cs = Token.scanFrom .between cs := by
  cases cs with
  | nil => rfl
  | cons c cs =>
    have hc : c ≠ '?' := by
      rintro rfl
      cases h
    have hstep : Token.step .afterTimes c = Token.step .between c := if_neg hc
    rw [Token.scanFrom_cons, Token.scanFrom_cons, hstep]

/-- With any characters in front of it, a pattern has one more part in front of all others. -/
theorem exists_wholeGroup?_front {p : String} {g : OpenGroup}
    (h : wholeGroup? (flagged p) = some g) :
    ∃ w, wholeGroup? (flagged (".*" ++ p)) = some w ∧ g.Led (anyText false) w := by
  have hread := wholeGroup?_flagged_eq_some_iff.mp h
  have hstart : ParseState.Led (anyText false) likeStart
      ⟨(OpenGroup.start ⟨true, true, false⟩).push (anyText false), []⟩ :=
    .outermost (led_push_start _ _)
  obtain ⟨t, ht, hled⟩ := ParseState.exists_foldlM ParseState.Led.exists_steps hstart hread
  obtain ⟨w, rfl, hw⟩ := hled.exists_outermost
  have hscan : Token.scan (".*" ++ p) = .anyChar :: .times 0 none :: Token.scan p := by
    rw [Token.scan, String.toList_append]
    show Token.anyChar :: .times 0 none :: Token.scanFrom .afterTimes p.toList = _
    rw [scanFrom_afterTimes hread]
    rfl
  refine ⟨w, wholeGroup?_flagged_eq_some_iff.mpr ?_, hw⟩
  rw [hscan]
  exact ht

/-- With any characters behind it, a pattern has one more part behind all others. -/
theorem exists_wholeGroup?_behind {p : String} {g : OpenGroup}
    (h : wholeGroup? (flagged p) = some g) :
    wholeGroup? (flagged (p ++ ".*")) =
      some ⟨g.flags, g.alternatives, anyText g.flags.anyLine :: g.items, true⟩ := by
  have hread := wholeGroup?_flagged_eq_some_iff.mp h
  obtain ⟨last, hlast, happend⟩ :=
    Token.exists_scanFrom_append (by simp) (ParseState.invalid_not_mem hread)
  have hscan : Token.scan (p ++ ".*") = Token.scan p ++ [.anyChar, .times 0 none] := by
    rw [Token.scan, String.toList_append, happend, Token.scan]
    obtain rfl | rfl := hlast <;> rfl
  rw [wholeGroup?_flagged_eq_some_iff, hscan, List.foldlM_append, hread]
  rfl

/-! ## The laws -/

theorem usual_dialect : dialect.Usual where
  ne_nil h := by
    obtain ⟨g, -, hg⟩ := alternatives?_eq_some_iff.mp h
    simp at hg
  within h a ha text i j hmatch := by
    obtain ⟨g, -, rfl⟩ := alternatives?_eq_some_iff.mp h
    rw [← List.map_singleton, ← List.map_append] at ha
    obtain ⟨p, -, rfl⟩ := List.mem_map.mp ha
    exact le_length_of_spans hmatch
  flags h := by
    obtain ⟨g, hg, rfl⟩ := alternatives?_eq_some_iff.mp h
    obtain ⟨g', hg', halike⟩ := exists_wholeGroup?_flagged hg
    refine ⟨_, alternatives?_eq_some_iff.mpr ⟨g', hg', rfl⟩, ?_⟩
    simp [halike.alternatives]
  front {p a alternatives} h := by
    obtain ⟨g, hg, halternatives⟩ := alternatives?_eq_some_iff.mp h
    obtain ⟨w, hw, hled⟩ := exists_wholeGroup?_front hg
    refine ⟨_, isWide_anyText false, alternatives?_eq_some_iff.mpr ⟨w, hw, ?_⟩⟩
    have hconcat (items : List Pattern) : (sequence (items ++ [anyText false])).spans =
        (anyText false).spans.andThen (sequence items).spans :=
      spans_eq_andThen fun text positions => reach_sequence_concat text items _ positions
    obtain ⟨hgroup, hfirst, hitems⟩ | ⟨later, first, hgroup, hfirst, hitems⟩ := hled.parts
    · rw [hgroup] at halternatives
      cases halternatives
      rw [hfirst, hitems, hconcat]
      rfl
    · rw [hgroup, List.reverse_concat] at halternatives
      cases halternatives
      rw [hfirst, hitems, List.reverse_concat, List.map_cons, hconcat]
      rfl
  behind {p alternatives a} _ h := by
    obtain ⟨g, hg, halternatives⟩ := alternatives?_eq_some_iff.mp h
    obtain ⟨rfl, hlast⟩ := List.append_inj' halternatives rfl
    cases hlast
    refine ⟨_, isWide_anyText g.flags.anyLine,
      alternatives?_eq_some_iff.mpr ⟨_, exists_wholeGroup?_behind hg, ?_⟩⟩
    rw [spans_eq_andThen fun text positions => reach_sequence_cons text _ g.items positions]

/-! ## Searches -/

theorem exists_alternative_iff {g : OpenGroup} {P : Spans → Prop} :
    (∃ a ∈ g.alternatives.reverse.map spans ++ [(sequence g.items).spans], P a) ↔
      ∃ p ∈ sequence g.items :: g.alternatives, P p.spans := by
  simp [or_comm]

/-- The engine searches for the patterns of the dialect. -/
theorem searches_finds : dialect.Searches finds := by
  intro p alternatives h text
  obtain ⟨g, hg, rfl⟩ := alternatives?_eq_some_iff.mp h
  have hfinds : finds p text = g.pattern.found text := by
    rw [finds, parse?_eq, hg]
    rfl
  rw [hfinds, found_iff, exists_alternative_iff]
  simp only [OpenGroup.pattern, mem_reach_choice, spans, String.length_toList]
  constructor
  · rintro ⟨i, hi, j, q, hq, hj⟩
    exact ⟨q, hq, i, j, hi, hj⟩
  · rintro ⟨q, hq, i, j, hi, hj⟩
    exact ⟨i, hi, j, q, hq, hj⟩

/-- The text as a whole matches an expression, if it can be read. -/
def matchesWhole (expression text : String) : Bool :=
  match parse? expression with
  | some p => p.coversAll text
  | none => false

theorem covers_matchesWhole : dialect.Covers matchesWhole := by
  intro p alternatives h text
  obtain ⟨g, hg, rfl⟩ := alternatives?_eq_some_iff.mp h
  have hcovers : matchesWhole p text = g.pattern.coversAll text := by
    rw [matchesWhole, parse?_eq, hg]
    rfl
  rw [hcovers, coversAll_iff, String.length_toList, exists_alternative_iff]
  simp [OpenGroup.pattern, mem_reach_choice, spans]

end TenantStore.Pattern
