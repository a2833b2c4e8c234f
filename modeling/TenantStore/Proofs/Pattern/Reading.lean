import Mathlib.Data.List.Forall2
import TenantStore.Pattern.Parser

/-!
# Reading a pattern inside a longer text

The text of a pattern that can be read gives the same tokens wherever it stands between tokens
(`Token.exists_scanFrom_append`), and `ParseState.Steps` says what one token does to the open
groups. Two relations are kept by every token, hence by every list of tokens (`exists_foldlM`):

* `OpenGroup.Alike`: groups with as many parts, read under other flags. So flags in front of a
  pattern neither make it readable nor unreadable, and the bars are where they were.
* `OpenGroup.Led`: a group with one more part in front of all others. That part is the first of the
  first alternative, and of no other.
-/

namespace TenantStore.Pattern

/-! ## Tokens of a text in front of another -/

namespace Token

theorem stepBetween_ne_stopped (c : Char) : (stepBetween c).2 ≠ .stopped := by
  fun_cases stepBetween c
  all_goals nofun

/-- The machine stops only at a flaw. -/
theorem invalid_mem_step {mode : Mode} {c : Char} (hmode : mode ≠ .stopped)
    (h : (step mode c).2 = .stopped) : Token.invalid ∈ (step mode c).1 := by
  unfold step at h ⊢
  grind [stepBetween_ne_stopped, stepSetFirst, stepSet, closeRange, flaw]

theorem scanFrom_cons (mode : Mode) (c : Char) (cs : List Char) :
    scanFrom mode (c :: cs) = (step mode c).1 ++ scanFrom (step mode c).2 cs := rfl

/-- A text without flaws leaves the machine between tokens, so its tokens stand in front of those of
the text behind it. -/
theorem exists_scanFrom_append {mode : Mode} {cs : List Char} (hmode : mode ≠ .stopped)
    (h : Token.invalid ∉ scanFrom mode cs) :
    ∃ last, (last = .between ∨ last = .afterTimes) ∧
      ∀ rest, scanFrom mode (cs ++ rest) = scanFrom mode cs ++ scanFrom last rest := by
  induction cs generalizing mode with
  | nil =>
    refine ⟨mode, ?_, fun rest => ?_⟩
    · cases mode <;> simp_all [scanFrom, stop]
    · cases mode <;> simp_all [scanFrom, stop]
  | cons c cs ih =>
    rw [scanFrom_cons, List.mem_append, not_or] at h
    have hnext : (step mode c).2 ≠ .stopped := fun hstop => h.1 (invalid_mem_step hmode hstop)
    obtain ⟨last, hlast, happend⟩ := ih hnext h.2
    refine ⟨last, hlast, fun rest => ?_⟩
    rw [List.cons_append, scanFrom_cons, happend, scanFrom_cons, List.append_assoc]

/-- The part that a token adds under flags, if it is a token of one part. -/
def part? (flags : Flags) : Token → Option Pattern
  | .literal c => some (.char c flags.ignoreCase)
  | .anyChar => some (.anyChar flags.anyLine)
  | .start => some (.anchor (if flags.lines then .lineStart else .textStart))
  | .finish => some (.anchor (if flags.lines then .lineEnd else .textEnd))
  | .place a => some (.anchor a)
  | .set parts negated => some (.set parts negated flags.ignoreCase)
  | _ => none

theorem exists_part? {flags : Flags} {token : Token} {p : Pattern}
    (h : token.part? flags = some p) (other : Flags) : ∃ q, token.part? other = some q := by
  cases token with
  | openGroup _ | closeGroup | flags _ | bar | times _ _ | invalid => cases h
  | _ => exact ⟨_, rfl⟩

end Token

theorem Flags.exists_change? {flags changed : Flags} {change : List Char}
    (h : flags.change? change = some changed) (other : Flags) :
    ∃ changed', other.change? change = some changed' := by
  unfold Flags.change? at h ⊢
  cases hparts : Flags.parts? change with
  | none => simp [hparts] at h
  | some parts =>
    simp only [hparts, Option.bind_eq_bind, Option.bind_some, Option.ite_none_right_eq_some] at h ⊢
    exact ⟨_, h.1, rfl⟩

/-! ## What a token does -/

namespace OpenGroup

/-- The group after a bar. -/
def bar (g : OpenGroup) : OpenGroup :=
  ⟨g.flags, sequence g.items :: g.alternatives, [], false⟩

/-- The group after a change of flags. -/
def changed (g : OpenGroup) (flags : Flags) : OpenGroup :=
  ⟨flags, g.alternatives, g.items, false⟩

end OpenGroup

namespace ParseState

/-- What a token makes of the open groups. -/
inductive Steps : ParseState → Token → ParseState → Prop
  | part {g : OpenGroup} {enclosing : List OpenGroup} {token : Token} {p : Pattern}
      (h : token.part? g.flags = some p) : Steps ⟨g, enclosing⟩ token ⟨g.push p, enclosing⟩
  | flags {g : OpenGroup} {enclosing : List OpenGroup} {change : List Char} {flags : Flags}
      (hne : change ≠ []) (h : g.flags.change? change = some flags) :
      Steps ⟨g, enclosing⟩ (.flags change) ⟨g.changed flags, enclosing⟩
  | bar {g : OpenGroup} {enclosing : List OpenGroup} :
      Steps ⟨g, enclosing⟩ .bar ⟨g.bar, enclosing⟩
  | times {flags : Flags} {alternatives items : List Pattern} {p : Pattern}
      {enclosing : List OpenGroup} {least : Nat} {most : Option Nat} :
      Steps ⟨⟨flags, alternatives, p :: items, true⟩, enclosing⟩ (.times least most)
        ⟨⟨flags, alternatives, .repeated p least most :: items, true⟩, enclosing⟩
  | openGroup {g : OpenGroup} {enclosing : List OpenGroup} {change : List Char} {flags : Flags}
      (h : g.flags.change? change = some flags) :
      Steps ⟨g, enclosing⟩ (.openGroup change) ⟨.start flags, g :: enclosing⟩
  | closeGroup {g outer : OpenGroup} {enclosing : List OpenGroup} :
      Steps ⟨g, outer :: enclosing⟩ .closeGroup ⟨outer.push g.pattern, enclosing⟩

theorem steps_iff {s s' : ParseState} {token : Token} :
    s.step token = some s' ↔ Steps s token s' := by
  obtain ⟨g, enclosing⟩ := s
  constructor
  · intro h
    cases token with
    | literal c => cases h; exact .part rfl
    | anyChar => cases h; exact .part rfl
    | start => cases h; exact .part rfl
    | finish => cases h; exact .part rfl
    | place a => cases h; exact .part rfl
    | set parts negated => cases h; exact .part rfl
    | openGroup change =>
      obtain ⟨flags, hflags, rfl⟩ := Option.map_eq_some_iff.mp h
      exact .openGroup hflags
    | closeGroup =>
      cases enclosing with
      | nil => cases h
      | cons outer rest => cases h; exact .closeGroup
    | flags change =>
      cases change with
      | nil => cases h
      | cons c change =>
        obtain ⟨flags, hflags, rfl⟩ := Option.map_eq_some_iff.mp h
        exact .flags (List.cons_ne_nil _ _) hflags
    | bar => cases h; exact .bar
    | times least most =>
      obtain ⟨flags, alternatives, items, repeatable⟩ := g
      cases repeatable with
      | false => cases h
      | true =>
        cases items with
        | nil => cases h
        | cons p items => cases h; exact .times
    | invalid => cases h
  · intro h
    cases h with
    | @part _ _ token p h => cases token <;> cases h <;> rfl
    | @flags _ _ change flags hne h =>
      cases change with
      | nil => exact absurd rfl hne
      | cons c change => exact Option.map_eq_some_iff.mpr ⟨flags, h, rfl⟩
    | bar => rfl
    | times => rfl
    | @openGroup _ _ change flags h => exact Option.map_eq_some_iff.mpr ⟨flags, h, rfl⟩
    | closeGroup => rfl

/-- A relation that every token keeps is kept by the tokens of a text. -/
theorem exists_foldlM {R : ParseState → ParseState → Prop}
    (hstep : ∀ {s s' t : ParseState} {token : Token}, R s t → Steps s token s' →
      ∃ t', Steps t token t' ∧ R s' t')
    {tokens : List Token} {s s' t : ParseState} (h : R s t)
    (hs : tokens.foldlM step s = some s') : ∃ t', tokens.foldlM step t = some t' ∧ R s' t' := by
  induction tokens generalizing s t with
  | nil =>
    cases hs
    exact ⟨t, rfl, h⟩
  | cons token tokens ih =>
    rw [List.foldlM_cons] at hs
    obtain ⟨s₁, hs₁, hs⟩ := Option.bind_eq_some_iff.mp hs
    obtain ⟨t₁, ht₁, h₁⟩ := hstep h (steps_iff.mp hs₁)
    obtain ⟨t', ht', h'⟩ := ih h₁ hs
    refine ⟨t', ?_, h'⟩
    rw [List.foldlM_cons]
    exact Option.bind_eq_some_iff.mpr ⟨t₁, steps_iff.mpr ht₁, ht'⟩

/-- A text that is read has no flaw. -/
theorem invalid_not_mem {tokens : List Token} {s s' : ParseState}
    (h : tokens.foldlM step s = some s') : Token.invalid ∉ tokens := by
  induction tokens generalizing s with
  | nil => exact List.not_mem_nil
  | cons token tokens ih =>
    rw [List.foldlM_cons] at h
    obtain ⟨s₁, hs₁, h⟩ := Option.bind_eq_some_iff.mp h
    rw [List.mem_cons, not_or]
    refine ⟨?_, ih h⟩
    rintro rfl
    cases hs₁

end ParseState

/-! ## The same text under other flags -/

namespace OpenGroup

/-- The groups have as many alternatives and parts, and both or neither may be repeated. -/
structure Alike (g h : OpenGroup) : Prop where
  alternatives : g.alternatives.length = h.alternatives.length
  items : g.items.length = h.items.length
  repeatable : g.repeatable = h.repeatable

theorem Alike.push {g h : OpenGroup} (halike : Alike g h) (p q : Pattern) :
    Alike (g.push p) (h.push q) :=
  ⟨halike.alternatives, congrArg (· + 1) halike.items, rfl⟩

end OpenGroup

namespace ParseState

/-- The same groups are open, read under other flags. -/
def Alike (s t : ParseState) : Prop :=
  s.group.Alike t.group ∧ List.Forall₂ OpenGroup.Alike s.enclosing t.enclosing

theorem Alike.exists_steps {s s' t : ParseState} {token : Token} (h : Alike s t)
    (hs : Steps s token s') : ∃ t', Steps t token t' ∧ Alike s' t' := by
  obtain ⟨g', enclosing'⟩ := t
  obtain ⟨hgroup, henclosing⟩ := h
  cases hs with
  | part hp =>
    obtain ⟨q, hq⟩ := Token.exists_part? hp g'.flags
    exact ⟨_, .part hq, hgroup.push _ _, henclosing⟩
  | flags hne hchange =>
    obtain ⟨flags, hflags⟩ := Flags.exists_change? hchange g'.flags
    exact ⟨_, .flags hne hflags, ⟨hgroup.alternatives, hgroup.items, rfl⟩, henclosing⟩
  | bar => exact ⟨_, .bar, ⟨congrArg (· + 1) hgroup.alternatives, rfl, rfl⟩, henclosing⟩
  | times =>
    obtain ⟨flags, alternatives, items, repeatable⟩ := g'
    obtain ⟨halternatives, hitems, rfl⟩ := hgroup
    cases items with
    | nil => simp at hitems
    | cons q items => exact ⟨_, .times, ⟨halternatives, hitems, rfl⟩, henclosing⟩
  | openGroup hchange =>
    obtain ⟨flags, hflags⟩ := Flags.exists_change? hchange g'.flags
    exact ⟨_, .openGroup hflags, ⟨rfl, rfl, rfl⟩, .cons hgroup henclosing⟩
  | closeGroup =>
    cases henclosing with
    | cons houter hrest => exact ⟨_, .closeGroup, houter.push _ _, hrest⟩

end ParseState

/-! ## The same text behind one more part -/

namespace OpenGroup

/-- The second group has one more part in front of all others: in front of its parts if no bar has
been read, and in front of its first alternative otherwise. -/
structure Led (lead : Pattern) (g h : OpenGroup) : Prop where
  flags : h.flags = g.flags
  repeatable : g.repeatable = true → h.repeatable = true
  parts : (g.alternatives = [] ∧ h.alternatives = [] ∧ h.items = g.items ++ [lead]) ∨
    ∃ later first, g.alternatives = later ++ [sequence first] ∧
      h.alternatives = later ++ [sequence (first ++ [lead])] ∧ h.items = g.items

variable {lead : Pattern} {g h : OpenGroup}

theorem Led.push (hled : Led lead g h) (p : Pattern) : Led lead (g.push p) (h.push p) := by
  refine ⟨hled.flags, fun _ => rfl, ?_⟩
  obtain ⟨hg, hh, hitems⟩ | ⟨later, first, hg, hh, hitems⟩ := hled.parts
  · exact Or.inl ⟨hg, hh, congrArg (p :: ·) hitems⟩
  · exact Or.inr ⟨later, first, hg, hh, congrArg (p :: ·) hitems⟩

theorem Led.changed (hled : Led lead g h) (flags : Flags) :
    Led lead (g.changed flags) (h.changed flags) :=
  ⟨rfl, (nomatch ·), hled.parts⟩

theorem Led.bar (hled : Led lead g h) : Led lead g.bar h.bar := by
  refine ⟨hled.flags, (nomatch ·), Or.inr ?_⟩
  obtain ⟨hg, hh, hitems⟩ | ⟨later, first, hg, hh, hitems⟩ := hled.parts
  · exact ⟨[], g.items, by rw [OpenGroup.bar, hg]; rfl, by rw [OpenGroup.bar, hh, hitems]; rfl, rfl⟩
  · exact ⟨sequence g.items :: later, first, by rw [OpenGroup.bar, hg]; rfl,
      by rw [OpenGroup.bar, hh, hitems]; rfl, rfl⟩

/-- A group that has just been opened and has got its first part. -/
theorem led_push_start (flags : Flags) (lead : Pattern) :
    Led lead (start flags) ((start flags).push lead) :=
  ⟨rfl, fun _ => rfl, Or.inl ⟨rfl, rfl, rfl⟩⟩

/-- The last part is the same, and it may be repeated, if it may be in the group with fewer parts.
-/
theorem Led.exists_items {flags : Flags} {alternatives items : List Pattern} {p : Pattern}
    (hled : Led lead ⟨flags, alternatives, p :: items, true⟩ h) (q : Pattern) :
    ∃ items', h = ⟨h.flags, h.alternatives, p :: items', true⟩ ∧
      Led lead ⟨flags, alternatives, q :: items, true⟩
        ⟨h.flags, h.alternatives, q :: items', true⟩ := by
  have hrepeatable := hled.repeatable rfl
  obtain ⟨flags', alternatives', items', repeatable'⟩ := h
  cases hrepeatable
  obtain ⟨hg, hh, hitems⟩ | ⟨later, first, hg, hh, hitems⟩ := hled.parts
  · cases hitems
    exact ⟨items ++ [lead], rfl, hled.flags, fun _ => rfl, Or.inl ⟨hg, hh, rfl⟩⟩
  · cases hitems
    exact ⟨items, rfl, hled.flags, fun _ => rfl, Or.inr ⟨later, first, hg, hh, rfl⟩⟩

end OpenGroup

namespace ParseState

/-- The outermost group has one more part in front of all others. -/
inductive Led (lead : Pattern) : ParseState → ParseState → Prop
  | outermost {g h : OpenGroup} (hled : OpenGroup.Led lead g h) : Led lead ⟨g, []⟩ ⟨h, []⟩
  | inside {g h : OpenGroup} (inner : OpenGroup) (between : List OpenGroup)
      (hled : OpenGroup.Led lead g h) :
      Led lead ⟨inner, between ++ [g]⟩ ⟨inner, between ++ [h]⟩

variable {lead : Pattern}

/-- Once all groups inside are closed, only the outermost ones are there to compare. -/
theorem Led.exists_outermost {g : OpenGroup} {t : ParseState} (h : Led lead ⟨g, []⟩ t) :
    ∃ w, t = ⟨w, []⟩ ∧ OpenGroup.Led lead g w := by
  generalize hs : (⟨g, []⟩ : ParseState) = s at h
  cases h with
  | outermost hled =>
    cases hs
    exact ⟨_, rfl, hled⟩
  | inside inner between hled =>
    have hnil := congrArg ParseState.enclosing hs
    simp at hnil

/-- Within the outermost group, a token finds there what it finds without the part in front. -/
theorem exists_steps_outermost {g h : OpenGroup} {s' : ParseState} {token : Token}
    (hled : OpenGroup.Led lead g h) (hs : Steps ⟨g, []⟩ token s') :
    ∃ t', Steps ⟨h, []⟩ token t' ∧ Led lead s' t' := by
  cases hs with
  | part hp => exact ⟨_, .part (hled.flags ▸ hp), .outermost (hled.push _)⟩
  | flags hne hchange =>
    exact ⟨_, .flags hne (hled.flags ▸ hchange), .outermost (hled.changed _)⟩
  | bar => exact ⟨_, .bar, .outermost hled.bar⟩
  | times =>
    obtain ⟨items', hh, hnext⟩ := hled.exists_items (.repeated _ _ _)
    rw [hh]
    exact ⟨_, .times, .outermost hnext⟩
  | openGroup hchange => exact ⟨_, .openGroup (hled.flags ▸ hchange), .inside _ [] hled⟩

theorem Led.exists_steps {s s' t : ParseState} {token : Token} (h : Led lead s t)
    (hs : Steps s token s') : ∃ t', Steps t token t' ∧ Led lead s' t' := by
  cases h with
  | outermost hled => exact exists_steps_outermost hled hs
  | @inside g h inner between hled =>
    generalize henclosing : between ++ [g] = enclosing at hs
    cases hs with
    | part hp => exact ⟨_, .part hp, henclosing ▸ .inside _ between hled⟩
    | flags hne hchange => exact ⟨_, .flags hne hchange, henclosing ▸ .inside _ between hled⟩
    | bar => exact ⟨_, .bar, henclosing ▸ .inside _ between hled⟩
    | times => exact ⟨_, .times, henclosing ▸ .inside _ between hled⟩
    | openGroup hchange =>
      exact ⟨_, .openGroup hchange, henclosing ▸ .inside _ (inner :: between) hled⟩
    | closeGroup =>
      cases between with
      | nil =>
        cases henclosing
        exact ⟨_, .closeGroup, .outermost (hled.push _)⟩
      | cons outer between =>
        cases henclosing
        exact ⟨_, .closeGroup, .inside _ between hled⟩

end ParseState

/-! ## Whole texts -/

/-- The group that the whole text of a pattern makes, if all groups in it are closed. -/
def wholeGroup? (s : String) : Option OpenGroup := do
  let state ← (Token.scan s).foldlM ParseState.step ⟨.start {}, []⟩
  if state.enclosing.isEmpty then some state.group else none

/-- The alternatives of a text in their order, as the bars outside all groups part them. -/
def alternatives? (s : String) : Option (List Pattern) :=
  (wholeGroup? s).map fun g => (OpenGroup.sequence g.items :: g.alternatives).reverse

theorem parse?_eq (s : String) : parse? s = (wholeGroup? s).map OpenGroup.pattern := by
  rw [parse?, wholeGroup?]
  cases (Token.scan s).foldlM ParseState.step ⟨.start {}, []⟩ with
  | none => rfl
  | some state =>
    obtain ⟨g, enclosing⟩ := state
    cases enclosing <;> rfl

theorem wholeGroup?_eq_some_iff {s : String} {g : OpenGroup} :
    wholeGroup? s = some g ↔
      (Token.scan s).foldlM ParseState.step ⟨.start {}, []⟩ = some ⟨g, []⟩ := by
  rw [wholeGroup?]
  cases (Token.scan s).foldlM ParseState.step ⟨.start {}, []⟩ with
  | none => simp
  | some state =>
    obtain ⟨h, enclosing⟩ := state
    cases enclosing <;> simp

end TenantStore.Pattern
