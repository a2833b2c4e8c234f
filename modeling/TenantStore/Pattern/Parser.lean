import TenantStore.Pattern.Token

/-!
# Reading patterns

`Pattern.parse?` reads the text of a pattern. Groups that are open are kept on a stack, each with
the flags that are in force inside it: a change of flags lasts to the end of its group, across bars.

Flags are `i` (case does not count), `m` (lines have ends of their own), `s` (the point takes line
feeds too), `U` and `u` (no effect on what is found); a dash turns the ones behind it off. No flag
may come twice. Other engines also know flags for free spacing (`x`) and for line ends of two
characters (`R`), and turn `u` off to count with ASCII characters only; these are refused here.
-/

namespace TenantStore.Pattern

/-- The flags in force. -/
structure Flags where
  ignoreCase : Bool := false
  lines : Bool := false
  anyLine : Bool := false
  deriving DecidableEq, Repr

namespace Flags

/-- The letters of flags. -/
def letters : List Char := ['i', 'm', 's', 'U', 'u']

/-- Turns one flag on or off. -/
def put (f : Flags) (on : Bool) (letter : Char) : Flags :=
  if letter = 'i' then { f with ignoreCase := on }
  else if letter = 'm' then { f with lines := on }
  else if letter = 's' then { f with anyLine := on }
  else f

/-- The letters before and after the dash of a change, if there is one and it stands before letters.
-/
def parts? (change : List Char) : Option (List Char × List Char) :=
  match change.dropWhile (· ≠ '-') with
  | [] => some (change, [])
  | [_] => none
  | _ :: off => some (change.takeWhile (· ≠ '-'), off)

/-- The flags after a change, if all of its letters are flags, none comes twice and `u` is not
turned off. -/
def change? (f : Flags) (change : List Char) : Option Flags := do
  let (on, off) ← parts? change
  if (on ++ off).all (letters.contains ·) && decide (on ++ off).Nodup && !off.contains 'u' then
    some (off.foldl (·.put false) (on.foldl (·.put true) f))
  else none

end Flags

/-- A group that is open. -/
structure OpenGroup where
  flags : Flags
  /-- The alternatives before the last bar, last first. -/
  alternatives : List Pattern
  /-- The parts of the current alternative, last first. -/
  items : List Pattern
  /-- What stands last may be repeated. -/
  repeatable : Bool

namespace OpenGroup

/-- A group that has just been opened. -/
def start (flags : Flags) : OpenGroup :=
  ⟨flags, [], [], false⟩

/-- The group with one more part. -/
def push (g : OpenGroup) (p : Pattern) : OpenGroup :=
  { g with items := p :: g.items, repeatable := true }

/-- Patterns one after the other, given last first. -/
def sequence : List Pattern → Pattern
  | [] => .empty
  | p :: ps => ps.foldl (fun rest q => .seq q rest) p

/-- Any of some patterns, given last first. -/
def choice (last : Pattern) (others : List Pattern) : Pattern :=
  others.foldl (fun rest q => .alt q rest) last

/-- The pattern of the whole group. -/
def pattern (g : OpenGroup) : Pattern :=
  choice (sequence g.items) g.alternatives

end OpenGroup

/-- Where the reading stands: the innermost group and the ones around it. -/
structure ParseState where
  group : OpenGroup
  enclosing : List OpenGroup

/-- Adds a part to the innermost group. -/
def ParseState.push (s : ParseState) (p : Pattern) : ParseState :=
  { s with group := s.group.push p }

/-- One token. -/
def ParseState.step (s : ParseState) : Token → Option ParseState
  | .literal c => some (s.push (.char c s.group.flags.ignoreCase))
  | .anyChar => some (s.push (.anyChar s.group.flags.anyLine))
  | .start => some (s.push (.anchor (if s.group.flags.lines then .lineStart else .textStart)))
  | .finish => some (s.push (.anchor (if s.group.flags.lines then .lineEnd else .textEnd)))
  | .place a => some (s.push (.anchor a))
  | .set parts negated => some (s.push (.set parts negated s.group.flags.ignoreCase))
  | .openGroup change =>
    (s.group.flags.change? change).map fun flags => ⟨.start flags, s.group :: s.enclosing⟩
  | .closeGroup =>
    match s.enclosing with
    | [] => none
    -- Leaving a group brings back the flags of the one around it.
    | outer :: rest => some ⟨outer.push s.group.pattern, rest⟩
  -- A change of flags names at least one, and is no part that could be repeated.
  | .flags [] => none
  | .flags change =>
    (s.group.flags.change? change).map fun flags =>
      { s with group := { s.group with flags, repeatable := false } }
  | .bar =>
    some
      { s with
        group :=
          { s.group with
            alternatives := OpenGroup.sequence s.group.items :: s.group.alternatives
            items := []
            repeatable := false } }
  | .times least most =>
    match s.group.repeatable, s.group.items with
    | true, p :: items =>
      some { s with group := { s.group with items := .repeated p least most :: items } }
    | _, _ => none
  | .invalid => none

/-- Reads a pattern. -/
def parse? (s : String) : Option Pattern := do
  let state ← (Token.scan s).foldlM ParseState.step ⟨.start {}, []⟩
  if state.enclosing.isEmpty then some state.group.pattern else none

end TenantStore.Pattern
