import TenantStore.Text.Blank
import TenantStore.Text.CaseFold
import TenantStore.Text.DecimalDigit

/-!
# Text patterns

The syntax tree of regular expressions over characters, and what they match. The flags that a
pattern was written under are part of its leaves, so the tree means the same wherever it stands.

A pattern is run on a set of positions of a text at once: `reach` gives the positions where a match
that starts at one of them may end. `found` searches anywhere in the text, `coversAll` asks for a
match of the whole text.
-/

namespace TenantStore

/-- A part of a character set. -/
inductive CharRange where
  /-- The characters between two, both included. -/
  | between (low high : Char)
  /-- White space, or everything else. -/
  | space (inside : Bool)
  /-- Decimal digits, or everything else. -/
  | digit (inside : Bool)
  deriving DecidableEq, Repr

/-- The character belongs to the part. -/
def CharRange.contains : CharRange → Char → Bool
  | between low high, c => low.toNat ≤ c.toNat && c.toNat ≤ high.toNat
  | space inside, c => Text.isSpace c == inside
  | digit inside, c => Text.isDecimalDigit c == inside

/-- A place in the text that a pattern may ask for. -/
inductive Anchor where
  | textStart
  | textEnd
  | lineStart
  | lineEnd
  deriving DecidableEq, Repr

/-- A regular expression. -/
inductive Pattern where
  /-- The empty text. -/
  | empty
  /-- One character, or any that is the same up to case. -/
  | char (c : Char) (ignoreCase : Bool)
  /-- Any character; a line feed only if `lines`. -/
  | anyChar (lines : Bool)
  /-- A character of a set, or none of it if `negated`. -/
  | set (parts : List CharRange) (negated ignoreCase : Bool)
  /-- No character, at a certain place. -/
  | anchor (place : Anchor)
  /-- One after the other. -/
  | seq (first second : Pattern)
  /-- Either of two. -/
  | alt (left right : Pattern)
  /-- At least `least` times and at most `most` times, if there is a limit. -/
  | repeated (body : Pattern) (least : Nat) (most : Option Nat)
  deriving DecidableEq, Repr, Inhabited

namespace Pattern

/-- The character belongs to the set. Case is ignored before the set is negated. -/
def setContains (parts : List CharRange) (negated ignoreCase : Bool) (c : Char) : Bool :=
  let cases := if ignoreCase then c :: Text.foldClass c else [c]
  (cases.any fun d => parts.any (·.contains d)) != negated

/-- The position is such a place. Lines end before a line feed and start after one. -/
def holdsAt (text : List Char) (place : Anchor) (i : Nat) : Bool :=
  match place with
  | .textStart => i = 0
  | .textEnd => i = text.length
  | .lineStart => i = 0 || text[i - 1]? = some '\n'
  | .lineEnd => i = text.length || text[i]? = some '\n'

/-- The positions after a character for which the test holds. -/
def afterChar (text : List Char) (test : Char → Bool) (positions : List Nat) : List Nat :=
  positions.filterMap fun i =>
    match text[i]? with
    | some c => if test c then some (i + 1) else none
    | none => none

/-- Positions of either list, without repetitions. -/
def merge (xs ys : List Nat) : List Nat :=
  xs ++ ys.filter fun y => !xs.contains y

/-- The positions reached by at most `count` runs. -/
def atMost (run : List Nat → List Nat) : Nat → List Nat → List Nat
  | 0, positions => positions
  | count + 1, positions => merge positions (atMost run count (run positions))

/-- The positions reached by exactly `count` runs. -/
def exactly (run : List Nat → List Nat) : Nat → List Nat → List Nat
  | 0, positions => positions
  | count + 1, positions => exactly run count (run positions)

/-- The positions reached by any number of runs: after as many runs as there are positions nothing
new is reached. -/
def closure (run : List Nat → List Nat) : Nat → List Nat → List Nat
  | 0, positions => positions
  | count + 1, positions => closure run count (merge positions (run positions))

/-- The positions where matches that start at one of the positions may end. -/
def reach (text : List Char) : Pattern → List Nat → List Nat
  | empty, positions => positions
  | char c ignoreCase, positions =>
    afterChar text (fun d => if ignoreCase then Text.sameFold c d else decide (c = d)) positions
  | anyChar lines, positions => afterChar text (fun d => lines || decide (d ≠ '\n')) positions
  | set parts negated ignoreCase, positions =>
    afterChar text (setContains parts negated ignoreCase) positions
  | anchor place, positions => positions.filter (holdsAt text place)
  | seq first second, positions => reach text second (reach text first positions)
  | alt left right, positions => merge (reach text left positions) (reach text right positions)
  | repeated body least most, positions =>
    let start := exactly (reach text body) least positions
    match most with
    | some limit => atMost (reach text body) (min (limit - least) (text.length + 1)) start
    | none => closure (reach text body) (text.length + 1) start

/-- The pattern matches somewhere in the text. -/
def found (p : Pattern) (s : String) : Bool :=
  let text := s.toList
  !(reach text p (List.range (text.length + 1))).isEmpty

/-- The pattern matches the text as a whole. -/
def coversAll (p : Pattern) (s : String) : Bool :=
  let text := s.toList
  (reach text p [0]).contains text.length

end Pattern
end TenantStore
