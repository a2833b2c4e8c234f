import TenantStore.Pattern.Basic
import TenantStore.Text.Numeral

/-!
# Tokens of a pattern text

`Token.scan` cuts the text of a pattern into tokens with a machine that reads one character at a
time: a character set, a number of repetitions and the head of a group each are one token. Where the
text breaks the grammar, the list ends with `Token.invalid`.

Not all of the usual syntax is read. These are taken as flaws although other engines read them: the
escapes of word characters and word boundaries (`w`, `b` and their capitals), of characters by their
number (`x`, `u`, `U`), and of Unicode properties (`p`, `P`). Sets hold characters, ranges and the
classes of escapes; sets inside a set, named classes of ASCII characters and the operations on sets
are flaws too. Groups have flags, but no names.
-/

namespace TenantStore.Pattern

/-- A token of a pattern text. -/
inductive Token where
  /-- A character that stands for itself. -/
  | literal (c : Char)
  /-- The point. -/
  | anyChar
  /-- The caret. -/
  | start
  /-- The dollar. -/
  | finish
  /-- A place that does not depend on flags. -/
  | place (a : Anchor)
  | set (parts : List CharRange) (negated : Bool)
  /-- The start of a group, with the flags that change inside. -/
  | openGroup (flags : List Char)
  | closeGroup
  /-- A change of flags up to the end of the group. -/
  | flags (flags : List Char)
  | bar
  /-- How often what stands before is repeated. -/
  | times (least : Nat) (most : Option Nat)
  /-- The text breaks the grammar here. -/
  | invalid
  deriving Repr, DecidableEq

namespace Token

/-- What an escape stands for. -/
inductive Escape where
  | char (c : Char)
  | part (r : CharRange)
  | place (a : Anchor)
  deriving Repr, DecidableEq

/-- What a character after a backslash stands for, if it is read: some letters have a meaning,
digits have none, and other ASCII characters but angle brackets stand for themselves. -/
def escape? (c : Char) : Option Escape :=
  if c = 'd' then some (.part (.digit true))
  else if c = 'D' then some (.part (.digit false))
  else if c = 's' then some (.part (.space true))
  else if c = 'S' then some (.part (.space false))
  else if c = 'n' then some (.char '\n')
  else if c = 'r' then some (.char '\r')
  else if c = 't' then some (.char '\t')
  else if c = 'a' then some (.char (Char.ofNat 7))
  else if c = 'v' then some (.char (Char.ofNat 11))
  else if c = 'f' then some (.char (Char.ofNat 12))
  else if c = 'A' then some (.place .textStart)
  else if c = 'z' then some (.place .textEnd)
  else if c.toNat < 128 ∧ c.isAlphanum = false ∧ c ≠ '<' ∧ c ≠ '>' then some (.char c)
  else none

/-- A set as far as it has been read, its parts last first. -/
structure OpenSet where
  negated : Bool
  parts : List CharRange

/-- A single character as a part of a set. -/
def single (c : Char) : CharRange :=
  .between c c

/-- The set with one more part. -/
def OpenSet.add (s : OpenSet) (part : CharRange) : OpenSet :=
  { s with parts := part :: s.parts }

/-- The token of a set that is complete. -/
def OpenSet.token (s : OpenSet) : Token :=
  .set s.parts.reverse s.negated

/-- Where the machine stands. -/
inductive Mode where
  /-- Between tokens. -/
  | between
  /-- After a repetition, which a question mark does not change. -/
  | afterTimes
  /-- After a backslash. -/
  | escape
  /-- Inside braces, with the text so far, last character first. -/
  | count (read : List Char)
  /-- After an opening parenthesis. -/
  | groupHead
  /-- After the question mark of a group, with the flags so far, last first. -/
  | flags (read : List Char)
  /-- After an opening bracket. -/
  | setHead
  /-- Where a closing bracket still stands for itself, unless there are dashes before it. -/
  | setFirst (s : OpenSet)
  /-- Between parts of a set. -/
  | setNext (s : OpenSet)
  /-- After a character of a set, which may start a range. -/
  | setChar (s : OpenSet) (c : Char)
  /-- After a character of a set and a dash. -/
  | setDash (s : OpenSet) (c : Char)
  /-- After a backslash in a set; `low` is the start of a range that waits for its end. -/
  | setEscape (s : OpenSet) (low : Option Char)
  /-- After a flaw. -/
  | stopped

/-- The machine stops at a flaw. -/
def flaw : List Token × Mode :=
  ([.invalid], .stopped)

/-- The number between braces, with blanks around it. -/
def countNumber? (cs : List Char) : Option Nat :=
  match Text.trimmed cs with
  | [] => none
  | ds => (Text.readDigits (Nat.pow 2 32) 0 ds).toOption

/-- How often a text between braces asks for: `n`, `n,` or `n,m`. -/
def count? (text : List Char) : Option (Nat × Option Nat) :=
  let least := text.takeWhile (· ≠ ',')
  match text.dropWhile (· ≠ ',') with
  | [] => (countNumber? least).map fun n => (n, some n)
  | [_] => (countNumber? least).map fun n => (n, none)
  | _ :: most => do
    let n ← countNumber? least
    let m ← countNumber? most
    if n ≤ m then some (n, some m) else none

/-- A character between tokens. -/
def stepBetween (c : Char) : List Token × Mode :=
  if c = '\\' then ([], .escape)
  else if c = '.' then ([.anyChar], .between)
  else if c = '^' then ([.start], .between)
  else if c = '$' then ([.finish], .between)
  else if c = '|' then ([.bar], .between)
  else if c = '*' then ([.times 0 none], .afterTimes)
  else if c = '+' then ([.times 1 none], .afterTimes)
  else if c = '?' then ([.times 0 (some 1)], .afterTimes)
  else if c = '\x7b' then ([], .count [])
  else if c = '(' then ([], .groupHead)
  else if c = ')' then ([.closeGroup], .between)
  else if c = '[' then ([], .setHead)
  else ([.literal c], .between)

/-- A character between parts of a set. -/
def stepSet (s : OpenSet) (c : Char) : List Token × Mode :=
  if c = ']' then ([s.token], .between)
  else if c = '[' then flaw
  else if c = '\\' then ([], .setEscape s none)
  else ([], .setChar s c)

/-- A character where a closing bracket may stand for itself. -/
def stepSetFirst (s : OpenSet) (c : Char) : List Token × Mode :=
  if c = '-' then ([], .setFirst (s.add (single c)))
  else if c = ']' ∧ s.parts = [] then ([], .setNext (s.add (single c)))
  else stepSet s c

/-- The range from one character to another, which must not come before it. -/
def closeRange (s : OpenSet) (low high : Char) : List Token × Mode :=
  if low.toNat ≤ high.toNat then ([], .setNext (s.add (.between low high))) else flaw

/-- One character of the text. -/
def step : Mode → Char → List Token × Mode
  | .between, c => stepBetween c
  | .afterTimes, c => if c = '?' then ([], .between) else stepBetween c
  | .escape, c =>
    match escape? c with
    | some (.char e) => ([.literal e], .between)
    | some (.part r) => ([.set [r] false], .between)
    | some (.place a) => ([.place a], .between)
    | none => flaw
  | .count read, c =>
    if c = '\x7d' then
      match count? read.reverse with
      | some (least, most) => ([.times least most], .afterTimes)
      | none => flaw
    else ([], .count (c :: read))
  | .groupHead, c =>
    if c = '?' then ([], .flags [])
    else
      let (tokens, mode) := stepBetween c
      (.openGroup [] :: tokens, mode)
  | .flags read, c =>
    if c = ')' then ([.flags read.reverse], .between)
    else if c = ':' then ([.openGroup read.reverse], .between)
    else ([], .flags (c :: read))
  | .setHead, c =>
    if c = '^' then ([], .setFirst ⟨true, []⟩) else stepSetFirst ⟨false, []⟩ c
  | .setFirst s, c => stepSetFirst s c
  | .setNext s, c => stepSet s c
  | .setChar s low, c =>
    if c = '-' ∧ low ≠ '-' then ([], .setDash s low)
    else if c = low ∧ (c = '-' ∨ c = '&' ∨ c = '~') then flaw
    else stepSet (s.add (single low)) c
  | .setDash s low, c =>
    if c = ']' then ([((s.add (single low)).add (single '-')).token], .between)
    else if c = '-' then flaw
    else if c = '\\' then ([], .setEscape s (some low))
    else closeRange s low c
  | .setEscape s none, c =>
    match escape? c with
    | some (.char e) => ([], .setChar s e)
    | some (.part r) => ([], .setNext (s.add r))
    | _ => flaw
  | .setEscape s (some low), c =>
    match escape? c with
    | some (.char e) => closeRange s low e
    | _ => flaw
  | .stopped, _ => ([], .stopped)

/-- The end of the text. -/
def stop : Mode → List Token
  | .between | .afterTimes | .stopped => []
  | _ => [.invalid]

/-- The tokens of the text from a mode on. -/
def scanFrom : Mode → List Char → List Token
  | mode, [] => stop mode
  | mode, c :: cs =>
    let (tokens, next) := step mode c
    tokens ++ scanFrom next cs

/-- The tokens of a pattern text. -/
def scan (s : String) : List Token :=
  scanFrom .between s.toList

end Token
end TenantStore.Pattern
