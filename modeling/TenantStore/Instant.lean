import TenantStore.Json.Schema
import TenantStore.Text.Blank

/-!
# Instants

An instant of UTC in the civil calendar, to the nanosecond, and its RFC 3339 text. Reading is
lenient: blanks may stand in front of each part, a part need not fill its width, a year may have a
sign and more than four digits, and the time may have any offset and is moved to UTC. A blank in
front of a mark or behind the offset is refused, although other lenient readers of such texts may
pass over these blanks as well. Writing uses `Z` and the fewest of 0, 3, 6 or 9 fraction digits that
lose nothing.
-/

namespace TenantStore

/-- A day of the civil calendar. -/
structure Day where
  year : Int
  month : Nat
  day : Nat
  deriving DecidableEq, Repr, Inhabited

namespace Day

/-- Leap years are those divisible by 4, but of the centuries only those divisible by 400. -/
def isLeapYear (year : Int) : Bool :=
  year % 4 = 0 && (year % 100 ≠ 0 || year % 400 = 0)

/-- The number of days of a month. -/
def daysInMonth (year : Int) (month : Nat) : Nat :=
  if month = 2 then if isLeapYear year then 29 else 28
  else if month = 4 ∨ month = 6 ∨ month = 9 ∨ month = 11 then 30
  else 31

/-- The day is one of the calendar. -/
def Valid (d : Day) : Prop :=
  1 ≤ d.month ∧ d.month ≤ 12 ∧ 1 ≤ d.day ∧ d.day ≤ daysInMonth d.year d.month

instance (d : Day) : Decidable d.Valid := by
  unfold Valid
  infer_instance

/-- The day is of a year that there are instants in. -/
def InRange (d : Day) : Prop :=
  -262143 ≤ d.year ∧ d.year ≤ 262142

instance (d : Day) : Decidable d.InRange := by
  unfold InRange
  infer_instance

/-- The next day. -/
def next (d : Day) : Day :=
  if d.day < daysInMonth d.year d.month then { d with day := d.day + 1 }
  else if d.month < 12 then ⟨d.year, d.month + 1, 1⟩
  else ⟨d.year + 1, 1, 1⟩

/-- The day before. -/
def previous (d : Day) : Day :=
  if 1 < d.day then { d with day := d.day - 1 }
  else if 1 < d.month then ⟨d.year, d.month - 1, daysInMonth d.year (d.month - 1)⟩
  else ⟨d.year - 1, 12, 31⟩

end Day

/-- An instant of UTC. The second may be 60, a leap second. -/
structure Instant where
  date : Day
  hour : Nat
  minute : Nat
  second : Nat
  nanosecond : Nat
  deriving DecidableEq, Repr, Inhabited

namespace Instant

/-- Why a text is no instant. -/
inductive Flaw where
  /-- A character stands where another is needed. -/
  | invalid
  /-- The text ends too early. -/
  | tooShort
  /-- The text goes on after the instant. -/
  | tooLong
  /-- A part is not one of the calendar or the clock. -/
  | outOfRange
  /-- The time is moved out of the years that there are instants in. -/
  | impossible
  deriving DecidableEq, Repr

/-- The wording of a flaw. -/
def Flaw.message : Flaw → String
  | .invalid => "input contains invalid characters"
  | .tooShort => "premature end of input"
  | .tooLong => "trailing input"
  | .outOfRange => "input is out of range"
  | .impossible => "no possible date and time matching input"

/-! ## Reading -/

/-- Passes over blanks. -/
def skipBlanks (cs : List Char) : List Char :=
  cs.dropWhile Text.isSpace

/-- Reads a mark that may be any of the given characters. -/
def readMark (marks : List Char) : List Char → Except Flaw (List Char)
  | [] => .error .tooShort
  | c :: cs => if c ∈ marks then .ok cs else .error .invalid

/-- Reads digits behind a number, as many as there are, up to a limit. -/
def readDigits : Nat → Nat → List Char → Nat × List Char
  | limit + 1, n, c :: cs =>
    match Text.digit? c with
    | some d => readDigits limit (10 * n + d) cs
    | none => (n, c :: cs)
  | _, n, cs => (n, cs)

/-- Reads a number of at least one digit and up to a limit. -/
def readNumber (limit : Nat) : List Char → Except Flaw (Nat × List Char)
  | [] => .error .tooShort
  | c :: cs =>
    if (Text.digit? c).isSome then .ok (readDigits limit 0 (c :: cs)) else .error .invalid

/-- Reads a part of the calendar or the clock, of one or two digits. -/
def readPart (least greatest : Nat) (cs : List Char) : Except Flaw (Nat × List Char) := do
  let (n, cs) ← readNumber 2 (skipBlanks cs)
  if least ≤ n ∧ n ≤ greatest then return (n, cs) else .error .outOfRange

/-- Reads a number of up to four digits, or a sign and a number of any size. -/
def readSigned : List Char → Except Flaw (Int × List Char)
  | '-' :: cs => (readNumber cs.length cs).map fun (n, cs) => (-(n : Int), cs)
  | '+' :: cs => (readNumber cs.length cs).map fun (n, cs) => ((n : Int), cs)
  | cs => (readNumber 4 cs).map fun (n, cs) => ((n : Int), cs)

/-- Reads a year. -/
def readYear (cs : List Char) : Except Flaw (Int × List Char) := do
  let (year, cs) ← readSigned (skipBlanks cs)
  if -Int.pow 2 31 ≤ year ∧ year < Int.pow 2 31 then return (year, cs) else .error .outOfRange

/-- Reads a day. -/
def readDay (cs : List Char) : Except Flaw (Day × List Char) := do
  let (year, cs) ← readYear cs
  let cs ← readMark ['-'] cs
  let (month, cs) ← readPart 1 12 cs
  let cs ← readMark ['-'] cs
  let (day, cs) ← readPart 1 31 cs
  return (⟨year, month, day⟩, cs)

/-- Reads the fraction of a second, if there is one, in nanoseconds. Only nine digits count. -/
def readFraction : List Char → Except Flaw (Nat × List Char)
  | '.' :: cs => do
    let (n, rest) ← readNumber 9 cs
    let nanosecond := n * Nat.pow 10 (9 - (cs.length - rest.length))
    if nanosecond < Nat.pow 10 9 then
      return (nanosecond, rest.dropWhile fun c => (Text.digit? c).isSome)
    else .error .outOfRange
  | cs => .ok (0, cs)

/-- Reads two digits. -/
def readTwoDigits : List Char → Except Flaw (Nat × List Char)
  | [] => .error .tooShort
  | [c] => .error (if c.utf8Size < 2 then .tooShort else .invalid)
  | c :: d :: cs =>
    match Text.digit? c, Text.digit? d with
    | some m, some n => .ok (10 * m + n, cs)
    | _, _ => .error .invalid

/-- Reads hours and minutes, in minutes. Any colons and blanks may stand between them. -/
def readHours (cs : List Char) : Except Flaw (Int × List Char) := do
  let (hours, cs) ← readTwoDigits cs
  let (minutes, cs) ← readTwoDigits (cs.dropWhile fun c => c = ':' || Text.isSpace c)
  if minutes < 60 then return ((hours * 60 + minutes : Nat), cs) else .error .outOfRange

/-- Reads the offset from UTC, in minutes. -/
def readOffset (cs : List Char) : Except Flaw (Int × List Char) :=
  if (cs.take 3).map Char.toUpper = ['U', 'T', 'C'] then .ok (0, cs.drop 3)
  else
    match cs with
    | [] => .error .tooShort
    | c :: cs =>
      if c = 'Z' ∨ c = 'z' then .ok (0, cs)
      else if c = '+' then readHours cs
      else if c = '-' ∨ c = '−' then (readHours cs).map fun (offset, cs) => (-offset, cs)
      else .error .invalid

/-- Moves a day and a time of day in minutes by an offset that is shorter than a day. -/
def shift (date : Day) (minutes : Int) : Day × Nat :=
  if minutes < 0 then (date.previous, (minutes + 1440).toNat)
  else if 1440 ≤ minutes then (date.next, (minutes - 1440).toNat)
  else (date, minutes.toNat)

/-- The instant of a time with an offset from UTC. -/
def ofLocal (t : Instant) (offset : Int) : Except Flaw Instant :=
  if t.date.Valid ∧ t.date.InRange ∧ offset.natAbs < 1440 then
    let (date, minutes) := shift t.date (t.hour * 60 + t.minute - offset)
    if date.InRange then
      .ok { t with date, hour := minutes / 60, minute := minutes % 60 }
    else .error .impossible
  else .error .outOfRange

/-- Reads an instant. -/
def read (s : String) : Except Flaw Instant := do
  let (date, cs) ← readDay s.toList
  let cs ← readMark ['T', 't', ' '] cs
  let (hour, cs) ← readPart 0 23 cs
  let cs ← readMark [':'] cs
  let (minute, cs) ← readPart 0 59 cs
  let cs ← readMark [':'] cs
  let (second, cs) ← readPart 0 60 cs
  let (nanosecond, cs) ← readFraction cs
  let (offset, cs) ← readOffset (skipBlanks cs)
  if cs.isEmpty then ofLocal ⟨date, hour, minute, second, nanosecond⟩ offset
  else .error .tooLong

/-! ## Writing -/

/-- A number with zeros in front to fill the width. -/
def padded (width n : Nat) : String :=
  let digits := Nat.toDigits 10 n
  String.ofList (List.replicate (width - digits.length) '0' ++ digits)

/-- A year: four digits, or a sign and at least four digits outside the years 0 to 9999. -/
def yearText (year : Int) : String :=
  if 0 ≤ year ∧ year ≤ 9999 then padded 4 year.toNat
  else (if year < 0 then "-" else "+") ++ padded 4 year.natAbs

/-- The fraction of a second, in the fewest groups of three digits. -/
def fractionText (nanosecond : Nat) : String :=
  if nanosecond = 0 then ""
  else if nanosecond % 1000000 = 0 then "." ++ padded 3 (nanosecond / 1000000)
  else if nanosecond % 1000 = 0 then "." ++ padded 6 (nanosecond / 1000)
  else "." ++ padded 9 nanosecond

/-- The RFC 3339 text of an instant. -/
def text (t : Instant) : String :=
  yearText t.date.year ++ "-" ++ padded 2 t.date.month ++ "-" ++ padded 2 t.date.day ++ "T" ++
    padded 2 t.hour ++ ":" ++ padded 2 t.minute ++ ":" ++ padded 2 t.second ++
    fractionText t.nanosecond ++ "Z"

/-- In JSON, an instant is its text. -/
def schema : Schema :=
  .text "an RFC 3339 formatted date and time string" fun s =>
    match read s with
    | .ok _ => none
    | .error flaw => some flaw.message

/-- Writes an instant. -/
def toJson (t : Instant) : Json :=
  .string t.text

/-- The instant of a member whose text is one. -/
def ofMember (ms : Members Json) (name : String) : Instant :=
  match read (Json.textAt ms name) with
  | .ok t => t
  | .error _ => default

end Instant
end TenantStore
