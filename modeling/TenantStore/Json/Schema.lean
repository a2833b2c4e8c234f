import TenantStore.Json.Printer
import TenantStore.Text.Quoted

/-!
# Schemas

A schema says what a JSON value of a contract looks like. `Schema.conform` reads a value by a schema
and answers with the value in its full form: members that are not of the contract are left out,
members that are missing and have a default are filled in, and a record that was given as the
sequence of its members has their names.

Faults are reported in a fixed order: the members that are present are read in the order of their
names, and only when all of them are good the first missing one, in the order of the contract, is
named.
-/

namespace TenantStore

/-- Why a value does not conform to a schema. -/
inductive DecodeError where
  /-- A member without a default is missing. -/
  | missing (name : String)
  /-- A value of the wrong kind. -/
  | invalidType (found : Json) (expected : String)
  /-- A whole number outside the range of the member. -/
  | invalidValue (found : Json) (expected : String)
  /-- A sequence with the wrong number of items. -/
  | invalidLength (found : Nat) (expected : String)
  /-- A text that its own rule refuses. -/
  | refused (reason : String)
  deriving DecidableEq, Repr

namespace DecodeError

/-- A value as it is named in a message. -/
def describe : Json → String
  | .null => "null"
  | .bool b => "boolean `" ++ (if b then "true" else "false") ++ "`"
  | .number (.whole n) => "integer `" ++ toString n ++ "`"
  | .number (.real x) => "floating point `" ++ x.text .json ++ "`"
  | .string s => "string " ++ Text.quoted s
  | .array _ => "sequence"
  | .object _ => "map"

/-- The wording of a fault. -/
def message : DecodeError → String
  | missing name => "missing field `" ++ name ++ "`"
  | invalidType found expected => "invalid type: " ++ describe found ++ ", expected " ++ expected
  | invalidValue found expected => "invalid value: " ++ describe found ++ ", expected " ++ expected
  | invalidLength found expected =>
    "invalid length " ++ toString found ++ ", expected " ++ expected
  | refused reason => reason

end DecodeError

/-- What a JSON value looks like. -/
inductive Schema where
  /-- Any value. -/
  | any
  /-- A string that the rule finds no flaw in; `expected` names it in messages. -/
  | text (expected : String) (flaw? : String → Option String)
  /-- An unsigned whole number of 64 bits. -/
  | natural
  /-- A signed whole number of 64 bits. -/
  | integer
  /-- An object whose members all are strings. -/
  | texts
  /-- An array of values of one schema. -/
  | list (item : Schema)
  /-- A value or null. -/
  | optional (value : Schema)
  /-- An object with the given members, or the sequence of their values; each has a name, a default
  if it may be left out, and a schema. -/
  | record (name : String) (fields : List (String × Option Json × Schema))

namespace Schema

/-- Any string. -/
def string : Schema :=
  .text "a string" fun _ => none

/-- A member that has to be present. -/
def required (name : String) (schema : Schema) : String × Option Json × Schema :=
  (name, none, schema)

/-- A member that has a default. -/
def defaulted (name : String) (default : Json) (schema : Schema) : String × Option Json × Schema :=
  (name, some default, schema)

/-- How messages name a record. -/
def recordName (name : String) : String :=
  "struct " ++ name

/-- How messages name a record that is given as a sequence. -/
def sequenceName (name : String) (count : Nat) : String :=
  recordName name ++ " with " ++ toString count ++ (if count = 1 then " element" else " elements")

/-- The members of the contract in full: what was read, and defaults for what was not. -/
def complete (read : Members Json) :
    List (String × Option Json × Schema) → Members Json → Except DecodeError (Members Json)
  | [], full => .ok full
  | (name, default, _) :: fields, full =>
    match Members.get? read name, default with
    | some v, _ => complete read fields (Members.insert full name v)
    | none, some v => complete read fields (Members.insert full name v)
    | none, none => .error (.missing name)

/-- A value of the wrong kind for a whole number, or one out of range. -/
def refuseNumber (found : Json) (expected : String) : DecodeError :=
  match found with
  | .number (.whole _) => .invalidValue found expected
  | _ => .invalidType found expected

/-- The first value of a map of strings that is no string. -/
def checkTexts : List (String × Json) → Except DecodeError Unit
  | [] => .ok ()
  | (_, .string _) :: rest => checkTexts rest
  | (_, v) :: _ => .error (.invalidType v "a string")

mutual

/-- Reads a value by a schema. -/
def conform : Schema → Json → Except DecodeError Json
  | .any, v => .ok v
  | .text expected flaw?, v =>
    match v with
    | .string s =>
      match flaw? s with
      | some reason => .error (.refused reason)
      | none => .ok v
    | _ => .error (.invalidType v expected)
  | .natural, v =>
    match v.natural? with
    | some _ => .ok v
    | none => .error (refuseNumber v "u64")
  | .integer, v =>
    match v.integer? with
    | some _ => .ok v
    | none => .error (refuseNumber v "i64")
  | .texts, v =>
    match v with
    | .object ms => (checkTexts ms).map fun _ => v
    | _ => .error (.invalidType v "a map")
  | .list item, v =>
    match v with
    | .array xs => (xs.mapM fun x => conform item x).map .array
    | _ => .error (.invalidType v "a sequence")
  | .optional value, v =>
    match v with
    | .null => .ok .null
    | _ => conform value v
  | .record name fields, v =>
    match v with
    | .object ms => do
      let read ← ms.filterMapM fun (k, x) => return (← conformMember fields k x).map (k, ·)
      return .object (← complete read fields [])
    | .array xs => do
      let read ← conformSequence (sequenceName name fields.length) 0 fields xs
      return .object (Members.ofList read)
    | _ => .error (.invalidType v (recordName name))

/-- Reads a member of a record, if it is one of the contract. -/
def conformMember :
    List (String × Option Json × Schema) → String → Json → Except DecodeError (Option Json)
  | [], _, _ => .ok none
  | (name, _, schema) :: fields, k, x =>
    if name = k then (conform schema x).map some else conformMember fields k x

/-- Reads the members of a record from the sequence of their values. -/
def conformSequence (expected : String) :
    Nat → List (String × Option Json × Schema) → List Json →
      Except DecodeError (List (String × Json))
  | _, [], [] => .ok []
  | count, [], rest => .error (.invalidLength (count + rest.length) "fewer elements in array")
  | count, (name, default, _) :: fields, [] =>
    match default with
    | some v => return (name, v) :: (← conformSequence expected (count + 1) fields [])
    | none => .error (.invalidLength count expected)
  | count, (name, _, schema) :: fields, x :: xs => do
    let v ← conform schema x
    return (name, v) :: (← conformSequence expected (count + 1) fields xs)

end

/-- The members of a contract read from those of an object, in full. -/
def conformMembers (fields : List (String × Option Json × Schema)) (ms : Members Json) :
    Except DecodeError (Members Json) := do
  let read ← ms.filterMapM fun (k, x) => return (← conformMember fields k x).map (k, ·)
  complete read fields []

end Schema

/-! ## Parts of a value that conforms -/

namespace Json

/-- The string of a member. -/
def textAt (ms : Members Json) (name : String) : String :=
  ((Members.get? ms name).bind string?).getD ""

/-- The unsigned whole number of a member. -/
def naturalAt (ms : Members Json) (name : String) : Nat :=
  ((Members.get? ms name).bind natural?).getD 0

/-- The signed whole number of a member. -/
def integerAt (ms : Members Json) (name : String) : Int :=
  ((Members.get? ms name).bind integer?).getD 0

/-- The value of a member. -/
def valueAt (ms : Members Json) (name : String) : Json :=
  (Members.get? ms name).getD .null

/-- The items of a member. -/
def itemsAt (ms : Members Json) (name : String) : List Json :=
  ((Members.get? ms name).bind items?).getD []

/-- The members of a member. -/
def membersAt (ms : Members Json) (name : String) : Members Json :=
  ((Members.get? ms name).bind members?).getD []

/-- The strings of a member whose members are strings. -/
def textsAt (ms : Members Json) (name : String) : Members String :=
  (membersAt ms name).filterMap fun (k, v) => v.string?.map (k, ·)

/-- The object of named strings. -/
def ofTexts (ms : Members String) : Json :=
  .object (ms.map fun (k, s) => (k, .string s))

end Json
end TenantStore
