import TenantStore.Json.Schema
import TenantStore.Json.Token

/-!
# Reading text by a schema

`Schema.read` reads a JSON text that is expected to have a certain shape. The shape is judged while
the text is read, token by token, so of a fault of form and a fault of shape the one met first
counts. The machine keeps a stack of the arrays and objects that are open.

Members that are not of the contract are skipped: their text has to be well formed, but it is not
held to the limit on nesting, to the range of numbers or to the pairing of surrogate escapes.
-/

namespace TenantStore

/-- Why a text was not read. -/
inductive ReadError where
  /-- The text is no JSON text, or it is nested too deeply. -/
  | form
  /-- The text stands for a value of another shape. -/
  | shape
  deriving DecidableEq, Repr

namespace Schema

open Json (Token)

/-- The most arrays and objects that may be open at once. -/
def maxDepth : Nat := 127

/-- An array or object that is open. A schema of `none` is that of skipped text. -/
inductive Frame where
  /-- An array, with the items read so far, last first. -/
  | items (item : Option Schema) (read : List Json)
  /-- An object whose members all have one schema, with the name whose value comes next. -/
  | members (value : Option Schema) (read : Members Json) (name : String)
  /-- A record, with the name whose value comes next, or `none` for a name to skip. -/
  | record (fields : List (String × Option Json × Schema)) (read : Members Json)
      (name : Option String)
  /-- A record given as a sequence, with the members still to come. -/
  | sequence (fields : List (String × Option Json × Schema)) (read : Members Json)

/-- What may come next. -/
inductive Mode where
  /-- A value, or the end of the array if `first`. -/
  | value (schema : Option Schema) (first : Bool)
  /-- A comma or the end of the array. -/
  | afterItem
  /-- A name, or the end of the object if `first`. -/
  | name (first : Bool)
  /-- The colon before a value. -/
  | colon (schema : Option Schema)
  /-- A comma or the end of the object. -/
  | afterMember
  /-- Nothing: the value is complete. -/
  | done (value : Json)

/-- Where the reading stands. -/
structure State where
  stack : List Frame
  mode : Mode

/-- Hands a complete value to the innermost open array or object. -/
def deliver (v : Json) : List Frame → State
  | [] => ⟨[], .done v⟩
  | .items none _ :: rest => ⟨.items none [] :: rest, .afterItem⟩
  | .items (some item) read :: rest => ⟨.items (some item) (v :: read) :: rest, .afterItem⟩
  | .members none _ _ :: rest => ⟨.members none [] "" :: rest, .afterMember⟩
  | .members (some value) read name :: rest =>
    ⟨.members (some value) (Members.insert read name v) "" :: rest, .afterMember⟩
  -- The value of an unknown name is dropped.
  | .record fields read none :: rest => ⟨.record fields read none :: rest, .afterMember⟩
  | .record fields read (some name) :: rest =>
    ⟨.record fields (Members.insert read name v) none :: rest, .afterMember⟩
  | .sequence [] read :: rest => ⟨.sequence [] read :: rest, .afterItem⟩
  | .sequence ((name, _) :: fields) read :: rest =>
    ⟨.sequence fields (Members.insert read name v) :: rest, .afterItem⟩

/-- Some member without a default is missing. -/
def isMissing (fields : List (String × Option Json × Schema)) (read : Members Json) : Bool :=
  fields.any fun (name, default, _) => default.isNone && !Members.has read name

/-- The frame of an array where the schema allows one. -/
def arrayFrame? : Schema → Option Frame
  | .any => some (.items (some .any) [])
  | .list item => some (.items (some item) [])
  | .record _ fields => some (.sequence fields [])
  | .optional value => arrayFrame? value
  | _ => none

/-- The frame of an object where the schema allows one. -/
def objectFrame? : Schema → Option Frame
  | .any => some (.members (some .any) [] "")
  | .texts => some (.members (some .string) [] "")
  | .record _ fields => some (.record fields [] none)
  | .optional value => objectFrame? value
  | _ => none

/-- What comes first in an open array. -/
def firstItem : Frame → Mode
  | .items item _ => .value item true
  | .sequence ((_, _, schema) :: _) _ => .value (some schema) true
  | _ => .afterItem

/-- The value of a token that is one by itself. -/
def scalar? : Token → Option (Except ReadError Json)
  | .word v => some (.ok v)
  | .number lit =>
    match lit.number? with
    | some n => some (.ok (.number n))
    | none => some (.error .form)
  | .string (some s) => some (.ok (.string s))
  | .string none => some (.error .form)
  | _ => none

/-- Opens an array or object, if the nesting allows it. -/
def enter (stack : List Frame) (frame? : Option Frame) (mode : Frame → Mode) :
    Except ReadError State :=
  match frame? with
  | none => .error .shape
  | some frame =>
    if stack.length < maxDepth then .ok ⟨frame :: stack, mode frame⟩ else .error .form

/-- A token where a value is expected. -/
def stepValue (schema : Option Schema) (stack : List Frame) (token : Token) :
    Except ReadError State :=
  match schema, token with
  | some s, .openArray => enter stack (arrayFrame? s) firstItem
  | some s, .openObject => enter stack (objectFrame? s) fun _ => .name true
  | some s, t =>
    match scalar? t with
    | some (.ok v) =>
      match conform s v with
      | .ok v => .ok (deliver v stack)
      | .error _ => .error .shape
    | some (.error e) => .error e
    | none => .error .form
  | none, .openArray => .ok ⟨.items none [] :: stack, .value none true⟩
  | none, .openObject => .ok ⟨.members none [] "" :: stack, .name true⟩
  | none, t => if (scalar? t).isSome then .ok (deliver .null stack) else .error .form

/-- The end of an array. -/
def closeArray : List Frame → Except ReadError State
  | .items _ read :: rest => .ok (deliver (.array read.reverse) rest)
  | .sequence fields read :: rest =>
    if isMissing fields read then .error .shape else .ok (deliver (.object read) rest)
  | _ => .error .form

/-- The end of an object. -/
def closeObject : List Frame → Except ReadError State
  | .members _ read _ :: rest => .ok (deliver (.object read) rest)
  | .record fields read _ :: rest =>
    if isMissing fields read then .error .shape else .ok (deliver (.object read) rest)
  | _ => .error .form

/-- The schema of a member of a contract. -/
def field? (fields : List (String × Option Json × Schema)) (name : String) : Option Schema :=
  (fields.find? fun f => f.1 = name).map fun f => f.2.2

/-- The name of a member. A member of a record may come only once. -/
def stepName (name : Option String) : List Frame → Except ReadError State
  | .members none _ _ :: rest => .ok ⟨.members none [] "" :: rest, .colon none⟩
  | .members value read _ :: rest =>
    match name with
    | some name => .ok ⟨.members value read name :: rest, .colon value⟩
    | none => .error .form
  | .record fields read _ :: rest =>
    match name with
    | none => .error .form
    | some name =>
      match field? fields name with
      -- No schema for the value: its text is skipped.
      | none => .ok ⟨.record fields read none :: rest, .colon none⟩
      | some schema =>
        if Members.has read name then .error .shape
        else .ok ⟨.record fields read (some name) :: rest, .colon (some schema)⟩
  | _ => .error .form

/-- One token. -/
def step (state : State) (token : Token) : Except ReadError State :=
  match state.mode, token with
  | .value _ true, .closeArray => closeArray state.stack
  | .value schema _, t => stepValue schema state.stack t
  | .afterItem, .closeArray => closeArray state.stack
  | .afterItem, .comma =>
    match state.stack with
    | .items item _ :: _ => .ok ⟨state.stack, .value item false⟩
    | .sequence ((_, _, schema) :: _) _ :: _ => .ok ⟨state.stack, .value (some schema) false⟩
    | _ => .error .form
  | .name true, .closeObject => closeObject state.stack
  | .name _, .string name => stepName name state.stack
  | .colon schema, .colon => .ok ⟨state.stack, .value schema false⟩
  | .afterMember, .closeObject => closeObject state.stack
  | .afterMember, .comma => .ok ⟨state.stack, .name false⟩
  | _, _ => .error .form

/-- Reads the tokens to their end. -/
def readTokens : State → List Token → Except ReadError Json
  | state, [] =>
    match state.mode with
    | .done v => .ok v
    | _ => .error .form
  | state, t :: ts =>
    match step state t with
    | .ok next => readTokens next ts
    | .error e => .error e

/-- Reads a text as a value of the schema. -/
def read (schema : Schema) (s : String) : Except ReadError Json :=
  readTokens ⟨[], .value (some schema) false⟩ (Token.scan s)

end Schema

/-- Reads a JSON text. -/
def Json.parse? (s : String) : Option Json :=
  (Schema.any.read s).toOption

end TenantStore
