import TenantStore.Text.Split

/-!
# Media types

The value of a `Content-Type` header: a type, a subtype that may end in a suffix behind a plus sign,
and parameters. `MediaType.parse?` refuses a value that is not of this form, and `MediaType.isJson`
tells the types whose content is JSON, in any case.
-/

namespace TenantStore

/-- A media type without its parameters. -/
structure MediaType where
  type : String
  subtype : String
  suffix : Option String
  deriving DecidableEq, Repr

namespace MediaType

/-- The character may stand in a name. -/
def isNameChar (c : Char) : Bool :=
  c.isAlphanum || "!#$%&'+-.^_|~".toList.contains c || c = Char.ofNat 96

/-- The character may stand between quotation marks. -/
def isQuotedChar (c : Char) : Bool :=
  decide (0x20 ≤ c.toNat ∧ c.toNat < 0x7F)

/-- How far parameters have been read. -/
inductive ParameterPart where
  /-- Before a name. -/
  | start
  | name
  /-- After the equals sign. -/
  | value
  | valueChars
  /-- After the opening quotation mark. A closing one may not follow at once. -/
  | quote
  | quotedChars
  /-- After the closing quotation mark. -/
  | closed
  deriving DecidableEq, Repr

/-- One character of the parameters. -/
def stepParameter : ParameterPart → Char → Option ParameterPart
  | .start, c => if c = ' ' then some .start else if isNameChar c then some .name else none
  | .name, c => if isNameChar c then some .name else if c = '=' then some .value else none
  | .value, c =>
    if c = '"' then some .quote else if isNameChar c then some .valueChars else none
  | .valueChars, c =>
    if isNameChar c then some .valueChars else if c = ';' then some .start else none
  | .quote, c => if isQuotedChar c then some .quotedChars else none
  | .quotedChars, c =>
    if c = '"' then some .closed else if isQuotedChar c then some .quotedChars else none
  | .closed, c => if c = ' ' then some .closed else if c = ';' then some .start else none

/-- Parameters may end here. -/
def ParameterPart.complete : ParameterPart → Bool
  | .start | .value | .valueChars | .closed => true
  | .name | .quote | .quotedChars => false

/-- The text is a list of parameters. -/
def areParameters (cs : List Char) : Bool :=
  match cs.foldlM stepParameter .start with
  | some part => part.complete
  | none => false

/-- The text before and after the last plus sign that has something before it. -/
def splitSuffix (cs : List Char) : String × Option String :=
  match Text.splitAtFirst '+' cs.reverse with
  | some (suffix, name) =>
    if name = [] then (String.ofList cs, none)
    else (String.ofList name.reverse, some (String.ofList suffix.reverse))
  | none => (String.ofList cs, none)

/-- Reads a media type. -/
def parse? (s : String) : Option MediaType := do
  let (type, rest) ← Text.splitAtFirst '/' s.toList
  let subtype := rest.takeWhile isNameChar
  let (name, suffix) := splitSuffix subtype
  if type = [] ∨ !type.all isNameChar ∨ subtype = [] then none
  else
    match rest.dropWhile isNameChar with
    | [] => some ⟨String.ofList type, name, suffix⟩
    | ';' :: parameters =>
      if areParameters parameters then some ⟨String.ofList type, name, suffix⟩ else none
    | _ => none

/-- Names are the same up to case. -/
def sameName (a b : String) : Bool :=
  a.toList.map Char.toLower = b.toList.map Char.toLower

/-- The content is JSON. -/
def isJson (m : MediaType) : Bool :=
  sameName m.type "application" &&
    (sameName m.subtype "json" || m.suffix.any fun suffix => sameName suffix "json")

end MediaType
end TenantStore
