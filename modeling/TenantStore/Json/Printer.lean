import TenantStore.Binary64.Shortest
import TenantStore.Json.Basic
import TenantStore.Text.Numeral

/-!
# The compact text of a JSON value

`Json.text` writes a value without blanks. Strings escape the quotation mark, the backslash and the
control characters below `0x20`, and nothing else; binary64 numbers have the layout
`Binary64.Layout.json`; members come in the order in which the object holds them.
-/

namespace TenantStore.Json

/-- A character inside a quoted string. -/
def escapeChar (c : Char) : List Char :=
  if c = '"' then ['\\', '"']
  else if c = '\\' then ['\\', '\\']
  else if c = '\n' then ['\\', 'n']
  else if c = '\r' then ['\\', 'r']
  else if c = '\t' then ['\\', 't']
  else if c.toNat = 8 then ['\\', 'b']
  else if c.toNat = 12 then ['\\', 'f']
  else if c.toNat < 0x20 then
    ['\\', 'u', '0', '0', Text.hexDigit (c.toNat / 16), Text.hexDigit (c.toNat % 16)]
  else [c]

/-- A string between quotation marks. -/
def quote (s : String) : String :=
  String.ofList ('"' :: s.toList.flatMap escapeChar ++ ['"'])

/-- The text of a number. -/
def numberText : Number → String
  | .whole n => toString n
  | .real x => x.text .json

mutual

/-- The compact text of a value. -/
def text : Json → String
  | .null => "null"
  | .bool true => "true"
  | .bool false => "false"
  | .number n => numberText n
  | .string s => quote s
  | .array xs => "[" ++ String.intercalate "," (itemTexts xs) ++ "]"
  | .object ms => "\x7b" ++ String.intercalate "," (memberTexts ms) ++ "\x7d"

/-- The texts of items. -/
def itemTexts : List Json → List String
  | [] => []
  | x :: xs => text x :: itemTexts xs

/-- The texts of members. -/
def memberTexts : List (String × Json) → List String
  | [] => []
  | (k, x) :: xs => (quote k ++ ":" ++ text x) :: memberTexts xs

end

end TenantStore.Json
