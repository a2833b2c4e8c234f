import TenantStore.Error
import TenantStore.Json.Basic
import TenantStore.Text.Blank
import TenantStore.Text.Split

/-!
# Sort orders

A sort order is a list of fields with a direction each. Its text is a list of items between commas,
where blank items do not count: `-field` sorts down, `field:asc` and `field:desc` say the direction,
in any case, and `field` alone sorts up. Blanks around items, fields and directions do not count
either. A dash in front takes the whole rest as the field, colons included.

`SortField.parseItem` reads one item and `SortField.parseList` a whole text, up to its first bad
item. `SortField.text` writes a field in the shortest form that reads back as it.
-/

namespace TenantStore

/-- The direction of a sort. -/
inductive Direction where
  | ascending
  | descending
  deriving DecidableEq, Repr

/-- One field of a sort order. -/
structure SortField where
  field : String
  direction : Direction
  deriving DecidableEq, Repr

/-- Why an item of a sort order is refused. -/
inductive SortError where
  /-- What follows the colon is no direction. -/
  | unknownDirection (direction field : String)
  /-- There is no name in front of the direction or after the dash. -/
  | noField (item : String)
  deriving DecidableEq, Repr

namespace SortError

/-- The wording of a refusal. -/
def message : SortError → String
  | unknownDirection direction field =>
    "unknown sort direction '" ++ direction ++ "' for field '" ++ field ++ "'"
  | noField item => "sort item '" ++ item ++ "' has no field name"

/-- A refused item is a fault of the query. -/
def toStoreError (e : SortError) : StoreError :=
  .invalidFilter e.message

end SortError

namespace SortField

/-- The direction that a word names. -/
def direction? (word : List Char) : Option Direction :=
  if word = ['a', 's', 'c'] then some .ascending
  else if word = ['d', 'e', 's', 'c'] then some .descending
  else none

/-- The field of an item, once its direction is known. -/
def named (item field : List Char) (direction : Direction) : Except SortError SortField :=
  match Text.trimmed field with
  | [] => .error (.noField (String.ofList item))
  | name => .ok ⟨String.ofList name, direction⟩

/-- Reads an item. -/
def parseItem (item : List Char) : Except SortError SortField :=
  match item with
  | '-' :: field => named item field .descending
  | _ =>
    match Text.splitAtFirst ':' item with
    | none => named item item .ascending
    | some (field, word) =>
      let word := (Text.trimmed word).map Char.toLower
      match direction? word with
      | some direction => named item field direction
      | none => .error (.unknownDirection (String.ofList word) (String.ofList field))

/-- The items of a sort order, without blanks around them. -/
def items (s : String) : List (List Char) :=
  ((Text.pieces ',' s.toList).map Text.trimmed).filter (· ≠ [])

/-- Reads a sort order up to its first bad item. -/
def parseList (s : String) : Except SortError (List SortField) :=
  (items s).mapM parseItem

/-- The shortest item that reads as the field, if one does. -/
def text (f : SortField) : String :=
  match f.direction with
  | .ascending => f.field
  | .descending => "-" ++ f.field

/-- The text of a sort order. -/
def listText (fs : List SortField) : String :=
  String.intercalate "," (fs.map text)

end SortField
end TenantStore
