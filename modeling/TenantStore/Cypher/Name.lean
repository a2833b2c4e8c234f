/-!
# Names in Cypher

A name between backticks may hold any characters; a backtick in it is written twice. A property is
written as the alias of its node, a point and its quoted name.
-/

namespace TenantStore.Cypher

/-- The character around quoted names. -/
def backtick : Char := Char.ofNat 96

/-- A character of a quoted name. -/
def nameChar (c : Char) : List Char :=
  if c = backtick then [backtick, backtick] else [c]

/-- A name between backticks. -/
def quotedName (name : String) : String :=
  String.ofList (backtick :: name.toList.flatMap nameChar ++ [backtick])

/-- A property of the node with an alias. -/
def property (node name : String) : String :=
  node ++ "." ++ quotedName name

end TenantStore.Cypher
