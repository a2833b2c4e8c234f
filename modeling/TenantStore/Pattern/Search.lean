import TenantStore.Pattern.Engine
import TenantStore.Pattern.Parser

/-!
# Searching for patterns

The search engine that programs run with: an expression is found where the pattern is found that it
is read as, and what cannot be read is found nowhere. It reads a part of the usual syntax only, the
one that `TenantStore.Pattern.Token` and `TenantStore.Pattern.Parser` describe, so that an engine
for all of it finds more.
-/

namespace TenantStore.Pattern

/-- The expression can be read, and its pattern is found in the text. -/
def finds (expression text : String) : Bool :=
  match parse? expression with
  | some p => p.found text
  | none => false

instance engine : SearchEngine where
  finds := finds

end TenantStore.Pattern
