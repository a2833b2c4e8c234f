/-!
# Search engines

Texts are searched for regular expressions by an engine. What expressions it can read, and what they
match, is its own affair: queries only ask it whether an expression is found in a text. So what is
said of queries holds whatever the engine is, unless it says more about the engine.
-/

namespace TenantStore

/-- A search for regular expressions in texts. -/
class SearchEngine where
  /-- The expression can be read and matches somewhere in the text. -/
  finds (expression text : String) : Bool

end TenantStore
