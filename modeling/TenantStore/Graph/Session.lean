import TenantStore.Cypher.Statement
import TenantStore.Repository.Backend

/-!
# Sessions of a graph database

A session runs statements. It answers each one from a script of replies, the first with the first
and so on, with no rows once the script is over, and it keeps the statements that it was given.
-/

namespace TenantStore

open Cypher (Statement)

/-- Whether a statement changes the graph. -/
inductive AccessMode where
  | read
  | write
  deriving DecidableEq, Repr

/-- How a session answers a statement. -/
inductive SessionReply where
  | rows (rows : List (Members Json))
  | failure (message : String)
  deriving DecidableEq, Repr

/-- A session. -/
structure Session where
  /-- The replies to come. -/
  replies : List SessionReply
  /-- The statements run so far, oldest first. -/
  statements : List (Statement × AccessMode)
  deriving DecidableEq, Repr

namespace Session

/-- A new session with a script of replies. -/
def ofReplies (replies : List SessionReply) : Session :=
  ⟨replies, []⟩

/-- A reply with one column. -/
def column (name : String) (values : List Json) : SessionReply :=
  .rows (values.map fun v => [(name, v)])

/-- Runs a statement. -/
def run (statement : Statement) (mode : AccessMode) : Access Session (List (Members Json)) :=
  fun s =>
    let statements := s.statements ++ [(statement, mode)]
    match s.replies with
    | [] => (.ok [], ⟨[], statements⟩)
    | .rows rows :: replies => (.ok rows, ⟨replies, statements⟩)
    | .failure message :: replies => (.error (.backend message), ⟨replies, statements⟩)

end Session
end TenantStore
