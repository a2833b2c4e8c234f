import TenantStore.Graph.Backend
import TenantStore.Proofs.Repository.Request

/-!
# The statements of a graph repository

A request to the backend of a label is one statement (`Graph.statement`), run in the mode that says
whether the request changes the graph, and the session keeps it whatever it answers.
-/

namespace TenantStore

open Cypher (Statement)

variable {α : Type} [Entity α]

theorem Session.makes_run (statement : Statement) (mode : AccessMode) :
    (run statement mode).Makes statements (.ok [(statement, mode)]) := by
  intro s
  rw [run]
  split <;> rfl

/-- A session answers a statement if its next reply is no failure. -/
theorem Session.exists_run_eq_ok {s : Session}
    (h : ∀ message, s.replies.head? ≠ some (.failure message)) (statement : Statement)
    (mode : AccessMode) : ∃ rows, (run statement mode s).1 = .ok rows := by
  rw [run]
  split
  · exact ⟨_, rfl⟩
  · exact ⟨_, rfl⟩
  next message replies hreplies => exact absurd (by rw [hreplies]; rfl) (h message)

namespace Graph

/-- The statement that a request comes to, and the mode in which it is run. -/
def statement (label : String) : Backend.Request → Statement × AccessMode
  | .insert members => (.create label members, .write)
  | .update s members => (.update label s members, .write)
  | .delete s => (.delete label s, .write)
  | .first s => (.find label s [] 0 none, .read)
  | .find s w => (.find label s w.sort w.skip w.limit, .read)
  | .count s => (.count label s, .read)

theorem makes_search (statement : Statement) :
    (search statement : Access Session (List α)).Makes Session.statements
      (.ok [(statement, .read)]) :=
  (Session.makes_run statement .read).bind fun _ => Access.Extends.lift _

/-- The session keeps the statements of all requests. -/
theorem logs_backend (label : String) :
    (backend label : Backend Session α).Logs Session.statements fun q => [statement label q] where
  insert _ := Access.Extends.lift_bind_map _ fun ms =>
    (Session.makes_run (.create label ms) .write).bind fun _ => Access.Extends.pure ()
  update s _ := Access.Extends.lift_bind_map _ fun ms =>
    (Session.makes_run (.update label s ms) .write).bind fun _ => Access.Extends.pure _
  delete s := (Session.makes_run (.delete label s) .write).bind fun _ => Access.Extends.pure _
  first s := (makes_search (.find label s [] 0 none)).bind fun _ => Access.Extends.pure _
  find s w := makes_search (.find label s w.sort w.skip w.limit)
  count s := (Session.makes_run (.count label s) .read).bind fun _ => Access.Extends.pure _

theorem exists_count_eq_ok {t : Session} (h : ∀ message, t.replies.head? ≠ some (.failure message))
    (label : String) (s : Scoped) :
    ∃ n, ((backend label : Backend Session α).count s t).1 = .ok n := by
  obtain ⟨rows, hrows⟩ := Session.exists_run_eq_ok h (.count label s) .read
  refine ⟨countColumn rows Cypher.totalColumn, ?_⟩
  show ((Session.run (.count label s) .read >>= fun rows =>
    pure (countColumn rows Cypher.totalColumn)) t).1 = _
  rw [Access.bind_pure_apply, hrows]
  rfl

end Graph

end TenantStore
