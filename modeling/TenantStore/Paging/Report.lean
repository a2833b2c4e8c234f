import TenantStore.Outcome
import TenantStore.Paging.Query

/-!
# The outcome of a page query

A page report carries the rows of one page together with the totals of the whole answer. It counts
as found when the whole answer has rows, be the page empty or not. Steps are chained to it as to an
`Outcome`; `toOutcome` is the outcome that it reports.
-/

namespace TenantStore

/-- The report on a page query. -/
structure PageReport (α : Type) where
  rows : Option (List α)
  found : Bool
  error : Option StoreError
  /-- The number of rows on all pages. -/
  totalRows : Int
  totalPages : Int
  page : Int
  size : Int
  filter : String
  sort : String
  deriving DecidableEq, Repr

namespace PageReport

variable {α : Type}

/-- The report with the given parts. What the query asked for is reported only together with rows.
-/
def ofParts (rows : Option (List α)) (totalRows : Int) (query : Option PageQuery)
    (error : Option StoreError) : PageReport α :=
  let found := decide (0 < totalRows) && error.isNone && rows.isSome
  match rows, query with
  | some _, some q =>
    { rows, found, error, totalRows
      totalPages := pageCount totalRows q.size
      page := q.page
      size := q.size
      filter := q.filter
      sort := q.sort }
  | _, _ =>
    { rows, found, error, totalRows
      totalPages := 0
      page := 0
      size := 0
      filter := ""
      sort := "" }

/-- The report with the given parts, or `none` if its number of pages has no 64 bits. -/
def ofParts? (rows : Option (List α)) (totalRows : Int) (query : Option PageQuery)
    (error : Option StoreError) : Option (PageReport α) :=
  match rows, query with
  | some _, some q => (pageCount? totalRows q.size).map fun _ => ofParts rows totalRows query error
  | _, _ => some (ofParts rows totalRows query error)

/-- The report of a failure. -/
def ofError (e : StoreError) : PageReport α :=
  ofParts none 0 none (some e)

/-- Checks the rows of a report that found some; an error of the check makes it a failure. -/
def onSuccess (r : PageReport α) (check : List α → Except StoreError Unit) : PageReport α :=
  match r.rows with
  | some rows =>
    if r.error.isNone && r.found then
      match check rows with
      | .ok () => r
      | .error e => { r with found := false, error := some e }
    else r
  | none => r

/-- Changes the error of a failure. -/
def onError (r : PageReport α) (amend : StoreError → StoreError) : PageReport α :=
  { r with error := r.error.map amend }

/-- Makes a report that found nothing a failure. -/
def onNotFound (r : PageReport α) (report : Unit → StoreError) : PageReport α :=
  if r.error.isNone && !r.found then { r with error := some (report ()) } else r

/-- What the caller is left with: the error of a failure, and otherwise the rows. -/
def toResult (r : PageReport α) : Except StoreError (List α) :=
  match r.error with
  | some e => .error e
  | none => .ok (r.rows.getD [])

/-- A step of a chain, as for an outcome, but that rows are not transformed. -/
inductive Step (α : Type) where
  | onSuccess (check : List α → Except StoreError Unit)
  | onError (amend : StoreError → StoreError)
  | onNotFound (report : Unit → StoreError)

/-- The same step of an outcome. -/
def Step.toOutcomeStep : Step α → Outcome.Step (List α)
  | onSuccess check => .onSuccess check
  | onError amend => .onError amend
  | onNotFound report => .onNotFound report

/-- The report after a step. -/
def apply (r : PageReport α) : Step α → PageReport α
  | .onSuccess check => r.onSuccess check
  | .onError amend => r.onError amend
  | .onNotFound report => r.onNotFound report

/-- The report after a chain of steps. -/
def chain (r : PageReport α) (steps : List (Step α)) : PageReport α :=
  steps.foldl apply r

/-- The outcome that the report is of. -/
def toOutcome (r : PageReport α) : Outcome (List α) :=
  Outcome.ofParts r.rows r.found r.error

/-- The step runs its function on this report. -/
def Step.runsOn (step : Step α) (r : PageReport α) : Bool :=
  step.toOutcomeStep.runsOn r.toOutcome

end PageReport
end TenantStore
