/-!
# Errors of the store

Every operation that fails does so with a `StoreError`. Its kind says who is at fault, and its
wording is `StoreError.message`. Services answer a request that failed by the kind alone, see
`ErrorKind.code` and `ErrorKind.status`.
-/

namespace TenantStore

/-- The kinds of errors. -/
inductive ErrorKind where
  /-- An entity or stream is not there. -/
  | notFound
  /-- A caller did not meet a precondition, such as naming a tenant. -/
  | preconditionFailed
  /-- The groups of a filter do not pair up. -/
  | contractViolation
  /-- A filter, sort order or page cannot be made sense of. -/
  | invalidFilter
  /-- An event has a sequence number that is taken. -/
  | concurrencyConflict
  /-- A request carries an unusable value. -/
  | validation
  /-- The storage behind the store failed. -/
  | backend
  /-- A value could not be written to or read from its stored form. -/
  | infrastructure
  deriving DecidableEq, Repr

/-- An error of the store. -/
inductive StoreError where
  | notFound (what : String)
  | preconditionFailed (reason : String)
  | contractViolation (reason : String)
  | invalidFilter (reason : String)
  | concurrencyConflict (tenant aggregate : String) (sequence : Nat)
  | validation (reason : String)
  | backend (cause : String)
  | infrastructure (reason : String)
  deriving DecidableEq, Repr

namespace ErrorKind

/-- The HTTP status of a request that failed. -/
def status : ErrorKind → Nat
  | notFound => 404
  | concurrencyConflict => 409
  | preconditionFailed => 412
  | validation | invalidFilter | contractViolation => 400
  | backend | infrastructure => 500

/-- The code that clients tell errors apart by. -/
def code : ErrorKind → String
  | notFound => "not_found"
  | preconditionFailed => "precondition_failed"
  | contractViolation => "contract_violation"
  | invalidFilter => "invalid_filter"
  | concurrencyConflict => "concurrency_conflict"
  | validation => "validation_error"
  | backend => "backend_error"
  | infrastructure => "infrastructure_error"

end ErrorKind

namespace StoreError

/-- The kind of an error. -/
def kind : StoreError → ErrorKind
  | notFound _ => .notFound
  | preconditionFailed _ => .preconditionFailed
  | contractViolation _ => .contractViolation
  | invalidFilter _ => .invalidFilter
  | concurrencyConflict .. => .concurrencyConflict
  | validation _ => .validation
  | backend _ => .backend
  | infrastructure _ => .infrastructure

/-- The wording of an error. -/
def message : StoreError → String
  | notFound what => "not found: " ++ what
  | preconditionFailed reason => "precondition failed: " ++ reason
  | contractViolation reason => "filter contract violation: " ++ reason
  | invalidFilter reason => "invalid filter: " ++ reason
  | concurrencyConflict tenant aggregate sequence =>
    "concurrency conflict on aggregate " ++ aggregate ++ " of tenant " ++ tenant ++
      ": sequence number " ++ toString sequence ++ " already exists"
  | validation reason => "validation error: " ++ reason
  | backend cause => "backend error: " ++ cause
  | infrastructure reason => "infrastructure error: " ++ reason

/-- The failure of the storage that an error passes on. -/
def cause? : StoreError → Option String
  | backend cause => some cause
  | _ => none

/-- The error says that something is not there. -/
def isNotFound (e : StoreError) : Bool :=
  e.kind = .notFound

end StoreError
end TenantStore
