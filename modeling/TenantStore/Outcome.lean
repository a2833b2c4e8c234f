import TenantStore.Error

/-!
# Outcomes

An operation on a store matched something, missed, or failed. `Outcome` is that answer together with
its payload: a match always has one, a miss may have one (an empty list, a count of zero), and a
failure may keep the one it was found with.

Callers do not branch on an outcome, they chain steps to it. Each step runs its function in one of
the three states only: `onSuccess` on a match, `onNotFound` on a miss, `onError` on a failure.
`Step` is such a step as a value and `Outcome.chain` takes a list of them, so that laws can be said
of any chain.
-/

namespace TenantStore

/-- The answer of an operation. -/
inductive Outcome (α : Type) where
  /-- The operation found what it was asked for. -/
  | matched (payload : α)
  /-- The operation ran and found nothing. -/
  | missed (payload : Option α)
  /-- The operation failed. -/
  | failed (payload : Option α) (error : StoreError)
  deriving DecidableEq, Repr

namespace Outcome

variable {α β : Type}

/-- The outcome with the given parts; something is found only if there is a payload and no error. -/
def ofParts : Option α → Bool → Option StoreError → Outcome α
  | payload, _, some e => failed payload e
  | some d, true, none => matched d
  | payload, _, none => missed payload

/-- A failure without a payload. -/
def ofError (e : StoreError) : Outcome α :=
  failed none e

/-- The outcome of looking one thing up. -/
def ofResult : Except StoreError (Option α) → Outcome α
  | .ok (some d) => matched d
  | .ok none => missed none
  | .error e => ofError e

/-- The outcome of looking many things up: no thing is a miss. -/
def ofList : List α → Outcome (List α)
  | [] => missed (some [])
  | d :: ds => matched (d :: ds)

/-- The outcome of changing a number of things: none is a miss. -/
def ofCount (n : Nat) : Outcome Nat :=
  if 0 < n then matched n else missed (some n)

/-- The payload. -/
def payload? : Outcome α → Option α
  | matched d => some d
  | missed d => d
  | failed d _ => d

/-- The operation matched. -/
def isFound : Outcome α → Bool
  | matched _ => true
  | _ => false

/-- The error of a failure. -/
def error? : Outcome α → Option StoreError
  | failed _ e => some e
  | _ => none

/-- Checks a match; an error of the check makes it a failure that keeps the payload. -/
def onSuccess (o : Outcome α) (check : α → Except StoreError Unit) : Outcome α :=
  match o with
  | matched d =>
    match check d with
    | .ok () => matched d
    | .error e => failed (some d) e
  | other => other

/-- Changes the error of a failure. -/
def onError (o : Outcome α) (amend : StoreError → StoreError) : Outcome α :=
  match o with
  | failed d e => failed d (amend e)
  | other => other

/-- Makes a miss a failure. -/
def onNotFound (o : Outcome α) (report : Unit → StoreError) : Outcome α :=
  match o with
  | missed d => failed d (report ())
  | other => other

/-- Transforms the payload. -/
def map (o : Outcome α) (f : α → β) : Outcome β :=
  match o with
  | matched d => matched (f d)
  | missed d => missed (d.map f)
  | failed d e => failed (d.map f) e

/-- What the caller is left with: the error of a failure, the payload of a match, nothing of a miss.
-/
def toResult : Outcome α → Except StoreError (Option α)
  | matched d => .ok (some d)
  | missed _ => .ok none
  | failed _ e => .error e

/-- A step of a chain. -/
inductive Step (α : Type) where
  | onSuccess (check : α → Except StoreError Unit)
  | onError (amend : StoreError → StoreError)
  | onNotFound (report : Unit → StoreError)
  | map (f : α → α)

/-- The state after a step. -/
def apply (o : Outcome α) : Step α → Outcome α
  | .onSuccess check => o.onSuccess check
  | .onError amend => o.onError amend
  | .onNotFound report => o.onNotFound report
  | .map f => o.map f

/-- The state after a chain of steps. -/
def chain (o : Outcome α) (steps : List (Step α)) : Outcome α :=
  steps.foldl apply o

/-- The step runs its function in this state. -/
def Step.runsOn : Step α → Outcome α → Bool
  | .onSuccess _, matched _ => true
  | .onError _, failed .. => true
  | .onNotFound _, missed _ => true
  | .map _, o => o.payload?.isSome
  | _, _ => false

/-- Taking an outcome apart and putting it together again changes nothing. -/
@[simp] theorem ofParts_parts (o : Outcome α) : ofParts o.payload? o.isFound o.error? = o := by
  cases o with
  | matched d => rfl
  | missed d => cases d <;> rfl
  | failed d e => cases d <;> rfl

/-- An error and a match exclude each other, and a match has a payload. -/
theorem found_spec (o : Outcome α) :
    (o.isFound = true → o.error? = none) ∧ (o.isFound = true → o.payload?.isSome = true) := by
  cases o <;> simp [isFound, error?, payload?]

end Outcome
end TenantStore
