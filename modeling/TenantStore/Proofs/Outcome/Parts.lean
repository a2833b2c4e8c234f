import Mathlib.Logic.Function.Basic
import Mathlib.Logic.Nontrivial.Defs
import TenantStore.Outcome

/-!
# Outcomes by their parts

An outcome shows a payload, a flag that says whether something was found, and an error. `Parts` is
any combination of the three. The steps of a chain are written for it once more, each as tests of
some parts and writes to others, and nothing in the type keeps the parts consistent. `Outcome.parts`
shows that outcomes and their steps are the parts that come up and the steps on them
(`Outcome.parts_apply`).

A step runs the function that it is given if its result depends on what the function answers. This
is `Consults`, which is said of any computation, so that it can be compared between a step of an
outcome, a step of its parts and a step of anything else that carries such parts
(`consults_comp_iff`).
-/

namespace TenantStore

/-! ## Running a function -/

section Consults

variable {X Y Z W : Type*} {run : (X → Y) → Z} {f : X → Y} {x : X}

/-- The computation runs the function that it is given on `x`: what the function answers there
matters to the result. -/
def Consults (run : (X → Y) → Z) (f : X → Y) (x : X) : Prop :=
  ∃ g : X → Y, (∀ y, y ≠ x → g y = f y) ∧ run g ≠ run f

/-- A result that is passed on without loss tells as much about the function. -/
theorem consults_comp_iff {pass : Z → W} (hpass : pass.Injective) :
    Consults (fun f => pass (run f)) f x ↔ Consults run f x :=
  exists_congr fun _ => and_congr_right fun _ => hpass.ne_iff

open Classical in
/-- It is enough that another answer on `x` alone gives another result. -/
theorem consults_of_update (y : Y) (h : run (Function.update f x y) ≠ run f) : Consults run f x :=
  ⟨_, fun _ hne => Function.update_of_ne hne y f, h⟩

end Consults

instance : Nontrivial StoreError :=
  ⟨.notFound "", .validation "", nofun⟩

namespace Outcome

/-! ## Parts -/

/-- A payload, a flag and an error in any combination. -/
@[ext] structure Parts (α : Type) where
  payload : Option α
  found : Bool
  error : Option StoreError

/-- The states of an outcome. -/
inductive Phase where
  | matched
  | missed
  | failed

namespace Parts

variable {α β : Type}

/-- What the parts of an outcome look like in a state. -/
def Is (p : Parts α) : Phase → Prop
  | .matched => p.found = true ∧ p.payload.isSome = true ∧ p.error = none
  | .missed => p.found = false ∧ p.error = none
  | .failed => p.found = false ∧ p.error.isSome = true

/-- The parts that are given, but that nothing is found without a payload or beside an error. -/
def normalized (payload : Option α) (found : Bool) (error : Option StoreError) : Parts α :=
  ⟨payload, found && error.isNone && payload.isSome, error⟩

/-- A check of what was found takes the flag back and sets its error. The payload stays. -/
def onSuccess (p : Parts α) (check : α → Except StoreError Unit) : Parts α :=
  if p.error.isNone && p.found then
    match p.payload with
    | some d =>
      match check d with
      | .ok () => p
      | .error e => { p with found := false, error := some e }
    | none => p
  else p

/-- An error is replaced. -/
def onError (p : Parts α) (amend : StoreError → StoreError) : Parts α :=
  { p with error := p.error.map amend }

/-- If there is no error and nothing is found, an error is set. -/
def onNotFound (p : Parts α) (report : Unit → StoreError) : Parts α :=
  if p.error.isNone && !p.found then { p with error := some (report ()) } else p

/-- A payload is replaced. -/
def map (p : Parts α) (f : α → β) : Parts β :=
  ⟨p.payload.map f, p.found, p.error⟩

/-- The error is handed on, if there is one, and otherwise the payload as it is, if something was
found. -/
def toResult (p : Parts α) : Except StoreError (Option α) :=
  match p.error with
  | some e => .error e
  | none => if p.found then .ok p.payload else .ok none

/-- The parts after a step. -/
def apply (p : Parts α) : Step α → Parts α
  | .onSuccess check => p.onSuccess check
  | .onError amend => p.onError amend
  | .onNotFound report => p.onNotFound report
  | .map f => p.map f

/-- A check is run on what was found without an error. -/
theorem consults_onSuccess_iff {p : Parts α} {check : α → Except StoreError Unit} {d : α} :
    Consults p.onSuccess check d ↔ p.error = none ∧ p.found = true ∧ p.payload = some d := by
  obtain ⟨payload, found, error⟩ := p
  constructor
  · rintro ⟨other, hother, hne⟩
    by_contra hstate
    refine hne ?_
    match error, found, payload with
    | some _, _, _ => rfl
    | none, false, _ => rfl
    | none, true, none => rfl
    | none, true, some d' =>
        have hd : d' ≠ d := fun hd => hstate ⟨rfl, rfl, congrArg some hd⟩
        simp only [onSuccess, hother d' hd]
  · rintro ⟨rfl, rfl, rfl⟩
    -- A check that goes well could fail, and one that fails could go well.
    cases hd : check d with
    | ok =>
        refine consults_of_update (.error (.notFound "")) fun heq => ?_
        simp [onSuccess, hd] at heq
    | error e =>
        refine consults_of_update (.ok ()) fun heq => ?_
        simp [onSuccess, hd] at heq

/-- The error is amended if there is one. -/
theorem consults_onError_iff {p : Parts α} {amend : StoreError → StoreError} {e : StoreError} :
    Consults p.onError amend e ↔ p.error = some e := by
  obtain ⟨payload, found, error⟩ := p
  constructor
  · rintro ⟨other, hother, hne⟩
    by_contra hstate
    refine hne ?_
    cases error with
    | none => rfl
    | some e' =>
        have he : e' ≠ e := fun he => hstate (congrArg some he)
        simp only [onError, Option.map_some, hother e' he]
  · rintro rfl
    obtain ⟨e', he'⟩ := exists_ne (amend e)
    refine consults_of_update e' fun heq => he' ?_
    simpa [onError] using heq

/-- A miss is reported if there is no error and nothing is found. -/
theorem consults_onNotFound_iff {p : Parts α} {report : Unit → StoreError} :
    Consults p.onNotFound report () ↔ p.error = none ∧ p.found = false := by
  obtain ⟨payload, found, error⟩ := p
  constructor
  · rintro ⟨other, -, hne⟩
    by_contra hstate
    refine hne ?_
    match error, found with
    | some _, _ => rfl
    | none, true => rfl
    | none, false => exact absurd ⟨rfl, rfl⟩ hstate
  · rintro ⟨rfl, rfl⟩
    obtain ⟨e, he⟩ := exists_ne (report ())
    refine consults_of_update e fun heq => he ?_
    simpa [onNotFound] using heq

end Parts

/-! ## The parts of an outcome -/

variable {α β : Type}

/-- What an outcome shows. -/
def parts (o : Outcome α) : Parts α :=
  ⟨o.payload?, o.isFound, o.error?⟩

/-- The state of an outcome. -/
def phase : Outcome α → Phase
  | matched _ => .matched
  | missed _ => .missed
  | failed .. => .failed

theorem parts_is_iff {o : Outcome α} {s : Phase} : o.parts.Is s ↔ o.phase = s := by
  cases o <;> cases s <;> simp [parts, payload?, isFound, error?, phase, Parts.Is]

theorem parts_injective : Function.Injective (parts : Outcome α → Parts α) := by
  intro o o' h
  obtain ⟨hpayload, hfound, herror⟩ := Parts.mk.inj h
  rw [← ofParts_parts o, ← ofParts_parts o', hpayload, hfound, herror]

theorem parts_ofParts (payload : Option α) (found : Bool) (error : Option StoreError) :
    (ofParts payload found error).parts = Parts.normalized payload found error := by
  cases payload <;> cases found <;> cases error <;> rfl

theorem parts_onSuccess (o : Outcome α) (check : α → Except StoreError Unit) :
    (o.onSuccess check).parts = o.parts.onSuccess check := by
  cases o with
  | matched d =>
      simp only [onSuccess, Parts.onSuccess, parts, payload?]
      cases check d <;> rfl
  | missed d => rfl
  | failed d e => rfl

theorem parts_onError (o : Outcome α) (amend : StoreError → StoreError) :
    (o.onError amend).parts = o.parts.onError amend := by
  cases o <;> rfl

theorem parts_onNotFound (o : Outcome α) (report : Unit → StoreError) :
    (o.onNotFound report).parts = o.parts.onNotFound report := by
  cases o <;> rfl

theorem parts_map (o : Outcome α) (f : α → β) : (o.map f).parts = o.parts.map f := by
  cases o <;> rfl

/-- An outcome hands on what its parts do. -/
theorem toResult_parts (o : Outcome α) : o.parts.toResult = o.toResult := by
  cases o <;> rfl

/-- A step of an outcome tests and writes the parts that it shows. -/
theorem parts_apply (o : Outcome α) (s : Step α) : (o.apply s).parts = o.parts.apply s := by
  cases s with
  | onSuccess check => exact parts_onSuccess o check
  | onError amend => exact parts_onError o amend
  | onNotFound report => exact parts_onNotFound o report
  | map f => exact parts_map o f

/-- A chain of an outcome does the same to the parts. -/
theorem foldl_apply_parts (o : Outcome α) (steps : List (Step α)) :
    steps.foldl Parts.apply o.parts = (o.chain steps).parts := by
  induction steps generalizing o with
  | nil => rfl
  | cons s steps ih => rw [List.foldl_cons, ← parts_apply, ih, chain, chain, List.foldl_cons]

/-! A step of an outcome runs its function on what the step of the parts runs it on. -/

theorem consults_onSuccess_parts {o : Outcome α} {check : α → Except StoreError Unit} {d : α} :
    Consults o.parts.onSuccess check d ↔ Consults o.onSuccess check d := by
  rw [← consults_comp_iff parts_injective]
  simp only [parts_onSuccess]

theorem consults_onError_parts {o : Outcome α} {amend : StoreError → StoreError} {e : StoreError} :
    Consults o.parts.onError amend e ↔ Consults o.onError amend e := by
  rw [← consults_comp_iff parts_injective]
  simp only [parts_onError]

theorem consults_onNotFound_parts {o : Outcome α} {report : Unit → StoreError} :
    Consults o.parts.onNotFound report () ↔ Consults o.onNotFound report () := by
  rw [← consults_comp_iff parts_injective]
  simp only [parts_onNotFound]

end Outcome
end TenantStore
