import TenantStore.Proofs.Outcome.Parts

/-!
# Chains of steps

An outcome is made in one of several ways (`Origin`) and then taken through a chain of steps,
between which the type of the payload may change (`Chain`). Whatever the functions of the steps are,
the outcome is in exactly one state after each step, and an error is never lost: it is the first one
that came up, amended by all amendments that follow (`Chain.error?_run`).

What the steps may do is said once. A step keeps the state or makes the outcome a failure
(`phase_apply`), so a chain does too (`Chain.phase_run`), and which functions can still run after a
function has run follows from that. `Chain.lawful` puts everything together.
-/

namespace TenantStore.Outcome

variable {α β γ : Type}

/-! ## Making an outcome -/

/-- The ways to make an outcome. -/
inductive Origin : Type → Type 1
  /-- From parts that need not go together. -/
  | parts {α : Type} (payload : Option α) (found : Bool) (error : Option StoreError) : Origin α
  | failure {α : Type} (e : StoreError) : Origin α
  | hit {α : Type} (d : α) : Origin α
  | miss {α : Type} : Origin α
  | result {α : Type} (r : Except StoreError (Option α)) : Origin α
  | list {α : Type} (ds : List α) : Origin (List α)
  | count (n : Nat) : Origin Nat

namespace Origin

/-- The outcome that is made. -/
def outcome : Origin α → Outcome α
  | parts payload found error => ofParts payload found error
  | failure e => ofError e
  | hit d => matched d
  | miss => missed none
  | result r => ofResult r
  | list ds => ofList ds
  | count n => ofCount n

/-- The parts that are written. Only parts that were given are made to go together. -/
def written : Origin α → Parts α
  | parts payload found error => .normalized payload found error
  | failure e => ⟨none, false, some e⟩
  | hit d => ⟨some d, true, none⟩
  | miss => ⟨none, false, none⟩
  | result (.ok (some d)) => ⟨some d, true, none⟩
  | result (.ok none) => ⟨none, false, none⟩
  | result (.error e) => ⟨none, false, some e⟩
  | list ds => ⟨some ds, !ds.isEmpty, none⟩
  | count n => ⟨some n, decide (0 < n), none⟩

theorem written_eq (origin : Origin α) : origin.written = origin.outcome.parts := by
  cases origin with
  | parts payload found error => exact (parts_ofParts payload found error).symm
  | failure e => rfl
  | hit d => rfl
  | miss => rfl
  | result r =>
      match r with
      | .ok (some d) => rfl
      | .ok none => rfl
      | .error e => rfl
  | list ds => cases ds <;> rfl
  | count n =>
      by_cases hn : 0 < n
      · simp [written, outcome, ofCount, hn, Outcome.parts, payload?, isFound, error?]
      · simp [written, outcome, ofCount, hn, Outcome.parts, payload?, isFound, error?]

end Origin

/-! ## One step -/

/-- A step keeps the state, or the outcome has failed after it. -/
theorem phase_apply (o : Outcome α) (s : Step α) :
    (o.apply s).phase = o.phase ∨ (o.apply s).phase = .failed := by
  cases s with
  | onSuccess check =>
      cases o with
      | matched d =>
          simp only [apply, onSuccess]
          cases check d
          · exact .inr rfl
          · exact .inl rfl
      | missed d => exact .inl rfl
      | failed d e => exact .inl rfl
  | onError amend => cases o <;> exact .inl rfl
  | onNotFound report =>
      cases o with
      | matched d => exact .inl rfl
      | missed d => exact .inr rfl
      | failed d e => exact .inl rfl
  | map f => cases o <;> exact .inl rfl

theorem phase_map (o : Outcome α) (f : α → β) : (o.map f).phase = o.phase := by
  cases o <;> rfl

/-- The error that the function of a step answers, if the step runs it and it answers one to an
outcome that has not failed. -/
def Step.failure? : Step α → Outcome α → Option StoreError
  | .onSuccess check, matched d =>
    match check d with
    | .ok () => none
    | .error e => some e
  | .onNotFound report, missed _ => some (report ())
  | _, _ => none

/-- An outcome that has not failed has the error after a step that the function answered. -/
theorem error?_apply {o : Outcome α} (h : o.error? = none) (s : Step α) :
    (o.apply s).error? = s.failure? o := by
  cases o with
  | matched d =>
      cases s with
      | onSuccess check =>
          simp only [apply, onSuccess, Step.failure?]
          cases check d <;> rfl
      | onError amend => rfl
      | onNotFound report => rfl
      | map f => rfl
  | missed d => cases s <;> rfl
  | failed d e => cases h

theorem error?_map (o : Outcome α) (f : α → β) : (o.map f).error? = o.error? := by
  cases o <;> rfl

/-- An outcome that has failed goes on failing, with its error amended. -/
theorem exists_apply_failed (s : Step α) (d : Option α) (e : StoreError) :
    ∃ d', (failed d e).apply s =
      failed d' (match s with
        | .onError amend => amend e
        | _ => e) := by
  cases s <;> exact ⟨_, rfl⟩

theorem exists_eq_failed {o : Outcome α} {e : StoreError} (h : o.error? = some e) :
    ∃ d, o = failed d e := by
  cases o with
  | matched d => cases h
  | missed d => cases h
  | failed d e' =>
      cases h
      exact ⟨d, rfl⟩

/-! ## Chains -/

/-- Steps one after the other, between which a payload may be transformed into one of another type.
-/
inductive Chain : Type → Type → Type 1
  | done {α : Type} : Chain α α
  | step {α β : Type} (s : Step α) (rest : Chain α β) : Chain α β
  | map {α β γ : Type} (f : α → β) (rest : Chain β γ) : Chain α γ

/-- An error after amendments one after the other. -/
def amended (amendments : List (StoreError → StoreError)) (e : StoreError) : StoreError :=
  amendments.foldl (fun e amend => amend e) e

namespace Chain

/-- The outcome after a chain. -/
def run : {α β : Type} → Chain α β → Outcome α → Outcome β
  | _, _, done, o => o
  | _, _, step s rest, o => rest.run (o.apply s)
  | _, _, map f rest, o => rest.run (o.map f)

/-- The parts after the same steps on parts. -/
def runParts : {α β : Type} → Chain α β → Parts α → Parts β
  | _, _, done, p => p
  | _, _, step s rest, p => rest.runParts (p.apply s)
  | _, _, map f rest, p => rest.runParts (p.map f)

/-- The functions of all steps of a chain that amend an error, in order. -/
def amendments : {α β : Type} → Chain α β → List (StoreError → StoreError)
  | _, _, done => []
  | _, _, step (.onError amend) rest => amend :: rest.amendments
  | _, _, step _ rest => rest.amendments
  | _, _, map _ rest => rest.amendments

/-- The first error that a function of a chain answers, with the amendments behind it. -/
def failure? : {α β : Type} → Chain α β → Outcome α →
    Option (StoreError × List (StoreError → StoreError))
  | _, _, done, _ => none
  | _, _, step s rest, o =>
    match s.failure? o with
    | some e => some (e, rest.amendments)
    | none => rest.failure? (o.apply s)
  | _, _, map f rest, o => rest.failure? (o.map f)

/-- The first error of an outcome that is taken through a chain, with the amendments behind it. -/
def firstError? (c : Chain α β) (o : Outcome α) :
    Option (StoreError × List (StoreError → StoreError)) :=
  match o.error? with
  | some e => some (e, c.amendments)
  | none => c.failure? o

/-- A chain of steps does to the parts of an outcome what it does to the outcome. -/
theorem runParts_parts (c : Chain α β) (o : Outcome α) : c.runParts o.parts = (c.run o).parts := by
  induction c with
  | done => rfl
  | step s rest ih => rw [runParts, run, ← parts_apply, ih]
  | map f rest ih => rw [runParts, run, ← parts_map, ih]

/-- A chain keeps the state, or the outcome has failed after it. -/
theorem phase_run (c : Chain α β) (o : Outcome α) :
    (c.run o).phase = o.phase ∨ (c.run o).phase = .failed := by
  induction c with
  | done => exact .inl rfl
  | step s rest ih =>
      rcases phase_apply o s with hstep | hstep
      · exact hstep ▸ ih (o.apply s)
      · exact .inr ((ih (o.apply s)).elim (·.trans hstep) id)
  | map f rest ih => exact phase_map o f ▸ ih (o.map f)

theorem phase_run_of_failed (c : Chain α β) {o : Outcome α} (h : o.phase = .failed) :
    (c.run o).phase = .failed :=
  (c.phase_run o).elim (·.trans h) id

/-- A chain makes no miss of anything else. -/
theorem phase_run_ne_missed (c : Chain α β) {o : Outcome α} (h : o.phase ≠ .missed) :
    (c.run o).phase ≠ .missed := by
  intro hmissed
  rcases c.phase_run o with hkept | hfailed
  · exact h (hkept.symm.trans hmissed)
  · cases hfailed.symm.trans hmissed

/-- The error of a failure is amended by all amendments of a chain. -/
theorem error?_run_failed (c : Chain α β) (d : Option α) (e : StoreError) :
    (c.run (failed d e)).error? = some (amended c.amendments e) := by
  induction c generalizing e with
  | done => rfl
  | step s rest ih =>
      obtain ⟨d', hd'⟩ := exists_apply_failed s d e
      rw [run, hd', ih]
      cases s <;> rfl
  | map f rest ih => exact ih (d.map f) e

/-- The error after a chain is the first one that came up, amended by all amendments behind it. -/
theorem error?_run (c : Chain α β) (o : Outcome α) :
    (c.run o).error? = (c.firstError? o).map fun first => amended first.2 first.1 := by
  unfold firstError?
  cases ho : o.error? with
  | some e =>
      obtain ⟨d, rfl⟩ := exists_eq_failed ho
      exact c.error?_run_failed d e
  | none =>
      induction c with
      | done => exact ho
      | step s rest ih =>
          have happly := error?_apply ho s
          rw [run, failure?]
          cases hs : s.failure? o with
          | none => exact ih (o.apply s) (happly.trans hs)
          | some e =>
              obtain ⟨d, hd⟩ := exists_eq_failed (happly.trans hs)
              rw [hd, error?_run_failed]
              rfl
      | map f rest ih => exact ih (o.map f) ((error?_map o f).trans ho)

/-- What holds of an outcome that was made in some way and taken through a chain. -/
structure Lawful (origin : Origin α) (c : Chain α β) (o : Outcome β) : Prop where
  /-- The outcome shows what the steps leave that test and write single parts. -/
  written : c.runParts origin.written = o.parts
  /-- It is in exactly one state. -/
  state : ∃! s, o.parts.Is s
  /-- A failure stays one. -/
  failed : o.parts.Is .failed → ∀ {γ : Type} (more : Chain β γ), (more.run o).parts.Is .failed
  /-- A check runs on a match, an amendment on a failure, and a report on a miss. -/
  runs : (∀ check, (Step.onSuccess check).runsOn o = true ↔ o.parts.Is .matched) ∧
    (∀ amend, (Step.onError amend).runsOn o = true ↔ o.parts.Is .failed) ∧
      ∀ report, (Step.onNotFound report).runsOn o = true ↔ o.parts.Is .missed
  /-- A check is run on the payload of a match. -/
  check : ∀ check d, Consults o.onSuccess check d ↔ o.parts.Is .matched ∧ o.payload? = some d
  /-- An amendment is run on the error of a failure. -/
  amend : ∀ amend e, Consults o.onError amend e ↔ o.parts.Is .failed ∧ o.error? = some e
  /-- A report is run on a miss. -/
  report : ∀ report, Consults o.onNotFound report () ↔ o.parts.Is .missed
  /-- Transforming the payload keeps the state. -/
  map : ∀ {γ : Type} (f : β → γ) s, (o.map f).parts.Is s ↔ o.parts.Is s
  /-- Behind a check that was run no report is run any more, and no check if that one failed. -/
  checked : ∀ check d, Consults o.onSuccess check d → ∀ {γ : Type} (more : Chain β γ),
    (∀ report, ¬ Consults (more.run (o.onSuccess check)).onNotFound report ()) ∧
      ∀ e, check d = .error e →
        ∀ check' d', ¬ Consults (more.run (o.onSuccess check)).onSuccess check' d'
  /-- Behind a report that was run neither a check nor another report is run any more. -/
  reported : ∀ report, Consults o.onNotFound report () → ∀ {γ : Type} (more : Chain β γ),
    (∀ check d, ¬ Consults (more.run (o.onNotFound report)).onSuccess check d) ∧
      ∀ report', ¬ Consults (more.run (o.onNotFound report)).onNotFound report' ()
  /-- The error is the first one that came up, amended by all amendments behind it. -/
  error : o.error? = (c.firstError? origin.outcome).map fun first => amended first.2 first.1
  /-- Taking the outcome apart and putting it together again changes nothing. -/
  rebuilt : ofParts o.payload? o.isFound o.error? = o
  /-- It hands on what the parts do that the steps leave. -/
  handed : (c.runParts origin.written).toResult = o.toResult
  /-- A failure is handed on as its error, a match as its payload, and a miss as nothing. -/
  result : (∀ e, o.toResult = .error e ↔ o.parts.Is .failed ∧ o.error? = some e) ∧
    (∀ d, o.toResult = .ok (some d) ↔ o.parts.Is .matched ∧ o.payload? = some d) ∧
      (o.toResult = .ok none ↔ o.parts.Is .missed)

end Chain

/-! ## Functions that run -/

theorem consults_onSuccess_iff {o : Outcome α} {check : α → Except StoreError Unit} {d : α} :
    Consults o.onSuccess check d ↔ o = matched d := by
  rw [← consults_onSuccess_parts, Parts.consults_onSuccess_iff]
  cases o <;> simp [parts, payload?, isFound, error?]

theorem consults_onError_iff {o : Outcome α} {amend : StoreError → StoreError} {e : StoreError} :
    Consults o.onError amend e ↔ o.error? = some e := by
  rw [← consults_onError_parts, Parts.consults_onError_iff]
  rfl

theorem consults_onNotFound_iff {o : Outcome α} {report : Unit → StoreError} :
    Consults o.onNotFound report () ↔ o.phase = .missed := by
  rw [← consults_onNotFound_parts, Parts.consults_onNotFound_iff, ← parts_is_iff]
  exact and_comm

/-- A check runs on nothing but a match. -/
theorem not_consults_onSuccess {o : Outcome α} (h : o.phase ≠ .matched)
    (check : α → Except StoreError Unit) (d : α) : ¬ Consults o.onSuccess check d := by
  rw [consults_onSuccess_iff]
  rintro rfl
  exact h rfl

/-- A report runs on nothing but a miss. -/
theorem not_consults_onNotFound {o : Outcome α} (h : o.phase ≠ .missed)
    (report : Unit → StoreError) : ¬ Consults o.onNotFound report () :=
  mt consults_onNotFound_iff.mp h

/-- Whatever is made in whatever way and taken through whatever chain, it is in one state at each
point of the chain, runs the functions of that state alone, and keeps the first error that comes up,
as amended behind it. -/
theorem Chain.lawful (origin : Origin α) (c : Chain α β) :
    c.Lawful origin (c.run origin.outcome) := by
  generalize ho : c.run origin.outcome = o
  refine
    { written := ?_, state := ?_, failed := ?_, runs := ?_, check := ?_, amend := ?_, report := ?_,
      map := ?_, checked := ?_, reported := ?_, error := ?_, rebuilt := ofParts_parts o,
      handed := ?_, result := ?_ }
  · rw [Origin.written_eq, runParts_parts, ho]
  · exact ⟨o.phase, parts_is_iff.mpr rfl, fun s hs => (parts_is_iff.mp hs).symm⟩
  · intro hfailed γ more
    exact parts_is_iff.mpr (more.phase_run_of_failed (parts_is_iff.mp hfailed))
  · simp only [parts_is_iff]
    cases o <;> simp [Step.runsOn, phase]
  · intro check d
    rw [consults_onSuccess_iff, parts_is_iff]
    cases o <;> simp [phase, payload?]
  · intro amend e
    rw [consults_onError_iff, parts_is_iff]
    cases o <;> simp [phase, error?]
  · intro report
    rw [consults_onNotFound_iff, parts_is_iff]
  · intro γ f s
    rw [parts_is_iff, parts_is_iff, phase_map]
  · intro check d hrun γ more
    cases consults_onSuccess_iff.mp hrun
    refine ⟨fun report => not_consults_onNotFound ?_ report, fun e he check' d' =>
      not_consults_onSuccess ?_ check' d'⟩
    · have hmatched : (matched d).phase ≠ .missed := Phase.noConfusion
      exact (Chain.step (.onSuccess check) more).phase_run_ne_missed hmatched
    · have hfailed : ((matched d).onSuccess check).phase = .failed := by
        rw [onSuccess, he]
        rfl
      rw [more.phase_run_of_failed hfailed]
      exact Phase.noConfusion
  · intro report hrun γ more
    have hfailed : (o.onNotFound report).phase = .failed := by
      cases o with
      | missed d => rfl
      | matched d => cases consults_onNotFound_iff.mp hrun
      | failed d e => cases consults_onNotFound_iff.mp hrun
    have hlater := more.phase_run_of_failed hfailed
    refine ⟨not_consults_onSuccess ?_, not_consults_onNotFound ?_⟩
    · exact hlater ▸ Phase.noConfusion
    · exact hlater ▸ Phase.noConfusion
  · rw [← ho, error?_run]
  · rw [Origin.written_eq, runParts_parts, ho, toResult_parts]
  · simp only [parts_is_iff]
    cases o <;> simp [toResult, phase, error?, payload?]

end TenantStore.Outcome
