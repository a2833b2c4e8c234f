import TenantStore.Paging.Report
import TenantStore.Proofs.Outcome.Parts

/-!
# Reports and outcomes in step

A page report keeps its own payload, flag and error, and steps are written for it anew. They are the
steps of `Outcome.Parts` on these three fields, and they touch no other (`PageReport.chain_eq_put`).
An outcome of the same rows and error shows the same three parts at first, so it shows them after
any chain (`PageReport.chain_simulates`).
-/

namespace TenantStore.PageReport

variable {α : Type}

/-- The parts that a report shares with an outcome. -/
def parts (r : PageReport α) : Outcome.Parts (List α) :=
  ⟨r.rows, r.found, r.error⟩

/-- The report with these parts and everything else as it is. -/
def put (r : PageReport α) (p : Outcome.Parts (List α)) : PageReport α :=
  { r with rows := p.payload, found := p.found, error := p.error }

theorem put_injective (r : PageReport α) : Function.Injective r.put := by
  intro p p' h
  obtain ⟨hrows, hfound, herror, -⟩ := PageReport.mk.inj h
  exact Outcome.Parts.ext hrows hfound herror

/-! ## Steps -/

theorem onSuccess_eq_put (r : PageReport α) (check : List α → Except StoreError Unit) :
    r.onSuccess check = r.put (r.parts.onSuccess check) := by
  obtain ⟨rows, found, error, totalRows, totalPages, page, size, filter, sort⟩ := r
  cases rows with
  | none => cases found <;> cases error <;> rfl
  | some rows =>
      cases found with
      | false => cases error <;> rfl
      | true =>
          cases error with
          | some e => rfl
          | none =>
              simp only [onSuccess, Outcome.Parts.onSuccess, parts]
              cases check rows <;> rfl

theorem onError_eq_put (r : PageReport α) (amend : StoreError → StoreError) :
    r.onError amend = r.put (r.parts.onError amend) :=
  rfl

theorem onNotFound_eq_put (r : PageReport α) (report : Unit → StoreError) :
    r.onNotFound report = r.put (r.parts.onNotFound report) := by
  obtain ⟨rows, found, error, totalRows, totalPages, page, size, filter, sort⟩ := r
  cases found <;> cases error <;> rfl

/-- A step of a report is the step of its parts. -/
theorem apply_eq_put (r : PageReport α) (s : Step α) :
    r.apply s = r.put (r.parts.apply s.toOutcomeStep) := by
  cases s with
  | onSuccess check => exact onSuccess_eq_put r check
  | onError amend => exact onError_eq_put r amend
  | onNotFound report => exact onNotFound_eq_put r report

/-- A chain changes the parts of a report and nothing else. -/
theorem chain_eq_put (r : PageReport α) (steps : List (Step α)) :
    r.chain steps = r.put ((steps.map Step.toOutcomeStep).foldl Outcome.Parts.apply r.parts) := by
  induction steps generalizing r with
  | nil => rfl
  | cons s steps ih =>
      have hrest := ih (r.apply s)
      rw [chain, List.foldl_cons, List.map_cons, List.foldl_cons]
      rw [chain] at hrest
      rw [hrest, apply_eq_put]
      rfl

/-- From the same parts on, a report and an outcome have the same parts after the same steps. -/
theorem parts_chain {r : PageReport α} {o : Outcome (List α)} (h : r.parts = o.parts)
    (steps : List (Step α)) :
    (r.chain steps).parts = (o.chain (steps.map Step.toOutcomeStep)).parts := by
  rw [chain_eq_put, h]
  exact Outcome.foldl_apply_parts o (steps.map Step.toOutcomeStep)

/-! ## Functions that run -/

section Consults

variable {r : PageReport α} {o : Outcome (List α)} (h : r.parts = o.parts)

include h

theorem consults_onSuccess_iff {check : List α → Except StoreError Unit} {rows : List α} :
    Consults r.onSuccess check rows ↔ Consults o.onSuccess check rows := by
  rw [funext (onSuccess_eq_put r), consults_comp_iff r.put_injective, h,
    Outcome.consults_onSuccess_parts]

theorem consults_onError_iff {amend : StoreError → StoreError} {e : StoreError} :
    Consults r.onError amend e ↔ Consults o.onError amend e := by
  rw [funext (onError_eq_put r), consults_comp_iff r.put_injective, h,
    Outcome.consults_onError_parts]

theorem consults_onNotFound_iff {report : Unit → StoreError} :
    Consults r.onNotFound report () ↔ Consults o.onNotFound report () := by
  rw [funext (onNotFound_eq_put r), consults_comp_iff r.put_injective, h,
    Outcome.consults_onNotFound_parts]

end Consults

/-! ## Reports that are made -/

theorem parts_ofParts (rows : Option (List α)) (total : Int) (query : Option PageQuery)
    (error : Option StoreError) :
    (ofParts rows total query error).parts =
      (Outcome.ofParts rows (decide (0 < total)) error).parts := by
  rw [Outcome.parts_ofParts]
  cases rows <;> cases query <;> rfl

/-- A report is made if the number of its pages is one. -/
theorem ofParts?_eq_some {rows : Option (List α)} {total : Int} {query : Option PageQuery}
    (error : Option StoreError)
    (h : ∀ q, query = some q → rows.isSome = true → (pageCount? total q.size).isSome = true) :
    ofParts? rows total query error = some (ofParts rows total query error) := by
  match rows, query with
  | none, _ => rfl
  | some _, none => rfl
  | some _, some q =>
      obtain ⟨pages, hpages⟩ := Option.isSome_iff_exists.mp (h q rfl rfl)
      simp only [ofParts?, hpages, Option.map_some]

/-- A report can be made of any rows, number of rows, query and error if its number of pages can be
counted. After any steps it has the rows, the flag and the error of the outcome that is made of the
same rows and error and of whether there are rows at all, and that takes the same steps; a further
step runs its function on the same argument in both. The totals and what the query asked for stay as
they are. An error and the flag are never set together, and the flag never without rows. The caller
is left with the same error, and with the same rows if the outcome is a match. -/
theorem chain_simulates {rows : Option (List α)} {total : Int} {query : Option PageQuery}
    (error : Option StoreError)
    (hpages : ∀ q, query = some q → rows.isSome = true → (pageCount? total q.size).isSome = true)
    (steps : List (Step α)) :
    ∃ start, ofParts? rows total query error = some start ∧
      let r := start.chain steps
      let o := (Outcome.ofParts rows (decide (0 < total)) error).chain
        (steps.map Step.toOutcomeStep)
      (r.rows = o.payload? ∧ r.found = o.isFound ∧ r.error = o.error?) ∧ r.toOutcome = o ∧
      ((∀ check ds, Consults r.onSuccess check ds ↔ Consults o.onSuccess check ds) ∧
        (∀ amend e, Consults r.onError amend e ↔ Consults o.onError amend e) ∧
        ∀ report, Consults r.onNotFound report () ↔ Consults o.onNotFound report ()) ∧
      (r.totalRows = start.totalRows ∧ r.totalPages = start.totalPages ∧ r.page = start.page ∧
        r.size = start.size ∧ r.filter = start.filter ∧ r.sort = start.sort) ∧
      ¬ (r.error.isSome = true ∧ r.found = true) ∧
      (r.found = true → r.rows.isSome = true) ∧
      (∀ e, r.toResult = .error e ↔ o.toResult = .error e) ∧
      (o.isFound = true → ∃ found, o.toResult = .ok (some found) ∧ r.toResult = .ok found) := by
  refine ⟨_, ofParts?_eq_some error hpages, ?_⟩
  have hparts := parts_chain (parts_ofParts rows total query error) steps
  have hframe := chain_eq_put (ofParts rows total query error) steps
  generalize ofParts rows total query error = start at hparts hframe ⊢
  generalize (Outcome.ofParts rows (decide (0 < total)) error).chain
    (steps.map Step.toOutcomeStep) = o at hparts ⊢
  generalize start.chain steps = r at hparts hframe ⊢
  intro r' o'
  obtain ⟨hrows, hfound, herror⟩ := Outcome.Parts.mk.inj hparts
  refine ⟨⟨hrows, hfound, herror⟩, ?_,
    ⟨fun _ _ => consults_onSuccess_iff hparts, fun _ _ => consults_onError_iff hparts,
      fun _ => consults_onNotFound_iff hparts⟩, ?_, ?_, ?_, ?_, ?_⟩
  · show Outcome.ofParts r.rows r.found r.error = o
    rw [hrows, hfound, herror, Outcome.ofParts_parts]
  · subst hframe
    exact ⟨rfl, rfl, rfl, rfl, rfl, rfl⟩
  · show ¬ (r.error.isSome = true ∧ r.found = true)
    rw [herror, hfound]
    cases o <;> simp [Outcome.error?, Outcome.isFound]
  · show r.found = true → r.rows.isSome = true
    rw [hrows, hfound]
    exact (Outcome.found_spec o).2
  · intro e
    show r.toResult = .error e ↔ o.toResult = .error e
    rw [toResult, herror]
    cases o <;> simp [Outcome.error?, Outcome.toResult]
  · intro hmatched
    show ∃ found, o.toResult = .ok (some found) ∧ r.toResult = .ok found
    cases o with
    | missed d => cases hmatched
    | failed d e => cases hmatched
    | matched d =>
        refine ⟨d, rfl, ?_⟩
        rw [toResult, herror, hrows]
        rfl

/-- Rows that nobody counted are missed in both, and an amendment in front of the report of the miss
is not run. -/
theorem chain_simulates_uncounted :
    let query : PageQuery := ⟨"acme", "", "name", 2, 5⟩
    let steps : List (Step String) :=
      [.onError fun _ => .validation "amended", .onNotFound fun _ => .notFound "users"]
    (∀ q, some query = some q → (some ["u1"]).isSome = true →
        (pageCount? (-3) q.size).isSome = true) ∧
      ∃ start, ofParts? (some ["u1"]) (-3) (some query) none = some start ∧
        (start.chain steps).error = some (.notFound "users") ∧
        (start.chain steps).rows = some ["u1"] ∧ (start.chain steps).page = start.page := by
  intro query steps
  have hpages : ∀ q, some query = some q → (some ["u1"]).isSome = true →
      (pageCount? (-3) q.size).isSome = true := by
    intro q hq _
    cases hq
    decide
  obtain ⟨start, hstart, ⟨hrows, -, herror⟩, -, -, ⟨-, -, hpage, -⟩, -⟩ :=
    chain_simulates none hpages steps
  exact ⟨hpages, start, hstart, herror, hrows, hpage⟩

end TenantStore.PageReport
