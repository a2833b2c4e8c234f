import TenantStore.Proofs.Repository.Run

/-!
# Backends that a repository cannot tell apart

One backend simulates another under a relation between their states if, from related states, each
request is answered alike by both and leaves related states. A repository does nothing to a store
but by its backend, so over such backends it gives the same replies to all operations
(`Repository.run_simulates`) in any order (`Repository.after_simulates`), and what is to be shown of
a repository may be shown over the simpler of the two.
-/

namespace TenantStore

variable {σ τ α β γ : Type}

namespace Access

/-- From related states both accesses give the same answer and leave related states. -/
def Simulates (R : σ → τ → Prop) (act : Access σ β) (ref : Access τ β) : Prop :=
  ∀ c s, R c s → (act c).1 = (ref s).1 ∧ R (act c).2 (ref s).2

variable {R : σ → τ → Prop}

theorem Simulates.pure (b : β) : Simulates R (pure b : Access σ β) (pure b : Access τ β) :=
  fun _ _ h => ⟨rfl, h⟩

/-- A check is the same everywhere. -/
theorem Simulates.lift (e : Except StoreError β) :
    Simulates R (liftM e : Access σ β) (liftM e : Access τ β) :=
  fun _ _ h => ⟨rfl, h⟩

/-- Checks one after the other are one check. -/
theorem liftM_bind (e : Except StoreError β) (next : β → Except StoreError γ) :
    (liftM (e >>= next) : Access σ γ) = (liftM e : Access σ β) >>= fun b => liftM (next b) := by
  funext c
  rw [bind_apply]
  cases e <;> rfl

/-- If the first steps answer alike, the second steps need to agree on what they answer only. -/
theorem Simulates.bind {act : Access σ β} {ref : Access τ β} {next : β → Access σ γ}
    {next' : β → Access τ γ} (hact : Simulates R act ref)
    (hnext : ∀ b, Simulates R (next b) (next' b)) :
    Simulates R (act >>= next) (ref >>= next') := by
  intro c s h
  obtain ⟨hanswer, hstate⟩ := hact c s h
  rw [bind_apply, bind_apply]
  cases hc : act c with
  | mk answer c' =>
      cases hs : ref s with
      | mk answer' s' =>
          rw [hc, hs] at hanswer hstate
          cases hanswer
          cases answer with
          | ok b => exact hnext b c' s' hstate
          | error e => exact ⟨rfl, hstate⟩

/-- A check in front of both accesses. -/
theorem Simulates.lift_bind (e : Except StoreError β) {next : β → Access σ γ}
    {next' : β → Access τ γ} (hnext : ∀ b, Simulates R (next b) (next' b)) :
    Simulates R ((liftM e : Access σ β) >>= next) ((liftM e : Access τ β) >>= next') :=
  (Simulates.lift e).bind hnext

end Access

/-- Both backends have the same fields, and they answer every request alike. -/
structure Backend.Simulates (R : σ → τ → Prop) (b : Backend σ α) (ref : Backend τ α) : Prop where
  naming : b.naming = ref.naming
  insert : ∀ e, (b.insert e).Simulates R (ref.insert e)
  update : ∀ s e, (b.update s e).Simulates R (ref.update s e)
  delete : ∀ s, (b.delete s).Simulates R (ref.delete s)
  first : ∀ s, (b.first s).Simulates R (ref.first s)
  find : ∀ s w, (b.find s w).Simulates R (ref.find s w)
  count : ∀ s, (b.count s).Simulates R (ref.count s)

namespace Repository

/-! ## Requests for pages -/

/-- What a page query makes the repository ask its backend for, if the query is not refused. -/
def pageRequest (r : Repository σ α) (q : PageQuery) : Except StoreError (Scoped × Window) := do
  let tenant ← Tenant.ofName q.tenant
  let skip ← q.checked.mapError PageError.toStoreError
  let selection ← r.compile tenant q.filter
  let sort ← r.sortFields q.sort
  return (selection, ⟨skip.toNat, q.limit.map Int.toNat, sort⟩)

/-- A page is asked for after everything in its query has been checked. -/
theorem tryFindPaging_eq (r : Repository σ α) (q : PageQuery) :
    r.tryFindPaging q = (do
      let (selection, window) ← r.pageRequest q
      let total ← r.backend.count selection
      let rows ← r.backend.find selection window
      return (rows, min total maxInteger)) := by
  simp only [tryFindPaging, pageRequest, Access.liftM_bind, bind_assoc]
  rfl

/-- The rows of a page are asked for once they have been counted. -/
theorem tryFindPaging_apply {r : Repository σ α} {q : PageQuery} {selection : Scoped}
    {window : Window} (hpage : r.pageRequest q = .ok (selection, window)) (c : σ) :
    r.tryFindPaging q c =
      match r.backend.count selection c with
      | (.ok total, c') =>
        ((r.backend.find selection window c').1.map fun rows => (rows, min total maxInteger),
          (r.backend.find selection window c').2)
      | (.error e, c') => (.error e, c') := by
  rw [tryFindPaging_eq, hpage]
  show (r.backend.count selection >>= fun total => r.backend.find selection window >>= fun rows =>
    pure (rows, min (total : Int) maxInteger)) c = _
  rw [Access.bind_apply]
  cases r.backend.count selection c with
  | mk answer c' =>
      cases answer with
      | ok total => exact Access.bind_pure_apply _ _ _
      | error e => rfl

/-! ## Repositories over backends that answer alike -/

section Simulates

variable {R : σ → τ → Prop} {r : Repository σ α} {ref : Repository τ α} {c : σ} {s : τ}

section Selections

variable (hnaming : r.backend.naming = ref.backend.naming)

include hnaming

theorem byId_eq (tenant id : String) : r.byId tenant id = ref.byId tenant id := by
  rw [byId, byId, hnaming]

theorem byIds_eq (tenant : String) (ids : List String) :
    r.byIds tenant ids = ref.byIds tenant ids := by
  rw [byIds, byIds, hnaming]

theorem byTenant_eq (tenant : String) : r.byTenant tenant = ref.byTenant tenant := by
  rw [byTenant, byTenant, hnaming]

theorem byFilter_eq (hparser : r.parser = ref.parser) (tenant filter : String) :
    r.byFilter tenant filter = ref.byFilter tenant filter := by
  simp only [byFilter, compile, hparser, hnaming]

theorem pageRequest_eq (hparser : r.parser = ref.parser) (q : PageQuery) :
    r.pageRequest q = ref.pageRequest q := by
  simp only [pageRequest, compile, sortFields, hparser, hnaming]

end Selections

/-- Accesses that answer alike are settled alike. -/
theorem settle_simulates {act : Access σ β} {act' : Access τ β} (hact : act.Simulates R act')
    (outcome : β → Outcome γ) (h : R c s) :
    (settle act outcome c).1 = (settle act' outcome s).1 ∧
      R (settle act outcome c).2 (settle act' outcome s).2 := by
  obtain ⟨hanswer, hstate⟩ := hact c s h
  rw [settle_apply, settle_apply, hanswer]
  exact ⟨rfl, hstate⟩

variable (hbackend : r.backend.Simulates R ref.backend)

section Lookup

variable {selection selection' : Except StoreError Scoped} (hselection : selection = selection')

include hbackend hselection

theorem delete_simulates (h : R c s) :
    (r.delete selection c).1 = (ref.delete selection' s).1 ∧
      R (r.delete selection c).2 (ref.delete selection' s).2 := by
  subst hselection
  exact settle_simulates (Access.Simulates.lift_bind _ hbackend.delete) _ h

theorem findOne_simulates (h : R c s) :
    (r.findOne selection c).1 = (ref.findOne selection' s).1 ∧
      R (r.findOne selection c).2 (ref.findOne selection' s).2 := by
  subst hselection
  exact settle_simulates (Access.Simulates.lift_bind _ hbackend.first) _ h

theorem findMany_simulates (h : R c s) :
    (r.findMany selection c).1 = (ref.findMany selection' s).1 ∧
      R (r.findMany selection c).2 (ref.findMany selection' s).2 := by
  subst hselection
  exact settle_simulates (Access.Simulates.lift_bind _ fun s => hbackend.find s .all) _ h

end Lookup

variable (hparser : r.parser = ref.parser)

include hbackend hparser in
theorem findPaging_simulates (q : PageQuery) (h : R c s) :
    (r.findPaging q c).1 = (ref.findPaging q s).1 ∧
      R (r.findPaging q c).2 (ref.findPaging q s).2 := by
  have hpage : (r.tryFindPaging q).Simulates R (ref.tryFindPaging q) := by
    rw [tryFindPaging_eq, tryFindPaging_eq, pageRequest_eq hbackend.naming hparser]
    refine Access.Simulates.lift_bind _ fun (selection, window) => ?_
    refine (hbackend.count selection).bind fun total => ?_
    exact (hbackend.find selection window).bind fun rows => Access.Simulates.pure _
  obtain ⟨hanswer, hstate⟩ := hpage c s h
  rw [findPaging_apply, findPaging_apply, hanswer]
  exact ⟨rfl, hstate⟩

variable [Entity α]

include hbackend

theorem tryInsert_simulates (e : α) : (r.tryInsert e).Simulates R (ref.tryInsert e) :=
  Access.Simulates.lift_bind _ fun _ => hbackend.insert e

theorem tryUpdate_simulates (e : α) : (r.tryUpdate e).Simulates R (ref.tryUpdate e) := by
  rw [tryUpdate, tryUpdate, byId_eq hbackend.naming]
  exact Access.Simulates.lift_bind _ fun s => hbackend.update s e

theorem tryInsertMany_simulates (es : List α) :
    (r.tryInsertMany es).Simulates R (ref.tryInsertMany es) := by
  induction es with
  | nil => exact Access.Simulates.pure ()
  | cons e es ih =>
      rw [tryInsertMany, tryInsertMany]
      exact (tryInsert_simulates hbackend e).bind fun _ => ih

theorem tryUpdateMany_simulates (es : List α) :
    (r.tryUpdateMany es).Simulates R (ref.tryUpdateMany es) := by
  induction es with
  | nil => exact Access.Simulates.pure []
  | cons e es ih =>
      rw [tryUpdateMany, tryUpdateMany]
      refine (tryUpdate_simulates hbackend e).bind fun found => ih.bind fun rest => ?_
      exact Access.Simulates.pure _

include hparser

/-- Over backends that answer alike, repositories reply to an operation alike. -/
theorem run_simulates (op : Operation α) (h : R c s) :
    (r.run op c).1 = (ref.run op s).1 ∧ R (r.run op c).2 (ref.run op s).2 := by
  have hnaming := hbackend.naming
  -- A reply is an outcome under the name of its kind.
  have hreply : ∀ {δ : Type} (reply : δ → Reply α) {x : δ × σ} {y : δ × τ},
      (x.1 = y.1 ∧ R x.2 y.2) → reply x.1 = reply y.1 ∧ R x.2 y.2 :=
    fun reply _ _ hxy => ⟨congrArg reply hxy.1, hxy.2⟩
  cases op with
  | insert e =>
      exact hreply .entity (settle_simulates (tryInsert_simulates hbackend e) _ h)
  | insertMany es =>
      exact hreply .entities (settle_simulates (tryInsertMany_simulates hbackend es) _ h)
  | update e =>
      exact hreply .entity (settle_simulates (tryUpdate_simulates hbackend e) _ h)
  | updateMany es =>
      exact hreply .entities (settle_simulates (tryUpdateMany_simulates hbackend es) _ h)
  | deleteById tenant id =>
      exact hreply .count (delete_simulates hbackend (byId_eq hnaming tenant id) h)
  | deleteByIds tenant ids =>
      exact hreply .count (delete_simulates hbackend (byIds_eq hnaming tenant ids) h)
  | deleteAll tenant =>
      exact hreply .count (delete_simulates hbackend (byTenant_eq hnaming tenant) h)
  | deleteByFilter tenant filter =>
      exact hreply .count (delete_simulates hbackend (byFilter_eq hnaming hparser tenant filter) h)
  | findById tenant id =>
      exact hreply .entity (findOne_simulates hbackend (byId_eq hnaming tenant id) h)
  | findByIds tenant ids =>
      exact hreply .entities (findMany_simulates hbackend (byIds_eq hnaming tenant ids) h)
  | findAll tenant =>
      exact hreply .entities (findMany_simulates hbackend (byTenant_eq hnaming tenant) h)
  | findList tenant filter =>
      exact hreply .entities
        (findMany_simulates hbackend (byFilter_eq hnaming hparser tenant filter) h)
  | findPaging q => exact hreply .page (findPaging_simulates hbackend hparser q h)

/-- Operations one after the other leave related states. -/
theorem after_simulates (ops : List (Operation α)) (h : R c s) :
    R (r.after c ops) (ref.after s ops) := by
  induction ops generalizing c s with
  | nil => exact h
  | cons op ops ih => exact ih (run_simulates hbackend hparser op h).2

end Simulates

end Repository
end TenantStore
