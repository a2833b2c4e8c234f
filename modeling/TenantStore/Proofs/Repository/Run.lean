import TenantStore.Proofs.Access
import TenantStore.Repository.Basic

/-!
# Runs of repositories

Whatever an operation does to a store, it does by its backend: it stores the entities it was given
(`Operation.entities`) and sends selections that were made of its own arguments
(`Repository.Sends`). So what the backend does with these says what the operation does. A condition
on the state that the backend leaves in force is in force after the operation, and what holds of the
entities that were given and of those that the backend finds holds of all entities that the
operation hands out (`run_spec`).
-/

namespace TenantStore

variable {σ α β γ : Type}

namespace Operation

/-- The entities that an operation is given to store. -/
def entities : Operation α → List α
  | insert e | update e => [e]
  | insertMany es | updateMany es => es
  | _ => []

/-- The filter text of an operation. -/
def filter? : Operation α → Option String
  | deleteByFilter _ filter | findList _ filter => some filter
  | findPaging q => some q.filter
  | _ => none

end Operation

namespace Repository

/-! ## How accesses are settled -/

/-- An access is settled in the state that it leaves. -/
theorem settle_apply (act : Access σ β) (outcome : β → Outcome γ) (c : σ) :
    settle act outcome c =
      (match (act c).1 with
        | .ok b => outcome b
        | .error e => .ofError e, (act c).2) := by
  unfold settle
  simp only [bind, StateT.bind, ExceptT.run]
  cases act c with
  | mk answer c' => cases answer <;> rfl

theorem findPaging_apply (r : Repository σ α) (q : PageQuery) (c : σ) :
    r.findPaging q c =
      (match (r.tryFindPaging q c).1 with
        | .ok (rows, total) => .ofParts (some rows) total (some q) none
        | .error e => .ofError e, (r.tryFindPaging q c).2) := by
  unfold findPaging
  simp only [bind, StateT.bind, ExceptT.run]
  cases r.tryFindPaging q c with
  | mk answer c' => cases answer <;> rfl

theorem payload?_ofList (es : List α) : (Outcome.ofList es).payload? = some es := by
  cases es <;> rfl

theorem payload?_ofResult (found : Option α) : (Outcome.ofResult (.ok found)).payload? = found := by
  cases found <;> rfl

section Settle

variable {I : σ → Prop} {P : β → Prop} {Q : α → Prop} {c : σ}

/-- What is settled leaves the state of the access, and its payload comes from the answer. -/
theorem settle_spec {act : Access σ β} (hact : act.Yields I P) {outcome : β → Outcome γ}
    {S : γ → Prop} (houtcome : ∀ b, P b → ∀ d ∈ (outcome b).payload?, S d) (hc : I c) :
    I (settle act outcome c).2 ∧ ∀ d ∈ (settle act outcome c).1.payload?, S d := by
  obtain ⟨hstate, hanswer⟩ := hact c hc
  rw [settle_apply]
  refine ⟨hstate, ?_⟩
  cases h : (act c).1 with
  | ok b => exact houtcome b (hanswer b h)
  | error e => exact fun d hd => nomatch hd

/-- A list that an access answers is the payload. -/
theorem settle_ofList_spec {act : Access σ (List α)} (hact : act.Yields I fun es => ∀ e ∈ es, Q e)
    (hc : I c) :
    I (settle act Outcome.ofList c).2 ∧
      ∀ es ∈ (settle act Outcome.ofList c).1.payload?, ∀ e ∈ es, Q e := by
  refine settle_spec (S := fun es => ∀ e ∈ es, Q e) hact ?_ hc
  intro found hfound es hes
  rw [payload?_ofList] at hes
  cases hes
  exact hfound

end Settle

/-! ## Operations on selections -/

section Selection

variable {r : Repository σ α} {I : σ → Prop} {Q : α → Prop} {c : σ}

theorem delete_spec {selection : Except StoreError Scoped}
    (hdelete : ∀ s, selection = .ok s → (r.backend.delete s).Yields I fun _ => True) (hc : I c) :
    I (r.delete selection c).2 :=
  (settle_spec (S := fun _ => True) (Access.Yields.lift_bind _ hdelete)
    (fun _ _ _ _ => trivial) hc).1

theorem findOne_spec {selection : Except StoreError Scoped}
    (hfirst : ∀ s, selection = .ok s →
      (r.backend.first s).Yields I fun found => ∀ e ∈ found, Q e) (hc : I c) :
    I (r.findOne selection c).2 ∧ ∀ e ∈ (r.findOne selection c).1.payload?, Q e := by
  refine settle_spec (Access.Yields.lift_bind _ hfirst) ?_ hc
  intro found hfound
  rwa [payload?_ofResult]

theorem findMany_spec {selection : Except StoreError Scoped}
    (hfind : ∀ s w, selection = .ok s →
      (r.backend.find s w).Yields I fun found => ∀ e ∈ found, Q e) (hc : I c) :
    I (r.findMany selection c).2 ∧ ∀ es ∈ (r.findMany selection c).1.payload?, ∀ e ∈ es, Q e :=
  settle_ofList_spec (Access.Yields.lift_bind _ fun s hs => hfind s .all hs) hc

theorem yields_tryFindPaging {q : PageQuery}
    (hcount : ∀ s, r.byFilter q.tenant q.filter = .ok s →
      (r.backend.count s).Yields I fun _ => True)
    (hfind : ∀ s w, r.byFilter q.tenant q.filter = .ok s →
      (r.backend.find s w).Yields I fun found => ∀ e ∈ found, Q e) :
    (r.tryFindPaging q).Yields I fun answer => ∀ e ∈ answer.1, Q e := by
  rw [tryFindPaging]
  refine Access.Yields.lift_bind _ fun tenant htenant => ?_
  refine Access.Yields.lift_bind _ fun skip _ => ?_
  refine Access.Yields.lift_bind _ fun s hcompile => ?_
  refine Access.Yields.lift_bind _ fun sort _ => ?_
  have hs : r.byFilter q.tenant q.filter = .ok s := by
    rw [byFilter, htenant]
    exact hcompile
  refine (hcount s hs).bind fun total _ => (hfind s _ hs).bind fun rows hrows => ?_
  exact Access.Yields.pure hrows

theorem findPaging_spec {q : PageQuery}
    (hpage : (r.tryFindPaging q).Yields I fun answer => ∀ e ∈ answer.1, Q e) (hc : I c) :
    I (r.findPaging q c).2 ∧ ∀ es ∈ (r.findPaging q c).1.rows, ∀ e ∈ es, Q e := by
  obtain ⟨hstate, hanswer⟩ := hpage c hc
  rw [findPaging_apply]
  refine ⟨hstate, ?_⟩
  cases h : (r.tryFindPaging q c).1 with
  | ok answer =>
      rintro es ⟨⟩
      exact hanswer answer h
  | error e => exact fun es hes => nomatch hes

/-- All entities of a list that is there have a property that the entities of the list have. -/
theorem forall_mem_getD {es? : Option (List α)} (h : ∀ es ∈ es?, ∀ e ∈ es, Q e) :
    ∀ e ∈ es?.getD [], Q e := by
  cases es? with
  | none => exact fun e he => nomatch he
  | some es => exact h es rfl

end Selection

/-! ## What a backend is asked for -/

variable [Entity α]

/-- The selection is one that an operation makes the repository send to its backend. -/
def Sends (r : Repository σ α) (s : Scoped) : Operation α → Prop
  | .insert _ | .insertMany _ => False
  | .update e => r.byId (Entity.tenantId e) (Entity.id e) = .ok s
  | .updateMany es => ∃ e ∈ es, r.byId (Entity.tenantId e) (Entity.id e) = .ok s
  | .deleteById tenant id | .findById tenant id => r.byId tenant id = .ok s
  | .deleteByIds tenant ids | .findByIds tenant ids => r.byIds tenant ids = .ok s
  | .deleteAll tenant | .findAll tenant => r.byTenant tenant = .ok s
  | .deleteByFilter tenant filter | .findList tenant filter => r.byFilter tenant filter = .ok s
  | .findPaging q => r.byFilter q.tenant q.filter = .ok s

/-- The backend leaves `I` in force when it is asked for what the operation needs, and all entities
that it then finds have `Q`. -/
structure Serves (r : Repository σ α) (op : Operation α) (I : σ → Prop) (Q : α → Prop) : Prop where
  insert : ∀ e ∈ op.entities, (r.backend.insert e).Yields I fun _ => True
  update : ∀ e ∈ op.entities, ∀ s, r.Sends s op → (r.backend.update s e).Yields I fun _ => True
  delete : ∀ s, r.Sends s op → (r.backend.delete s).Yields I fun _ => True
  first : ∀ s, r.Sends s op → (r.backend.first s).Yields I fun found => ∀ e ∈ found, Q e
  find : ∀ s w, r.Sends s op → (r.backend.find s w).Yields I fun found => ∀ e ∈ found, Q e
  count : ∀ s, r.Sends s op → (r.backend.count s).Yields I fun _ => True

/-! ## What operations do -/

section Spec

variable {r : Repository σ α} {I : σ → Prop} {Q : α → Prop} {c : σ}

theorem yields_tryInsert {e : α} (hinsert : (r.backend.insert e).Yields I fun _ => True) :
    (r.tryInsert e).Yields I fun _ => True :=
  Access.Yields.lift_bind _ fun _ _ => hinsert

theorem yields_tryUpdate {e : α}
    (hupdate : ∀ s, r.byId (Entity.tenantId e) (Entity.id e) = .ok s →
      (r.backend.update s e).Yields I fun _ => True) :
    (r.tryUpdate e).Yields I fun _ => True :=
  Access.Yields.lift_bind _ hupdate

theorem yields_tryInsertMany {es : List α}
    (hinsert : ∀ e ∈ es, (r.backend.insert e).Yields I fun _ => True) :
    (r.tryInsertMany es).Yields I fun _ => True := by
  induction es with
  | nil => exact Access.Yields.pure trivial
  | cons e es ih =>
      have hfirst := yields_tryInsert (hinsert e List.mem_cons_self)
      have hrest := ih fun e' he' => hinsert e' (.tail e he')
      rw [tryInsertMany]
      exact hfirst.bind fun _ _ => hrest

/-- The updated entities are among the given ones. -/
theorem yields_tryUpdateMany {es : List α}
    (hupdate : ∀ e ∈ es, ∀ s, r.byId (Entity.tenantId e) (Entity.id e) = .ok s →
      (r.backend.update s e).Yields I fun _ => True)
    (hgiven : ∀ e ∈ es, Q e) :
    (r.tryUpdateMany es).Yields I fun found => ∀ e ∈ found, Q e := by
  induction es with
  | nil => exact Access.Yields.pure hgiven
  | cons e es ih =>
      have hfirst := yields_tryUpdate (hupdate e List.mem_cons_self)
      have hrest := ih (fun e' he' => hupdate e' (.tail e he'))
        fun e' he' => hgiven e' (.tail e he')
      rw [tryUpdateMany]
      refine hfirst.bind fun found _ => hrest.bind fun rest hrest => Access.Yields.pure ?_
      split
      · intro e' he'
        rcases List.mem_cons.mp he' with rfl | he'
        · exact hgiven e' List.mem_cons_self
        · exact hrest e' he'
      · exact hrest

theorem insert_spec {e : α} (hinsert : (r.backend.insert e).Yields I fun _ => True) (he : Q e)
    (hc : I c) : I (r.insert e c).2 ∧ ∀ d ∈ (r.insert e c).1.payload?, Q d := by
  refine settle_spec (yields_tryInsert hinsert) ?_ hc
  rintro _ _ _ ⟨⟩
  exact he

theorem insertMany_spec {es : List α}
    (hinsert : ∀ e ∈ es, (r.backend.insert e).Yields I fun _ => True) (hes : ∀ e ∈ es, Q e)
    (hc : I c) :
    I (r.insertMany es c).2 ∧ ∀ ds ∈ (r.insertMany es c).1.payload?, ∀ d ∈ ds, Q d := by
  refine settle_spec (yields_tryInsertMany hinsert) ?_ hc
  intro _ _ ds hds
  rw [payload?_ofList] at hds
  cases hds
  exact hes

theorem update_spec {e : α}
    (hupdate : ∀ s, r.byId (Entity.tenantId e) (Entity.id e) = .ok s →
      (r.backend.update s e).Yields I fun _ => True) (he : Q e) (hc : I c) :
    I (r.update e c).2 ∧ ∀ d ∈ (r.update e c).1.payload?, Q d := by
  refine settle_spec (yields_tryUpdate hupdate) ?_ hc
  intro found _ d hd
  cases found with
  | true =>
      cases hd
      exact he
  | false => exact nomatch hd

/-- An operation leaves in force what its backend does, and everything that it hands out was given
to it or found by the backend. -/
theorem run_spec {op : Operation α} (hserves : r.Serves op I Q) (hgiven : ∀ e ∈ op.entities, Q e)
    (hc : I c) : I (r.run op c).2 ∧ ∀ e ∈ (r.run op c).1.found, Q e := by
  obtain ⟨hinsert, hupdate, hdelete, hfirst, hfind, hcount⟩ := hserves
  -- An answer has one entity, a list of entities, a number or a page.
  have hone : ∀ o : Outcome α × σ, (I o.2 ∧ ∀ e ∈ o.1.payload?, Q e) →
      I o.2 ∧ ∀ e ∈ (Reply.entity o.1).found, Q e := by
    rintro o ⟨hstate, hfound⟩
    exact ⟨hstate, fun e he => hfound e (Option.mem_toList.mp he)⟩
  have hmany : ∀ o : Outcome (List α) × σ, (I o.2 ∧ ∀ es ∈ o.1.payload?, ∀ e ∈ es, Q e) →
      I o.2 ∧ ∀ e ∈ (Reply.entities o.1).found, Q e := by
    rintro o ⟨hstate, hfound⟩
    exact ⟨hstate, forall_mem_getD hfound⟩
  have hnumber : ∀ o : Outcome Nat × σ, I o.2 →
      I o.2 ∧ ∀ e ∈ (Reply.count o.1 : Reply α).found, Q e :=
    fun o hstate => ⟨hstate, fun e he => nomatch he⟩
  cases op with
  | insert e =>
      have he := hgiven e List.mem_cons_self
      exact hone (r.insert e c) (insert_spec (hinsert e List.mem_cons_self) he hc)
  | insertMany es => exact hmany (r.insertMany es c) (insertMany_spec hinsert hgiven hc)
  | update e =>
      have he := hgiven e List.mem_cons_self
      exact hone (r.update e c) (update_spec (hupdate e List.mem_cons_self) he hc)
  | updateMany es =>
      have hupdated := yields_tryUpdateMany (fun e he s hs => hupdate e he s ⟨e, he, hs⟩) hgiven
      exact hmany (r.updateMany es c) (settle_ofList_spec hupdated hc)
  | deleteById tenant id => exact hnumber (r.delete _ c) (delete_spec hdelete hc)
  | deleteByIds tenant ids => exact hnumber (r.delete _ c) (delete_spec hdelete hc)
  | deleteAll tenant => exact hnumber (r.delete _ c) (delete_spec hdelete hc)
  | deleteByFilter tenant filter => exact hnumber (r.delete _ c) (delete_spec hdelete hc)
  | findById tenant id => exact hone (r.findOne _ c) (findOne_spec hfirst hc)
  | findByIds tenant ids => exact hmany (r.findMany _ c) (findMany_spec hfind hc)
  | findAll tenant => exact hmany (r.findMany _ c) (findMany_spec hfind hc)
  | findList tenant filter => exact hmany (r.findMany _ c) (findMany_spec hfind hc)
  | findPaging q =>
      obtain ⟨hstate, hrows⟩ := findPaging_spec (yields_tryFindPaging hcount hfind) hc
      exact ⟨hstate, forall_mem_getD hrows⟩

end Spec

/-! ## Operations one after the other -/

/-- The state of the store after operations one after the other. -/
def after (r : Repository σ α) (c : σ) (ops : List (Operation α)) : σ :=
  ops.foldl (fun c op => (r.run op c).2) c

/-- What holds at the start and is kept by every operation holds after any operations. -/
theorem after_induction {r : Repository σ α} {I : σ → Prop}
    (hrun : ∀ op c, I c → I (r.run op c).2) {c : σ} (hc : I c) (ops : List (Operation α)) :
    I (r.after c ops) := by
  induction ops generalizing c with
  | nil => exact hc
  | cons op ops ih => exact ih (hrun op c hc)

end Repository
end TenantStore
