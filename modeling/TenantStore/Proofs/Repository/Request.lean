import Mathlib.Data.List.Infix
import Mathlib.Order.Defs.Unbundled
import TenantStore.Proofs.Filter.Renaming
import TenantStore.Proofs.Repository.Simulation

/-!
# The first request of an operation

Before a repository asks its backend for anything it checks the operation (`Operation.check`): the
tenant first, then the page, the filter and the sort order, or the entity. An operation that fails a
check is refused, and the backend does not notice; any other one begins with a request
(`Repository.request`), unless it is a batch without entities.

A backend keeps a log if each request adds entries of its own to it (`Backend.Logs`). So the log
shows which operations were refused (`Repository.refuses_iff`) and what the others asked for first
(`Repository.isPrefix_log_run`).
-/

namespace TenantStore

variable {σ κ α β γ : Type}

namespace Access

/-! ## Checks one after the other -/

theorem map_check_bind (x : Except StoreError α) (next : α → Except StoreError β) (f : β → γ) :
    (x >>= next).map f = x >>= fun a => (next a).map f := by
  cases x <;> rfl

theorem map_check_pure (x : Except StoreError α) (f : α → β) (g : β → γ) :
    (x >>= fun a => (pure (f a) : Except StoreError β)).map g = x.map fun a => g (f a) := by
  cases x <;> rfl

/-! ## Accesses and logs -/

/-- The access is refused for the error given, or the log that it leaves is related to the log
before it with the entries behind. -/
def Extends (R : List κ → List κ → Prop) (log : σ → List κ) (act : Access σ α) :
    Except StoreError (List κ) → Prop
  | .error e => ∀ s, act s = (.error e, s)
  | .ok entries => ∀ s, R (log s ++ entries) (log (act s).2)

/-- The access is refused, or it adds the entries to the log and no others. -/
abbrev Makes (log : σ → List κ) (act : Access σ α) (calls : Except StoreError (List κ)) : Prop :=
  act.Extends Eq log calls

/-- The access is refused, or it adds the entries to the log before all others. -/
abbrev Starts (log : σ → List κ) (act : Access σ α) (calls : Except StoreError (List κ)) : Prop :=
  act.Extends List.IsPrefix log calls

variable {R : List κ → List κ → Prop} [IsPreorder (List κ) R] {log : σ → List κ}

/-- A check does not touch the log. -/
theorem Extends.lift (e : Except StoreError α) : Extends R log (liftM e : Access σ α) (.ok []) := by
  intro s
  rw [List.append_nil]
  exact refl (log s)

theorem Extends.pure (a : α) : Extends R log (pure a) (.ok []) :=
  Extends.lift (.ok a)

omit [IsPreorder (List κ) R] in
/-- A check in front of an access. -/
theorem Extends.lift_bind (e : Except StoreError β) {next : β → Access σ α}
    {calls : β → Except StoreError (List κ)} (h : ∀ b, (next b).Extends R log (calls b)) :
    Extends R log ((liftM e : Access σ β) >>= next) (e >>= calls) := by
  cases e with
  | error err => exact fun s => rfl
  | ok b => exact h b

omit [IsPreorder (List κ) R] in
/-- A check in front of an access that adds entries for what was checked. -/
theorem Extends.lift_bind_map (e : Except StoreError β) {next : β → Access σ α}
    {entries : β → List κ} (h : ∀ b, (next b).Extends R log (.ok (entries b))) :
    Extends R log ((liftM e : Access σ β) >>= next) (e.map entries) := by
  cases e with
  | error err => exact fun s => rfl
  | ok b => exact h b

/-- After an access that fails nothing is added, and what comes after one that answers needs no
entries of its own. -/
theorem Extends.bind {act : Access σ β} {next : β → Access σ α}
    {calls : Except StoreError (List κ)} (hact : act.Extends R log calls)
    (hnext : ∀ b, (next b).Extends R log (.ok [])) : Extends R log (act >>= next) calls := by
  cases calls with
  | error e =>
      intro s
      rw [bind_apply, hact s]
  | ok entries =>
      intro s
      have hfirst := hact s
      rw [bind_apply]
      cases h : act s with
      | mk answer s' =>
          rw [h] at hfirst
          cases answer with
          | error e => exact hfirst
          | ok b =>
              have hmore := hnext b s'
              rw [List.append_nil] at hmore
              exact IsTrans.trans _ _ _ hfirst hmore

theorem Makes.starts {act : Access σ α} {calls : Except StoreError (List κ)}
    (h : act.Makes log calls) : act.Starts log calls := by
  cases calls with
  | error e => exact h
  | ok entries => exact fun s => h s ▸ List.prefix_rfl

/-- An access that starts with some entries adds to the log. -/
theorem Starts.more {act : Access σ α} {calls : Except StoreError (List κ)}
    (h : act.Starts log calls) : act.Starts log (.ok []) := by
  intro s
  rw [List.append_nil]
  cases calls with
  | error e => rw [h s]
  | ok entries => exact (List.prefix_append _ _).trans (h s)

end Access

/-! ## Requests to backends -/

namespace Backend

/-- A request to a backend, with the members of an entity that is to be stored. -/
inductive Request where
  | insert (members : Members Json)
  | update (selection : Scoped) (members : Members Json)
  | delete (selection : Scoped)
  | first (selection : Scoped)
  | find (selection : Scoped) (window : Window)
  | count (selection : Scoped)
  deriving DecidableEq, Repr

/-- The selection that a request is about. -/
def Request.selection? : Request → Option Scoped
  | insert _ => none
  | update s _ | delete s | first s | find s _ | count s => some s

/-- A backend answers every request after it added the entries of the request to its log. An entity
whose JSON value is no object is refused before. -/
structure Logs [Entity α] (b : Backend σ α) (log : σ → List κ) (entries : Request → List κ) :
    Prop where
  insert : ∀ e, (b.insert e).Makes log ((Entity.members e).map fun ms => entries (.insert ms))
  update : ∀ s e, (b.update s e).Makes log ((Entity.members e).map fun ms => entries (.update s ms))
  delete : ∀ s, (b.delete s).Makes log (.ok (entries (.delete s)))
  first : ∀ s, (b.first s).Makes log (.ok (entries (.first s)))
  find : ∀ s w, (b.find s w).Makes log (.ok (entries (.find s w)))
  count : ∀ s, (b.count s).Makes log (.ok (entries (.count s)))

end Backend

/-! ## Checks -/

namespace Operation

/-- A tenant has to be named. -/
def checkTenant (tenant : String) : Except StoreError Unit :=
  (Tenant.ofName tenant).map fun _ => ()

/-- A page has to be one that can be had. -/
def checkPage (q : PageQuery) : Except StoreError Unit :=
  (q.checked.mapError PageError.toStoreError).map fun _ => ()

/-- A filter text has to be read as a tree. -/
def checkFilter (parser : FilterParser) (filter : String) : Except StoreError Unit :=
  ((Filter.compile parser .graph filter).mapError FilterError.toStoreError).map fun _ => ()

/-- A sort order has to be read. -/
def checkSort (sort : String) : Except StoreError Unit :=
  ((SortField.parseList sort).mapError SortError.toStoreError).map fun _ => ()

/-- The reply to an operation that fails. -/
def refused (op : Operation α) (e : StoreError) : Reply α :=
  match op with
  | insert _ | update _ | findById _ _ => .entity (.ofError e)
  | insertMany _ | updateMany _ | findByIds _ _ | findAll _ | findList _ _ =>
    .entities (.ofError e)
  | deleteById _ _ | deleteByIds _ _ | deleteAll _ | deleteByFilter _ _ => .count (.ofError e)
  | findPaging _ => .page (.ofError e)

theorem error?_refused (op : Operation α) (e : StoreError) : (op.refused e).error? = some e := by
  cases op <;> rfl

variable [Entity α]

/-- An entity that is to be stored has to name its tenant, and to be an object. -/
def checkEntity (e : α) : Except StoreError Unit := do
  checkTenant (Entity.tenantId e)
  (Entity.members e).map fun _ => ()

/-- The checks of an operation, in the order in which they are made. Of a batch, the first entity is
checked before anything is stored. -/
def check (parser : FilterParser) : Operation α → Except StoreError Unit
  | insert e | update e => checkEntity e
  | insertMany es | updateMany es => es.head?.forM checkEntity
  | deleteById tenant _ | deleteByIds tenant _ | deleteAll tenant => checkTenant tenant
  | findById tenant _ | findByIds tenant _ | findAll tenant => checkTenant tenant
  | deleteByFilter tenant filter | findList tenant filter => do
    checkTenant tenant
    checkFilter parser filter
  | findPaging q => do
    checkTenant q.tenant
    checkPage q
    checkFilter parser q.filter
    checkSort q.sort

end Operation

namespace Repository

/-! ## What selections are checked for -/

/-- Two steps are checked for what the first is checked for, and then for what the second is. -/
theorem map_bind_eq {x : Except StoreError β} {next : β → Except StoreError γ}
    {check rest : Except StoreError Unit} (hx : x.map (fun _ => ()) = check)
    (hnext : ∀ b, (next b).map (fun _ => ()) = rest) :
    (x >>= next).map (fun _ => ()) = check >>= fun _ => rest := by
  subst hx
  cases x with
  | error e => rfl
  | ok b => exact hnext b

section Selections

variable (r : Repository σ α)

theorem byId_check (tenant id : String) :
    (r.byId tenant id).map (fun _ => ()) = Operation.checkTenant tenant :=
  Access.map_check_pure _ _ _

theorem byIds_check (tenant : String) (ids : List String) :
    (r.byIds tenant ids).map (fun _ => ()) = Operation.checkTenant tenant :=
  Access.map_check_pure _ _ _

theorem byTenant_check (tenant : String) :
    (r.byTenant tenant).map (fun _ => ()) = Operation.checkTenant tenant :=
  Access.map_check_pure _ _ _

/-- Whether a filter text is read does not depend on the names of the backend. -/
theorem compile_check (tenant : Tenant) (filter : String) :
    (r.compile tenant filter).map (fun _ => ()) = Operation.checkFilter r.parser filter := by
  rw [compile, Access.map_check_pure, Operation.checkFilter, Filter.compile_eq_map]
  cases Filter.compile r.parser .graph filter <;> rfl

theorem byFilter_check (tenant filter : String) :
    (r.byFilter tenant filter).map (fun _ => ()) = (do
      Operation.checkTenant tenant
      Operation.checkFilter r.parser filter) :=
  map_bind_eq rfl fun t => r.compile_check t filter

theorem pageRequest_check (q : PageQuery) :
    (r.pageRequest q).map (fun _ => ()) = (do
      Operation.checkTenant q.tenant
      Operation.checkPage q
      Operation.checkFilter r.parser q.filter
      Operation.checkSort q.sort) := by
  refine map_bind_eq rfl fun t => map_bind_eq rfl fun skip => ?_
  refine map_bind_eq (r.compile_check t q.filter) fun selection => ?_
  exact (Access.map_check_pure _ _ _).trans (Access.map_check_pure _ _ _)

end Selections

/-! ## What operations ask for -/

/-- An access that replies with what it answers. -/
def replying (act : Access σ β) (reply : β → Reply α) : Access σ (Reply α) := do
  return reply (← act)

/-- An access that is settled with an outcome replies with the outcome. -/
theorem settle_eq_replying (act : Access σ β) (outcome : β → Outcome γ)
    (kind : Outcome γ → Reply α) (s : σ) :
    (kind (settle act outcome s).1, (settle act outcome s).2) =
      (match (replying act (fun b => kind (outcome b)) s).1 with
        | .ok reply => reply
        | .error e => kind (.ofError e), (replying act (fun b => kind (outcome b)) s).2) := by
  rw [settle_apply, replying, Access.bind_pure_apply]
  cases (act s).1 <;> rfl

variable [Entity α] (r : Repository σ α)

/-- The request to insert an entity. -/
def insertRequest (e : α) : Except StoreError Backend.Request := do
  let _ ← Tenant.ofName (Entity.tenantId e)
  return .insert (← Entity.members e)

/-- The request to update an entity. -/
def updateRequest (e : α) : Except StoreError Backend.Request := do
  let selection ← r.byId (Entity.tenantId e) (Entity.id e)
  return .update selection (← Entity.members e)

/-- What an operation asks the backend for first, if it is not refused. A batch without entities
asks for nothing. -/
def request : Operation α → Except StoreError (Option Backend.Request)
  | .insert e => return some (← insertRequest e)
  | .insertMany es => es.head?.mapM insertRequest
  | .update e => return some (← r.updateRequest e)
  | .updateMany es => es.head?.mapM r.updateRequest
  | .deleteById tenant id => return some (.delete (← r.byId tenant id))
  | .deleteByIds tenant ids => return some (.delete (← r.byIds tenant ids))
  | .deleteAll tenant => return some (.delete (← r.byTenant tenant))
  | .deleteByFilter tenant filter => return some (.delete (← r.byFilter tenant filter))
  | .findById tenant id => return some (.first (← r.byId tenant id))
  | .findByIds tenant ids => return some (.find (← r.byIds tenant ids) .all)
  | .findAll tenant => return some (.find (← r.byTenant tenant) .all)
  | .findList tenant filter => return some (.find (← r.byFilter tenant filter) .all)
  | .findPaging q => return some (.count (← r.pageRequest q).1)

/-- Deletes the entities of a selection. -/
def performDelete (selection : Except StoreError Scoped) : Access σ (Reply α) :=
  replying (do r.backend.delete (← selection)) fun n => .count (.ofCount n)

/-- Finds one entity of a selection. -/
def performFindOne (selection : Except StoreError Scoped) : Access σ (Reply α) :=
  replying (do r.backend.first (← selection)) fun found => .entity (.ofResult (.ok found))

/-- Finds the entities of a selection. -/
def performFindMany (selection : Except StoreError Scoped) : Access σ (Reply α) :=
  replying (do r.backend.find (← selection) .all) fun found => .entities (.ofList found)

/-- An operation as an access that answers with the reply, unless it fails. -/
def perform : Operation α → Access σ (Reply α)
  | .insert e => replying (r.tryInsert e) fun () => .entity (.matched e)
  | .insertMany es => replying (r.tryInsertMany es) fun () => .entities (.ofList es)
  | .update e =>
    replying (r.tryUpdate e) fun found => .entity (if found then .matched e else .missed none)
  | .updateMany es => replying (r.tryUpdateMany es) fun found => .entities (.ofList found)
  | .deleteById tenant id => r.performDelete (r.byId tenant id)
  | .deleteByIds tenant ids => r.performDelete (r.byIds tenant ids)
  | .deleteAll tenant => r.performDelete (r.byTenant tenant)
  | .deleteByFilter tenant filter => r.performDelete (r.byFilter tenant filter)
  | .findById tenant id => r.performFindOne (r.byId tenant id)
  | .findByIds tenant ids => r.performFindMany (r.byIds tenant ids)
  | .findAll tenant => r.performFindMany (r.byTenant tenant)
  | .findList tenant filter => r.performFindMany (r.byFilter tenant filter)
  | .findPaging q =>
    replying (r.tryFindPaging q) fun (rows, total) =>
      .page (.ofParts (some rows) total (some q) none)

/-- A repository answers an operation with the reply that it is performed with. -/
theorem run_eq_perform (op : Operation α) (s : σ) :
    r.run op s =
      (match (r.perform op s).1 with
        | .ok reply => reply
        | .error e => op.refused e, (r.perform op s).2) := by
  cases op with
  | findPaging q =>
      refine Eq.trans (b := (.page (r.findPaging q s).1, (r.findPaging q s).2)) rfl ?_
      rw [findPaging_apply, perform, replying, Access.bind_pure_apply]
      cases (r.tryFindPaging q s).1 <;> rfl
  | insert e | update e | findById tenant id => exact settle_eq_replying _ _ .entity s
  | insertMany es | updateMany es | findByIds tenant ids | findAll tenant
  | findList tenant filter => exact settle_eq_replying _ _ .entities s
  | deleteById tenant id | deleteByIds tenant ids | deleteAll tenant
  | deleteByFilter tenant filter => exact settle_eq_replying _ _ .count s

/-! ## What operations are checked for -/

theorem insertRequest_check (e : α) :
    (insertRequest e).map (fun _ => ()) = Operation.checkEntity e :=
  map_bind_eq rfl fun _ => Access.map_check_pure _ _ _

theorem updateRequest_check (e : α) :
    (r.updateRequest e).map (fun _ => ()) = Operation.checkEntity e :=
  map_bind_eq (r.byId_check _ _) fun _ => Access.map_check_pure _ _ _

/-- An operation is refused for the error of its first check that fails. -/
theorem request_check (op : Operation α) :
    (r.request op).map (fun _ => ()) = op.check r.parser := by
  cases op with
  | insert e => exact (Access.map_check_pure _ _ _).trans (insertRequest_check e)
  | update e => exact (Access.map_check_pure _ _ _).trans (r.updateRequest_check e)
  | insertMany es =>
      cases es with
      | nil => rfl
      | cons e es => exact (Access.map_check_pure _ _ _).trans (insertRequest_check e)
  | updateMany es =>
      cases es with
      | nil => rfl
      | cons e es => exact (Access.map_check_pure _ _ _).trans (r.updateRequest_check e)
  | deleteById tenant id | findById tenant id =>
      exact (Access.map_check_pure _ _ _).trans (r.byId_check tenant id)
  | deleteByIds tenant ids | findByIds tenant ids =>
      exact (Access.map_check_pure _ _ _).trans (r.byIds_check tenant ids)
  | deleteAll tenant | findAll tenant =>
      exact (Access.map_check_pure _ _ _).trans (r.byTenant_check tenant)
  | deleteByFilter tenant filter | findList tenant filter =>
      exact (Access.map_check_pure _ _ _).trans (r.byFilter_check tenant filter)
  | findPaging q => exact (Access.map_check_pure _ _ _).trans (r.pageRequest_check q)

theorem request_eq_error_iff {op : Operation α} {e : StoreError} :
    r.request op = .error e ↔ op.check r.parser = .error e := by
  rw [← r.request_check op]
  cases r.request op with
  | error err => simp only [Except.map, Except.error.injEq]
  | ok q => exact iff_of_false nofun nofun

/-- Only a batch without entities asks for nothing. -/
theorem run_of_request_eq_none {op : Operation α} (h : r.request op = .ok none) (s : σ) :
    r.run op s = (.entities (.ofList []), s) := by
  -- Every other operation ends its checks with a request.
  have hsome : ∀ {β : Type} {x : Except StoreError β} {f : β → Backend.Request},
      (x >>= fun b => pure (some (f b))) ≠ .ok none := by
    intro β x f hx
    obtain ⟨b, -, hb⟩ := exists_of_bind_eq_ok hx
    cases hb
  cases op with
  | insertMany es | updateMany es =>
      cases es with
      | nil => rfl
      | cons e es => exact absurd h hsome
  | insert e | update e => exact absurd h hsome
  | deleteById tenant id | findById tenant id => exact absurd h hsome
  | deleteByIds tenant ids | findByIds tenant ids => exact absurd h hsome
  | deleteAll tenant | findAll tenant => exact absurd h hsome
  | deleteByFilter tenant filter | findList tenant filter => exact absurd h hsome
  | findPaging q => exact absurd h hsome

/-! ## What a log shows -/

section Logs

variable {r : Repository σ α} {log : σ → List κ} {entries : Backend.Request → List κ}

omit [Entity α] in
theorem starts_replying {act : Access σ β} {calls : Except StoreError (List κ)}
    (h : act.Starts log calls) (reply : β → Reply α) : (replying act reply).Starts log calls :=
  h.bind fun b => Access.Extends.pure (reply b)

omit [Entity α] in
/-- The request that a check gives is there in any case. -/
theorem starts_some {act : Access σ β} {request : Except StoreError Backend.Request}
    (h : act.Starts log (request.map entries)) :
    act.Starts log ((request >>= fun q => pure (some q)).map fun q => q.elim [] entries) := by
  rw [Access.map_check_pure]
  exact h

variable (h : r.backend.Logs log entries)

include h

/-- An insert is refused, or it makes its request and no other. -/
theorem makes_tryInsert (e : α) :
    (r.tryInsert e).Makes log ((insertRequest e).map entries) := by
  rw [insertRequest, Access.map_check_bind]
  refine Access.Extends.lift_bind _ fun _ => ?_
  rw [Access.map_check_pure]
  exact h.insert e

/-- An update is refused, or it makes its request and no other. -/
theorem makes_tryUpdate (e : α) :
    (r.tryUpdate e).Makes log ((r.updateRequest e).map entries) := by
  rw [updateRequest, Access.map_check_bind]
  refine Access.Extends.lift_bind _ fun s => ?_
  rw [Access.map_check_pure]
  exact h.update s e

theorem starts_tryInsertMany (es : List α) :
    (r.tryInsertMany es).Starts log
      ((es.head?.mapM (insertRequest (α := α))).map fun q => q.elim [] entries) := by
  induction es with
  | nil => exact Access.Extends.pure ()
  | cons e es ih => exact (starts_some (makes_tryInsert h e).starts).bind fun _ => ih.more

theorem starts_tryUpdateMany (es : List α) :
    (r.tryUpdateMany es).Starts log
      ((es.head?.mapM r.updateRequest).map fun q => q.elim [] entries) := by
  induction es with
  | nil => exact Access.Extends.pure []
  | cons e es ih =>
      refine (starts_some (makes_tryUpdate h e).starts).bind fun found => ?_
      exact ih.more.bind fun rest => Access.Extends.pure _

omit h

/-- Once a check has given what is asked for, the access begins with it. -/
theorem starts_lift_bind (check : Except StoreError β) {next : β → Access σ γ}
    {q : β → Backend.Request} (hnext : ∀ b, (next b).Starts log (.ok (entries (q b)))) :
    ((liftM check : Access σ β) >>= next).Starts log
      ((check >>= fun b => (pure (some (q b)) : Except StoreError (Option Backend.Request))).map
        fun q => q.elim [] entries) := by
  rw [Access.map_check_pure]
  exact Access.Extends.lift_bind_map _ hnext

include h

theorem starts_tryFindPaging (q : PageQuery) :
    (r.tryFindPaging q).Starts log
      ((r.request (.findPaging q)).map fun q => q.elim [] entries) := by
  rw [tryFindPaging_eq]
  refine starts_lift_bind _ fun (selection, window) => ?_
  refine (h.count selection).starts.bind fun total => ?_
  exact (h.find selection window).starts.more.bind fun rows => Access.Extends.pure _

/-- An operation that is performed is refused, or begins with its request. -/
theorem starts_perform (op : Operation α) :
    (r.perform op).Starts log ((r.request op).map fun q => q.elim [] entries) := by
  cases op with
  | insert e => exact starts_replying (starts_some (makes_tryInsert h e).starts) _
  | insertMany es => exact starts_replying (starts_tryInsertMany h es) _
  | update e => exact starts_replying (starts_some (makes_tryUpdate h e).starts) _
  | updateMany es => exact starts_replying (starts_tryUpdateMany h es) _
  | deleteById tenant id | deleteByIds tenant ids | deleteAll tenant
  | deleteByFilter tenant filter =>
      exact starts_replying (starts_lift_bind _ fun s => (h.delete s).starts) _
  | findById tenant id =>
      exact starts_replying (starts_lift_bind _ fun s => (h.first s).starts) _
  | findByIds tenant ids | findAll tenant | findList tenant filter =>
      exact starts_replying (starts_lift_bind _ fun s => (h.find s .all).starts) _
  | findPaging q => exact starts_replying (starts_tryFindPaging h q) _

variable {op : Operation α} {s : σ}

/-- An operation that is refused fails and leaves no trace. -/
theorem run_of_request_eq_error {e : StoreError} (hrequest : r.request op = .error e) :
    r.run op s = (op.refused e, s) := by
  have hperform := starts_perform h op
  rw [hrequest] at hperform
  rw [run_eq_perform, hperform s]

/-- Any other operation begins with its request. -/
theorem isPrefix_log_run {q : Backend.Request} (hrequest : r.request op = .ok (some q)) :
    log s ++ entries q <+: log (r.run op s).2 := by
  have hperform := starts_perform h op
  rw [hrequest] at hperform
  rw [run_eq_perform]
  exact hperform s

/-- A page query asks for the rows of the page once they have been counted. -/
theorem log_run_findPaging {q : PageQuery} {selection : Scoped} {window : Window}
    (hpage : r.pageRequest q = .ok (selection, window)) {total : Nat}
    (hcount : (r.backend.count selection s).1 = .ok total) :
    log (r.run (.findPaging q) s).2 =
      log s ++ entries (.count selection) ++ entries (.find selection window) := by
  have hstate : (r.run (.findPaging q) s).2 = (r.tryFindPaging q s).2 :=
    congrArg Prod.snd (findPaging_apply r q s)
  rw [hstate, tryFindPaging_eq, hpage]
  show log ((r.backend.count selection >>= fun total =>
    r.backend.find selection window >>= fun rows =>
      pure (rows, min (total : Int) maxInteger)) s).2 = _
  rw [Access.bind_apply_of_ok hcount, Access.bind_pure_apply, ← h.find selection window,
    ← h.count selection]

omit h

/-- The operation fails before an entry is added to the log. -/
def Refuses (r : Repository σ α) (log : σ → List κ) (op : Operation α) (s : σ) : Prop :=
  (r.run op s).1.error?.isSome = true ∧ log (r.run op s).2 = log s

include h

/-- If every request adds to the log, it shows which operations fail a check. -/
theorem refuses_iff (hentries : ∀ q, entries q ≠ []) :
    r.Refuses log op s ↔ ∃ e, op.check r.parser = .error e := by
  constructor
  · rintro ⟨hfail, hlog⟩
    cases hrequest : r.request op with
    | error e => exact ⟨e, r.request_eq_error_iff.mp hrequest⟩
    | ok q =>
        cases q with
        | none =>
            rw [r.run_of_request_eq_none hrequest s] at hfail
            cases hfail
        | some q =>
            have hprefix := (isPrefix_log_run h (s := s) hrequest).length_le
            rw [hlog, List.length_append] at hprefix
            have hlength := List.length_pos_iff.mpr (hentries q)
            omega
  · rintro ⟨e, he⟩
    have hrun := run_of_request_eq_error h (s := s) (r.request_eq_error_iff.mpr he)
    rw [Refuses, hrun, op.error?_refused e]
    exact ⟨rfl, rfl⟩

end Logs

end Repository

end TenantStore
