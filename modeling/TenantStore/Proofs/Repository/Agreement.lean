import TenantStore.Entity.User
import TenantStore.Proofs.Document.Store
import TenantStore.Proofs.Graph.Statements

/-!
# Repositories on documents and on graphs

Repositories with one parser make the same requests whatever they stand on, but that each has the
names of its own backend (`Repository.request_eq_map`). So a repository on documents and one on
graphs refuse the same operations, and what they first ask for differs in the name of the identifier
alone (`Repository.agree_up_to_access`).
-/

namespace TenantStore

variable {σ τ α β γ : Type}

/-! ## Requests in other names -/

section Definitions

variable (f : String → String)

/-- The sort order of the field with the new name. -/
def SortField.mapFields (s : SortField) : SortField :=
  { s with field := f s.field }

/-- The window with new names for the fields that it is sorted by. -/
def Window.mapFields (w : Window) : Window :=
  { w with sort := w.sort.map (SortField.mapFields f) }

/-- The request with new names for all fields of selections and sort orders. -/
def Backend.Request.mapFields : Backend.Request → Backend.Request
  | insert members => insert members
  | update s members => update (s.mapFields f) members
  | delete s => delete (s.mapFields f)
  | first s => first (s.mapFields f)
  | find s w => find (s.mapFields f) (w.mapFields f)
  | count s => count (s.mapFields f)

theorem Backend.Request.selection?_mapFields (q : Backend.Request) :
    (q.mapFields f).selection? = q.selection?.map (Scoped.mapFields f) := by
  cases q <;> rfl

end Definitions

/-- The operation asks for selected entities first. -/
def Operation.filters : Operation α → Bool
  | insert _ | insertMany _ => false
  | updateMany es => !es.isEmpty
  | _ => true

namespace Repository

/-- What follows a check is mapped if the second step is. -/
theorem bind_eq_map_of_forall (x : Except StoreError β) {next next' : β → Except StoreError γ}
    {g : γ → γ} (hnext : ∀ b, next' b = (next b).map g) : x >>= next' = (x >>= next).map g := by
  cases x with
  | error e => rfl
  | ok b => exact hnext b

/-- If the first step is mapped, the second needs to map what the first gives. -/
theorem bind_eq_map {x x' : Except StoreError β} {next next' : β → Except StoreError γ}
    {f : β → β} {g : γ → γ} (hx : x' = x.map f) (hnext : ∀ b, next' (f b) = (next b).map g) :
    x' >>= next' = (x >>= next).map g := by
  subst hx
  cases x with
  | error e => rfl
  | ok b => exact hnext b

section Naming

variable {r : Repository σ α} {ref : Repository τ α} (hn : r.backend.naming.KeepsTenant)
  (href : ref.backend.naming = .graph)

section Selections

include hn href

theorem byId_eq_map (tenant id : String) :
    r.byId tenant id = (ref.byId tenant id).map (Scoped.mapFields r.backend.naming.native) := by
  rw [byId, byId, href]
  exact bind_eq_map_of_forall _ fun t => congrArg Except.ok (Scoped.ofId_eq_mapFields hn t id)

theorem byIds_eq_map (tenant : String) (ids : List String) :
    r.byIds tenant ids = (ref.byIds tenant ids).map (Scoped.mapFields r.backend.naming.native) := by
  rw [byIds, byIds, href]
  exact bind_eq_map_of_forall _ fun t => congrArg Except.ok (Scoped.ofIds_eq_mapFields hn t ids)

theorem byTenant_eq_map (tenant : String) :
    r.byTenant tenant = (ref.byTenant tenant).map (Scoped.mapFields r.backend.naming.native) := by
  rw [byTenant, byTenant, href]
  exact bind_eq_map_of_forall _ fun t => congrArg Except.ok (Scoped.ofTenant_eq_mapFields hn t)

variable (hparser : r.parser = ref.parser)

include hparser

theorem compile_eq_map (tenant : Tenant) (filter : String) :
    r.compile tenant filter =
      (ref.compile tenant filter).map (Scoped.mapFields r.backend.naming.native) := by
  rw [compile, compile, href, hparser, Filter.compile_eq_map]
  cases Filter.compile ref.parser .graph filter with
  | error e => rfl
  | ok tree => exact congrArg Except.ok (Scoped.ofTree_mapFields hn tree tenant)

theorem byFilter_eq_map (tenant filter : String) :
    r.byFilter tenant filter =
      (ref.byFilter tenant filter).map (Scoped.mapFields r.backend.naming.native) :=
  bind_eq_map_of_forall _ fun t => compile_eq_map hn href hparser t filter

end Selections

include href in
theorem sortFields_eq_map (sort : String) :
    r.sortFields sort =
      (ref.sortFields sort).map (List.map (SortField.mapFields r.backend.naming.native)) := by
  rw [sortFields, sortFields, href]
  refine bind_eq_map_of_forall _ fun fields => congrArg Except.ok ?_
  rw [List.map_map]
  refine List.map_congr_left fun f _ => ?_
  rw [Function.comp_apply, SortField.mapFields, Naming.native_graph]

variable (hparser : r.parser = ref.parser)

include hn href hparser

theorem pageRequest_eq_map (q : PageQuery) :
    r.pageRequest q = (ref.pageRequest q).map
      (Prod.map (Scoped.mapFields r.backend.naming.native)
        (Window.mapFields r.backend.naming.native)) := by
  rw [pageRequest, pageRequest]
  refine bind_eq_map_of_forall _ fun tenant => bind_eq_map_of_forall _ fun skip => ?_
  refine bind_eq_map (compile_eq_map hn href hparser tenant q.filter) fun selection => ?_
  exact bind_eq_map (sortFields_eq_map href q.sort) fun sort => rfl

variable [Entity α]

omit hn href hparser in
theorem insertRequest_eq_map (f : String → String) (e : α) :
    insertRequest e = (insertRequest e).map (Backend.Request.mapFields f) :=
  bind_eq_map_of_forall _ fun _ => bind_eq_map_of_forall _ fun _ => rfl

omit hparser in
theorem updateRequest_eq_map (e : α) :
    r.updateRequest e =
      (ref.updateRequest e).map (Backend.Request.mapFields r.backend.naming.native) :=
  bind_eq_map (byId_eq_map hn href _ _) fun _ => bind_eq_map_of_forall _ fun _ => rfl

/-- What a repository asks for first has the names of its backend, and is otherwise what a
repository with logical names asks for. -/
theorem request_eq_map (op : Operation α) :
    r.request op =
      (ref.request op).map (Option.map (Backend.Request.mapFields r.backend.naming.native)) := by
  cases op with
  | insert e => exact bind_eq_map (insertRequest_eq_map _ e) fun _ => rfl
  | insertMany es =>
      cases es with
      | nil => rfl
      | cons e es => exact bind_eq_map (insertRequest_eq_map _ e) fun _ => rfl
  | update e => exact bind_eq_map (updateRequest_eq_map hn href e) fun _ => rfl
  | updateMany es =>
      cases es with
      | nil => rfl
      | cons e es => exact bind_eq_map (updateRequest_eq_map hn href e) fun _ => rfl
  | deleteById tenant id | findById tenant id =>
      exact bind_eq_map (byId_eq_map hn href tenant id) fun _ => rfl
  | deleteByIds tenant ids | findByIds tenant ids =>
      exact bind_eq_map (byIds_eq_map hn href tenant ids) fun _ => rfl
  | deleteAll tenant | findAll tenant =>
      exact bind_eq_map (byTenant_eq_map hn href tenant) fun _ => rfl
  | deleteByFilter tenant filter | findList tenant filter =>
      exact bind_eq_map (byFilter_eq_map hn href hparser tenant filter) fun _ => rfl
  | findPaging q => exact bind_eq_map (pageRequest_eq_map hn href hparser q) fun _ => rfl

end Naming

variable [Entity α]

theorem selection?_of_insertRequest {e : α} {q : Backend.Request} (h : insertRequest e = .ok q) :
    q.selection? = none := by
  obtain ⟨tenant, -, hnext⟩ := exists_of_bind_eq_ok h
  obtain ⟨members, -, hq⟩ := exists_of_bind_eq_ok hnext
  cases hq
  rfl

theorem isSome_selection?_of_updateRequest {r : Repository σ α} {e : α} {q : Backend.Request}
    (h : r.updateRequest e = .ok q) : q.selection?.isSome = true := by
  obtain ⟨s, -, hnext⟩ := exists_of_bind_eq_ok h
  obtain ⟨members, -, hq⟩ := exists_of_bind_eq_ok hnext
  cases hq
  rfl

omit [Entity α] in
/-- What is known of all requests that are made of checked values is known of the request. -/
theorem isSome_selection?_of_bind {x : Except StoreError β} {f : β → Backend.Request}
    {selects : Bool} (hf : ∀ b, x = .ok b → (f b).selection?.isSome = selects)
    {q : Option Backend.Request} (h : (x >>= fun b => pure (some (f b))) = .ok q) :
    (q.bind Backend.Request.selection?).isSome = selects := by
  obtain ⟨b, hb, hq⟩ := exists_of_bind_eq_ok h
  cases hq
  exact hf b hb

/-- A request has a selection exactly if the operation is on selected entities. -/
theorem isSome_selection?_of_request {r : Repository σ α} {op : Operation α}
    {q : Option Backend.Request} (h : r.request op = .ok q) :
    (q.bind Backend.Request.selection?).isSome = op.filters := by
  have hinsert : ∀ e : α, ∀ q, insertRequest e = .ok q → q.selection?.isSome = false :=
    fun _ _ hq => congrArg Option.isSome (selection?_of_insertRequest hq)
  have hupdate : ∀ e : α, ∀ q, r.updateRequest e = .ok q → q.selection?.isSome = true :=
    fun _ _ => isSome_selection?_of_updateRequest
  cases op with
  | insert e => exact isSome_selection?_of_bind (hinsert e) h
  | update e => exact isSome_selection?_of_bind (hupdate e) h
  | insertMany es =>
      cases es with
      | nil =>
          cases h
          rfl
      | cons e es => exact isSome_selection?_of_bind (hinsert e) h
  | updateMany es =>
      cases es with
      | nil =>
          cases h
          rfl
      | cons e es => exact isSome_selection?_of_bind (hupdate e) h
  | deleteById tenant id | deleteByIds tenant ids | deleteAll tenant
  | deleteByFilter tenant filter | findById tenant id | findByIds tenant ids | findAll tenant
  | findList tenant filter | findPaging q =>
      refine isSome_selection?_of_bind ?_ h
      exact fun _ _ => rfl

/-- An operation on selected entities that passes its checks has a request with a selection. -/
theorem exists_request {r : Repository σ α} {op : Operation α}
    (hcheck : ¬ ∃ e, op.check r.parser = .error e) (hfilters : op.filters = true) :
    ∃ q s, r.request op = .ok (some q) ∧ q.selection? = some s := by
  cases hrequest : r.request op with
  | error e => exact absurd ⟨e, r.request_eq_error_iff.mp hrequest⟩ hcheck
  | ok q =>
      have hselection := isSome_selection?_of_request hrequest
      rw [hfilters] at hselection
      obtain ⟨s, hs⟩ := Option.isSome_iff_exists.mp hselection
      obtain ⟨q, rfl, hq⟩ := Option.bind_eq_some_iff.mp hs
      exact ⟨q, s, rfl, hq⟩

/-- A page query that passes its checks has a selection and a window. -/
theorem exists_pageRequest {r : Repository σ α} {q : PageQuery}
    (hcheck : ¬ ∃ e, (Operation.findPaging q : Operation α).check r.parser = .error e) :
    ∃ s w, r.pageRequest q = .ok (s, w) := by
  cases hpage : r.pageRequest q with
  | error e =>
      have hrequest : r.request (.findPaging q) = .error e := by
        rw [request, hpage]
        rfl
      exact absurd ⟨e, r.request_eq_error_iff.mp hrequest⟩ hcheck
  | ok page => exact ⟨page.1, page.2, rfl⟩

/-- A repository on documents and one on graphs agree up to the first access to what they stand on.
One of them refuses an operation if and only if the other one does, both for the first of the same
checks that fails, and then the collection with the queries it keeps and the session with its
statements stay as they are. For every other operation on selected entities, the selection behind
the first query and the one behind the first statement differ in the name of the identifier only,
and so do the windows of a page, which is asked for once its rows have been counted. -/
theorem agree_up_to_access [SearchEngine] (parser : FilterParser) (label : String)
    (op : Operation α) (c : Collection) (t : Session) :
    let documents : Repository Collection α := ⟨parser, Document.backend .document⟩
    let watched : Repository (Collection × List Document.Call) α :=
      ⟨parser, Collection.store.watched.backend .document⟩
    let graph : Repository Session α := ⟨parser, Graph.backend label⟩
    let native := Naming.document.native
    ((watched.run op (c, [])).1 = (documents.run op c).1 ∧
      (watched.run op (c, [])).2.1 = (documents.run op c).2) ∧
    (watched.Refuses Prod.snd op (c, []) ↔ graph.Refuses Session.statements op t) ∧
    (graph.Refuses Session.statements op t →
      ∃ e, op.check parser = .error e ∧
        documents.run op c = (op.refused e, c) ∧ graph.run op t = (op.refused e, t)) ∧
    (¬ graph.Refuses Session.statements op t → op.filters = true →
      ∃ q s, q.selection? = some s ∧
        graph.request op = .ok (some q) ∧ documents.request op = .ok (some (q.mapFields native)) ∧
        t.statements ++ [Graph.statement label q] <+: (graph.run op t).2.statements ∧
        [.ofRequest "_id" (q.mapFields native)] <+: (watched.run op (c, [])).2.2 ∧
        c.received ++ [(s.mapFields native).query] <+: (documents.run op c).2.received) ∧
    (∀ q, op = .findPaging q → ¬ graph.Refuses Session.statements op t →
      ∃ s w, graph.pageRequest q = .ok (s, w) ∧
        documents.pageRequest q = .ok (s.mapFields native, w.mapFields native) ∧
        (c.failure = none → (watched.run op (c, [])).2.2 =
          [.count (s.mapFields native).query,
            .find (s.mapFields native).query (w.mapFields native)]) ∧
        ((∀ message, t.replies.head? ≠ some (.failure message)) →
          (graph.run op t).2.statements = t.statements ++
            [(.count label s, .read), (.find label s w.sort w.skip w.limit, .read)])) := by
  intro documents watched graph native
  have hdocuments : documents.backend.Logs Collection.received _ :=
    Collection.logs_store.backend .document
  have hwatched : watched.backend.Logs Prod.snd _ :=
    (Document.Store.logs_watched Collection.store).backend .document
  have hgraph : graph.backend.Logs Session.statements _ := Graph.logs_backend label
  have hnames : Naming.document.KeepsTenant := Naming.keepsTenant_document
  have hlogical : graph.backend.naming = .graph := rfl
  have hrefuses : graph.Refuses Session.statements op t ↔ ∃ e, op.check parser = .error e :=
    refuses_iff hgraph fun q => List.cons_ne_nil _ _
  refine ⟨Document.Store.run_watched parser Collection.store .document op c [], ?_, ?_, ?_, ?_⟩
  · rw [hrefuses]
    exact refuses_iff hwatched fun q => List.cons_ne_nil _ _
  · intro hrefused
    obtain ⟨e, he⟩ := hrefuses.mp hrefused
    exact ⟨e, he, run_of_request_eq_error hdocuments (documents.request_eq_error_iff.mpr he),
      run_of_request_eq_error hgraph (graph.request_eq_error_iff.mpr he)⟩
  · rw [hrefuses]
    intro hcheck hfilters
    obtain ⟨q, s, hrequest, hs⟩ := exists_request (r := graph) hcheck hfilters
    have hmap := request_eq_map (r := documents) hnames hlogical rfl op
    have hcall := request_eq_map (r := watched) hnames hlogical rfl op
    rw [hrequest] at hmap hcall
    have hquery := isPrefix_log_run hdocuments (s := c) hmap
    rw [Document.Call.query?_ofRequest, Backend.Request.selection?_mapFields, hs] at hquery
    exact ⟨q, s, hs, hrequest, hmap, isPrefix_log_run hgraph hrequest,
      isPrefix_log_run hwatched (s := (c, [])) hcall, hquery⟩
  · rintro q rfl
    rw [hrefuses]
    intro hcheck
    obtain ⟨s, w, hpage⟩ := exists_pageRequest (r := graph) hcheck
    have hmap := pageRequest_eq_map (r := documents) hnames hlogical rfl q
    rw [hpage] at hmap
    refine ⟨s, w, hpage, hmap, fun hfailure => ?_, fun hreplies => ?_⟩
    · obtain ⟨n, hn⟩ := Collection.exists_count_eq_ok hfailure (s.mapFields native).query
      exact log_run_findPaging (s := (c, [])) hwatched hmap hn
    · obtain ⟨n, hn⟩ := Graph.exists_count_eq_ok (α := α) hreplies label s
      exact (log_run_findPaging hgraph hpage hn).trans (List.append_assoc _ _ _)

/-- A page of users by their identifier is asked for alike. -/
theorem agree_up_to_access_findPaging_users :
    let parser : FilterParser :=
      .ofTable [("id eq u1", [.comparison "id" .eq (.scalar (.string "u1"))])]
    let q : PageQuery := ⟨"acme", "id eq u1", "-id", 1, 2⟩
    let watched : Repository (Collection × List Document.Call) User :=
      ⟨parser, Collection.store.watched.backend .document⟩
    let graph : Repository Session User := ⟨parser, Graph.backend "User"⟩
    let query : Document := [("_id", .string "u1"), ("tenantId", .string "acme")]
    ¬ graph.Refuses Session.statements (.findPaging q) (.ofReplies []) ∧
      graph.pageRequest q =
        .ok (⟨.terms [⟨"id", .eq (.string "u1")⟩, ⟨"tenantId", .eq (.string "acme")⟩]⟩,
          ⟨2, some 2, [⟨"id", .descending⟩]⟩) ∧
      (watched.run (.findPaging q) (.empty "_id", [])).2.2 =
        [.count query, .find query ⟨2, some 2, [⟨"_id", .descending⟩]⟩] := by
  intro parser q watched graph query
  have hnot : ¬ graph.Refuses Session.statements (.findPaging q) (.ofReplies []) :=
    fun h => absurd h.1 (by decide +kernel)
  have hpage : graph.pageRequest q =
      .ok (⟨.terms [⟨"id", .eq (.string "u1")⟩, ⟨"tenantId", .eq (.string "acme")⟩]⟩,
        ⟨2, some 2, [⟨"id", .descending⟩]⟩) :=
    eq_ok_of_toOption (by decide +kernel)
  obtain ⟨s, w, hsame, -, hcalls, -⟩ :=
    (agree_up_to_access parser "User" (.findPaging q) (.empty "_id") (.ofReplies [])).2.2.2.2 q rfl
      hnot
  obtain ⟨rfl, rfl⟩ := Prod.mk.inj (Except.ok.inj (hpage.symm.trans hsame))
  exact ⟨hnot, hpage, hcalls rfl⟩

end Repository

end TenantStore
