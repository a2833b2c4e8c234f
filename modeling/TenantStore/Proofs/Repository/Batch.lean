import TenantStore.Entity.User
import TenantStore.Proofs.Document.Store
import TenantStore.Proofs.Graph.Statements

/-!
# Batches

A batch of writes is the single writes one after the other, up to the first that fails
(`Repository.InTurn`). That one ends the batch with its error: what was written before it stays, and
nothing is asked of the backend for the entities behind it. The log of the backend has one call for
every entity up to there, but none for an entity that was refused before the backend was asked
(`Repository.Records.log_inTurn`).
-/

namespace TenantStore

variable {σ κ α β : Type}

namespace Repository

/-! ## Single writes in turn -/

section InTurn

variable (single : α → StateM σ (Outcome α))

/-- No write fails when they are made in turn, from the first state to the second. The last list has
the entities that were found. -/
inductive Passes : σ → List α → List α → σ → Prop
  | nil (s : σ) : Passes s [] [] s
  | found {e : α} {es found : List α} {s s₁ s₂ : σ} :
      single e s = (.matched e, s₁) → Passes s₁ es found s₂ → Passes s (e :: es) (e :: found) s₂
  | missed {e : α} {es found : List α} {s s₁ s₂ : σ} :
      single e s = (.missed none, s₁) → Passes s₁ es found s₂ → Passes s (e :: es) found s₂

/-- What single writes in turn come to: the outcome and the state, the entities that pass, those of
them that are found, and the entity that fails. -/
inductive InTurn :
    σ → List α → Outcome (List α) × σ → List α → List α → Option α → Prop
  | all {s s₁ : σ} {es found : List α} :
      Passes single s es found s₁ → InTurn s es (.ofList found, s₁) es found none
  | stopped {s s₁ s₂ : σ} {passed found rest : List α} {e : α} {err : StoreError} :
      Passes single s passed found s₁ → single e s₁ = (.failed none err, s₂) →
        InTurn s (passed ++ e :: rest) (.failed none err, s₂) passed found (some e)

end InTurn

/-- What a batch does: it writes its entities up to the first that fails, and gives those that were
there. -/
def collect (act : α → Access σ Bool) : List α → Access σ (List α)
  | [] => return []
  | e :: es => do
    let found ← act e
    let rest ← collect act es
    return if found then e :: rest else rest

/-- The single write of a batch. -/
def writeOne (act : α → Access σ Bool) (e : α) : StateM σ (Outcome α) :=
  settle (act e) fun found => if found then .matched e else .missed none

section Collect

variable {act : α → Access σ Bool}

theorem collect_cons_apply (e : α) (es : List α) (s : σ) :
    collect act (e :: es) s =
      match act e s with
      | (.ok found, s₁) =>
        ((collect act es s₁).1.map fun rest => if found then e :: rest else rest,
          (collect act es s₁).2)
      | (.error err, s₁) => (.error err, s₁) := by
  rw [collect, Access.bind_apply]
  cases act e s with
  | mk answer s₁ =>
      cases answer with
      | ok found => exact Access.bind_pure_apply _ _ _
      | error err => rfl

theorem writeOne_of_ok {e : α} {s s₁ : σ} {found : Bool} (h : act e s = (.ok found, s₁)) :
    writeOne act e s = (if found then .matched e else .missed none, s₁) := by
  rw [writeOne, settle_apply, h]

theorem writeOne_of_error {e : α} {s s₁ : σ} {err : StoreError} (h : act e s = (.error err, s₁)) :
    writeOne act e s = (.failed none err, s₁) := by
  rw [writeOne, settle_apply, h]
  rfl

theorem Passes.cons {e : α} {es found : List α} {b : Bool} {s s₁ s₂ : σ}
    (hrest : Passes (writeOne act) s₁ es found s₂) (hfirst : act e s = (.ok b, s₁)) :
    Passes (writeOne act) s (e :: es) (if b then e :: found else found) s₂ := by
  have hone := writeOne_of_ok hfirst
  cases b with
  | true => exact .found hone hrest
  | false => exact .missed hone hrest

variable (act)

/-- All entities are written, or one of them fails after those in front of it are written. -/
theorem collect_spec (es : List α) (s : σ) :
    (∃ found s₁, Passes (writeOne act) s es found s₁ ∧ collect act es s = (.ok found, s₁)) ∨
      ∃ passed e rest found s₁ err s₂, es = passed ++ e :: rest ∧
        Passes (writeOne act) s passed found s₁ ∧ writeOne act e s₁ = (.failed none err, s₂) ∧
        collect act es s = (.error err, s₂) := by
  induction es generalizing s with
  | nil => exact .inl ⟨[], s, .nil s, rfl⟩
  | cons e es ih =>
      rw [collect_cons_apply]
      cases hact : act e s with
      | mk answer s₁ =>
          cases answer with
          | error err =>
              exact .inr ⟨[], e, es, [], s, err, s₁, rfl, .nil s, writeOne_of_error hact, rfl⟩
          | ok b =>
              rcases ih s₁ with ⟨found, s₂, hpasses, hcollect⟩ |
                ⟨passed, e', rest, found, s₂, err, s₃, rfl, hpasses, hfails, hcollect⟩
              · refine .inl ⟨_, s₂, hpasses.cons hact, ?_⟩
                simp only [hcollect, Except.map]
              · refine .inr ⟨e :: passed, e', rest, _, s₂, err, s₃, rfl, hpasses.cons hact,
                  hfails, ?_⟩
                simp only [hcollect, Except.map]

/-- Collecting is writing in turn. -/
theorem inTurn_collect (es : List α) (s : σ) :
    ∃ passed found failing,
      InTurn (writeOne act) s es (settle (collect act es) .ofList s) passed found failing := by
  rw [settle_apply]
  rcases collect_spec act es s with ⟨found, s₁, hpasses, hcollect⟩ |
    ⟨passed, e, rest, found, s₁, err, s₂, rfl, hpasses, hfails, hcollect⟩
  · rw [hcollect]
    exact ⟨es, found, none, .all hpasses⟩
  · rw [hcollect]
    exact ⟨passed, found, some e, .stopped hpasses hfails⟩

end Collect

/-! ## What writes in turn leave in a log -/

section Log

variable {single : α → StateM σ (Outcome α)} {log : σ → List κ} {item : α → Except StoreError κ}

/-- If every write that passes adds an item, writes that pass in turn add theirs. -/
theorem Passes.log_eq
    (hitem : ∀ e o s s₁, single e s = (o, s₁) → o.error? = none →
      ∃ k, item e = .ok k ∧ log s₁ = log s ++ [k])
    {es found : List α} {s s₁ : σ} (h : Passes single s es found s₁) :
    ∃ ks, es.mapM item = .ok ks ∧ log s₁ = log s ++ ks := by
  induction h with
  | nil s => exact ⟨[], rfl, (List.append_nil _).symm⟩
  | @found e es found s s₁ s₂ hone hrest ih | @missed e es found s s₁ s₂ hone hrest ih =>
      obtain ⟨k, hk, hfirst⟩ := hitem _ _ _ _ hone rfl
      obtain ⟨ks, hks, hlog⟩ := ih
      refine ⟨k :: ks, mapM_eq_ok_iff.mpr (.cons hk (mapM_eq_ok_iff.mp hks)), ?_⟩
      rw [hlog, hfirst, List.append_assoc]
      rfl

/-- A write adds its item to the log, unless it is refused. -/
structure Records (single : α → StateM σ (Outcome α)) (log : σ → List κ)
    (item : α → Except StoreError κ) : Prop where
  refused : ∀ {e err}, item e = .error err → ∀ s, single e s = (.failed none err, s)
  made : ∀ {e k}, item e = .ok k → ∀ s, log (single e s).2 = log s ++ [k]

/-- What is written by an access that makes one call is recorded by the call. -/
theorem records_writeOne {act : α → Access σ Bool}
    (h : ∀ e, (act e).Makes log ((item e).map fun k => [k])) : Records (writeOne act) log item where
  refused {e err} hitem s := by
    have hact := h e
    rw [hitem] at hact
    exact writeOne_of_error (hact s)
  made {e k} hitem s := by
    have hact := h e
    rw [hitem] at hact
    rw [writeOne, settle_apply]
    exact (hact s).symm

variable (h : Records single log item)

include h

/-- A write that passes has added its item. -/
theorem Records.of_passes (e : α) (o : Outcome α) (s s₁ : σ) (hone : single e s = (o, s₁))
    (ho : o.error? = none) : ∃ k, item e = .ok k ∧ log s₁ = log s ++ [k] := by
  cases hitem : item e with
  | ok k =>
      have hlog := h.made hitem s
      rw [hone] at hlog
      exact ⟨k, rfl, hlog⟩
  | error err =>
      rw [h.refused hitem s] at hone
      cases hone
      cases ho

/-- Writes in turn have added an item for each entity that passed, and one for the entity that
failed unless it was refused. -/
theorem Records.log_inTurn {es passed found : List α} {failing : Option α} {s : σ}
    {result : Outcome (List α) × σ} (hturn : InTurn single s es result passed found failing) :
    ∃ ks, passed.mapM item = .ok ks ∧
      log result.2 = log s ++ ks ++ (failing.bind fun e => (item e).toOption).toList := by
  cases hturn with
  | all hpasses =>
      obtain ⟨ks, hks, hlog⟩ := hpasses.log_eq h.of_passes
      exact ⟨ks, hks, hlog.trans (List.append_nil _).symm⟩
  | @stopped s₁ _ _ _ _ e _ hpasses hfails =>
      obtain ⟨ks, hks, hlog⟩ := hpasses.log_eq h.of_passes
      refine ⟨ks, hks, ?_⟩
      rw [Option.bind_some, ← hlog]
      cases hitem : item e with
      | ok k =>
          have hlast := h.made hitem s₁
          rw [hfails] at hlast
          exact hlast
      | error err =>
          rw [h.refused hitem s₁] at hfails
          cases hfails
          exact (List.append_nil _).symm

end Log

/-! ## The batches of a repository -/

section Repository

variable [Entity α] (r : Repository σ α)

/-- Inserts an entity, which is there then. -/
def inserting (e : α) : Access σ Bool := do
  r.tryInsert e
  return true

theorem insert_eq : r.insert = writeOne r.inserting := by
  funext e s
  rw [insert, writeOne, settle_apply, settle_apply, inserting, Access.bind_pure_apply]
  cases (r.tryInsert e s).1 <;> rfl

/-- A batch of inserts collects its entities. -/
theorem collect_inserting (es : List α) (s : σ) :
    collect r.inserting es s =
      ((r.tryInsertMany es s).1.map fun _ => es, (r.tryInsertMany es s).2) := by
  induction es generalizing s with
  | nil => rfl
  | cons e es ih =>
      rw [collect_cons_apply, inserting, Access.bind_pure_apply, tryInsertMany, Access.bind_apply]
      cases r.tryInsert e s with
      | mk answer s₁ =>
          cases answer with
          | error err => rfl
          | ok _ =>
              simp only [Except.map, ih]
              cases (r.tryInsertMany es s₁).1 <;> rfl

theorem insertMany_eq (es : List α) (s : σ) :
    r.insertMany es s = settle (collect r.inserting es) .ofList s := by
  rw [insertMany, settle_apply, settle_apply, collect_inserting]
  cases (r.tryInsertMany es s).1 <;> rfl

theorem tryUpdateMany_eq (es : List α) : r.tryUpdateMany es = collect r.tryUpdate es := by
  induction es with
  | nil => rfl
  | cons e es ih => rw [tryUpdateMany, collect, ih]

/-- What is inserted is there. -/
theorem found_eq_of_passes_insert {es found : List α} {s s₁ : σ}
    (h : Passes r.insert s es found s₁) : found = es := by
  induction h with
  | nil s => rfl
  | found hone hrest ih => rw [ih]
  | missed hone hrest ih =>
      rw [insert, settle_apply] at hone
      split at hone <;> cases hone

omit [Entity α] in
theorem InTurn.found_eq {single : α → StateM σ (Outcome α)}
    (hsame : ∀ es found s s₁, Passes single s es found s₁ → found = es) {es passed found : List α}
    {failing : Option α} {s : σ} {result : Outcome (List α) × σ}
    (h : InTurn single s es result passed found failing) : found = passed := by
  cases h with
  | all hpasses => exact hsame _ _ _ _ hpasses
  | stopped hpasses hfails => exact hsame _ _ _ _ hpasses

theorem inTurn_insertMany (es : List α) (s : σ) :
    ∃ passed failing, InTurn r.insert s es (r.insertMany es s) passed passed failing := by
  obtain ⟨passed, found, failing, hturn⟩ := inTurn_collect r.inserting es s
  rw [← insert_eq, ← insertMany_eq] at hturn
  have hfound : found = passed := hturn.found_eq fun _ _ _ _ => r.found_eq_of_passes_insert
  exact ⟨passed, failing, hfound ▸ hturn⟩

theorem inTurn_updateMany (es : List α) (s : σ) :
    ∃ passed found failing, InTurn r.update s es (r.updateMany es s) passed found failing := by
  obtain ⟨passed, found, failing, hturn⟩ := inTurn_collect r.tryUpdate es s
  rw [← tryUpdateMany_eq] at hturn
  exact ⟨passed, found, failing, hturn⟩

omit [Entity α] in
theorem map_map_singleton (x : Except StoreError β) (call : β → κ) :
    (x.map call).map (fun k => [k]) = x.map fun b => [call b] := by
  cases x <;> rfl

variable {r} {log : σ → List κ} {call : Backend.Request → κ}
  (h : r.backend.Logs log fun q => [call q])

include h

theorem records_insert : Records r.insert log fun e => (insertRequest e).map call := by
  rw [insert_eq]
  refine records_writeOne fun e => ?_
  rw [map_map_singleton]
  exact (makes_tryInsert h e).bind fun _ => Access.Extends.pure true

theorem records_update : Records r.update log fun e => (r.updateRequest e).map call := by
  refine records_writeOne fun e => ?_
  rw [map_map_singleton]
  exact makes_tryUpdate h e

end Repository

end Repository

/-! ## Documents that are inserted in turn -/

namespace Document

/-- What is inserted stands behind all documents, unless the store fails. -/
def Store.Appends (store : Store σ) (documents : σ → List Document) : Prop :=
  ∀ new s, documents (store.insertOne new s).2 =
    match (store.insertOne new s).1 with
    | .ok () => documents s ++ [new]
    | .error _ => documents s

theorem appends_collection [SearchEngine] : Collection.store.Appends Collection.documents := by
  intro new c
  show (Collection.insertOne new c).2.documents = match (Collection.insertOne new c).1 with
    | .ok () => c.documents ++ [new]
    | .error _ => c.documents
  unfold Collection.insertOne Collection.guarded
  cases c.failure with
  | some message => rfl
  | none =>
      by_cases hkey : c.hasKeyOf new = true
      · simp only [if_pos hkey]
      · simp only [if_neg hkey]

section Appends

variable {store : Store σ} {documents : σ → List Document} (h : store.Appends documents)

include h in
theorem Store.Appends.watched : store.watched.Appends fun s => documents s.1 :=
  fun new s => h new s.1

variable [Entity α] {parser : FilterParser} {naming : Naming}

/-- The document of an entity is made before the store is asked to insert it. -/
theorem tryInsert_apply (store : Store σ) (e : α) (s : σ) :
    (⟨parser, store.backend naming⟩ : Repository σ α).tryInsert e s =
      match Tenant.ofName (Entity.tenantId e) >>= fun _ => ofEntity naming.key e with
      | .ok d => store.insertOne d s
      | .error err => (.error err, s) := by
  rw [Repository.tryInsert]
  cases Tenant.ofName (Entity.tenantId e) with
  | error err => rfl
  | ok tenant =>
      show ((liftM (ofEntity naming.key e) : Access σ Document) >>= store.insertOne) s = _
      rw [Access.bind_apply]
      show _ = match ofEntity naming.key e with
        | .ok d => store.insertOne d s
        | .error err => (.error err, s)
      cases ofEntity naming.key e <;> rfl

include h

/-- An insert that fails leaves the documents, and any other one adds that of its entity. -/
theorem Store.Appends.insert (parser : FilterParser) (naming : Naming) (e : α) (s : σ) :
    let r : Repository σ α := ⟨parser, store.backend naming⟩
    (∃ d, ofEntity naming.key e = .ok d ∧ (r.insert e s).1 = .matched e ∧
        documents (r.insert e s).2 = documents s ++ [d]) ∨
      ∃ err, (r.insert e s).1 = .failed none err ∧ documents (r.insert e s).2 = documents s := by
  intro r
  rw [Repository.insert, Repository.settle_apply, tryInsert_apply]
  cases hdocument : Tenant.ofName (Entity.tenantId e) >>= fun _ => ofEntity naming.key e with
  | error err => exact .inr ⟨err, rfl, rfl⟩
  | ok d =>
      obtain ⟨-, -, hd⟩ := exists_of_bind_eq_ok hdocument
      have hstore := h d s
      cases hanswer : (store.insertOne d s).1 with
      | ok _ =>
          rw [hanswer] at hstore
          exact .inl ⟨d, hd, rfl, hstore⟩
      | error err =>
          rw [hanswer] at hstore
          exact .inr ⟨err, rfl, hstore⟩

/-- Inserts in turn add the documents of the entities that pass. -/
theorem Store.Appends.inTurn {es passed found : List α} {failing : Option α} {s : σ}
    {result : Outcome (List α) × σ}
    (hturn : Repository.InTurn (⟨parser, store.backend naming⟩ : Repository σ α).insert s es result
      passed found failing) :
    ∃ ds, passed.mapM (ofEntity naming.key) = .ok ds ∧
      documents result.2 = documents s ++ ds := by
  have hone : ∀ (e : α) (o : Outcome α) (s s₁ : σ),
      (⟨parser, store.backend naming⟩ : Repository σ α).insert e s = (o, s₁) → o.error? = none →
        ∃ d, ofEntity naming.key e = .ok d ∧ documents s₁ = documents s ++ [d] := by
    intro e o s s₁ hinsert ho
    rcases h.insert parser naming e s with ⟨d, hd, -, hadded⟩ | ⟨err, hfails, -⟩
    · rw [hinsert] at hadded
      exact ⟨d, hd, hadded⟩
    · rw [hinsert] at hfails
      cases hfails
      cases ho
  cases hturn with
  | all hpasses => exact hpasses.log_eq hone
  | @stopped s₁ _ _ _ _ e _ hpasses hfails =>
      obtain ⟨ds, hds, hadded⟩ := hpasses.log_eq hone
      refine ⟨ds, hds, ?_⟩
      rw [← hadded]
      rcases h.insert parser naming e s₁ with ⟨d, -, hfound, -⟩ | ⟨err, -, hleft⟩
      · rw [hfails] at hfound
        cases hfound
      · rw [hfails] at hleft
        exact hleft

end Appends

end Document

/-! ## Batches of both repositories -/

namespace Repository

/-- A batch comes to the single writes in turn. The log has the call of every entity that passed,
and that of the entity that failed unless it was refused before the backend was asked. -/
def WritesInTurn (single : α → StateM σ (Outcome α)) (call : α → Except StoreError κ)
    (log : σ → List κ) (s : σ) (es : List α) (result : Outcome (List α) × σ)
    (passed found : List α) : Prop :=
  ∃ failing calls, InTurn single s es result passed found failing ∧
    passed.mapM call = .ok calls ∧
    log result.2 = log s ++ calls ++ (failing.bind fun e => (call e).toOption).toList

variable [Entity α]

section Logs

variable {r : Repository σ α} {log : σ → List κ} {call : Backend.Request → κ}
  (h : r.backend.Logs log fun q => [call q])

include h

theorem writesInTurn_insertMany (es : List α) (s : σ) :
    ∃ passed, WritesInTurn r.insert (fun e => (insertRequest e).map call) log s es
      (r.insertMany es s) passed passed := by
  obtain ⟨passed, failing, hturn⟩ := r.inTurn_insertMany es s
  obtain ⟨calls, hcalls, hlog⟩ := (records_insert h).log_inTurn hturn
  exact ⟨passed, failing, calls, hturn, hcalls, hlog⟩

theorem writesInTurn_updateMany (es : List α) (s : σ) :
    ∃ passed found, WritesInTurn r.update (fun e => (r.updateRequest e).map call) log s es
      (r.updateMany es s) passed found := by
  obtain ⟨passed, found, failing, hturn⟩ := r.inTurn_updateMany es s
  obtain ⟨calls, hcalls, hlog⟩ := (records_update h).log_inTurn hturn
  exact ⟨passed, found, failing, calls, hturn, hcalls, hlog⟩

end Logs

/-- Over a watched collection, and over a session of a graph database, a batch of writes comes to
the single writes in turn, up to the first that fails: with its error if there is one, otherwise
with the entities that were found, which after inserts are all of them. The collection then has the
documents of the entities that were inserted behind those it had; the calls that it received, and
the statements that the session ran, are one for each entity up to the first that failed, and none
for one that was refused. A watched collection answers as the collection itself does. -/
theorem batches_in_turn [SearchEngine] (parser : FilterParser) (es : List α) :
    (∀ (naming : Naming) (c : Collection) (calls : List Document.Call),
      let plain : Repository Collection α := ⟨parser, Document.backend naming⟩
      let r : Repository (Collection × List Document.Call) α :=
        ⟨parser, Collection.store.watched.backend naming⟩
      let call := Document.Call.ofRequest naming.key
      let s := (c, calls)
      (∃ passed documents,
        WritesInTurn r.insert (fun e => (insertRequest e).map call) Prod.snd s es
            (r.insertMany es s) passed passed ∧
          passed.mapM (Document.ofEntity naming.key) = .ok documents ∧
          (r.insertMany es s).2.1.documents = c.documents ++ documents) ∧
        (∃ passed found,
          WritesInTurn r.update (fun e => (r.updateRequest e).map call) Prod.snd s es
            (r.updateMany es s) passed found) ∧
        ∀ op, ((r.run op s).1, (r.run op s).2.1) = plain.run op c) ∧
      ∀ (label : String) (t : Session),
        let r : Repository Session α := ⟨parser, Graph.backend label⟩
        let call := Graph.statement label
        (∃ passed,
          WritesInTurn r.insert (fun e => (insertRequest e).map call) Session.statements t es
            (r.insertMany es t) passed passed) ∧
          ∃ passed found,
            WritesInTurn r.update (fun e => (r.updateRequest e).map call) Session.statements t es
              (r.updateMany es t) passed found := by
  refine ⟨fun naming c calls => ?_, fun label t => ?_⟩
  · intro plain r call s
    have hlogs : r.backend.Logs Prod.snd fun q => [call q] :=
      (Document.Store.logs_watched Collection.store).backend naming
    obtain ⟨passed, hpassed⟩ := writesInTurn_insertMany hlogs es s
    have ⟨failing, _, hturn, _⟩ := hpassed
    obtain ⟨documents, hdocuments, hadded⟩ := Document.appends_collection.watched.inTurn hturn
    refine ⟨⟨passed, documents, hpassed, hdocuments, hadded⟩, writesInTurn_updateMany hlogs es s,
      fun op => ?_⟩
    obtain ⟨hreply, hstate⟩ := Document.Store.run_watched parser Collection.store naming op c calls
    exact Prod.ext hreply hstate
  · intro r call
    have hlogs : r.backend.Logs Session.statements fun q => [call q] := Graph.logs_backend label
    exact ⟨writesInTurn_insertMany hlogs es t, writesInTurn_updateMany hlogs es t⟩

example :
    let r : Repository Collection User := ⟨.ofTable [], Document.backend .document⟩
    let ann : User := ⟨"u1", "acme", "Ann", 30⟩
    let bob : User := ⟨"u2", "acme", "Bob", 40⟩
    let result := r.insertMany [ann, ann, bob] (.empty "_id")
    result.1 = .failed none (.backend "duplicate key") ∧ result.2.documents.length = 1 := by
  decide +kernel

end Repository

end TenantStore
