import TenantStore.Proofs.Document.Collection
import TenantStore.Proofs.Document.Isolation
import TenantStore.Proofs.Document.Order
import TenantStore.Proofs.Repository.Simulation

/-!
# Pages of a collection

A collection shows a page of what it found as a slice of the sorted documents (`pageOf`), and all
pages of one size together are the whole (`flatMap_pageOf`). In the states that a repository leaves,
all documents are read as entities (`Intact`), so the pages that it hands out are slices of one list
of entities, and no entity is on two of them or on none (`Document.pages_partition`).
-/

namespace TenantStore

/-! ## Slices -/

section Slices

variable {β : Type} (xs : List β) (size : Nat)

/-- The part of a list that is on a page, counted from zero. -/
def pageOf (page : Nat) : List β :=
  (xs.drop (page * size)).take size

/-- The first pages together are the first part of the list. -/
theorem flatMap_pageOf (count : Nat) :
    (List.range count).flatMap (pageOf xs size) = xs.take (count * size) := by
  induction count with
  | zero => simp
  | succ count ih =>
      rw [List.range_succ, List.flatMap_append, ih, Nat.succ_mul, List.take_add]
      simp [pageOf]

/-- What shows the first pages shows the first part of the list. -/
theorem flatMap_eq_take {rows : Nat → List β} {count : Nat}
    (h : ∀ page < count, rows page = pageOf xs size page) :
    (List.range count).flatMap rows = xs.take (count * size) := by
  rw [← flatMap_pageOf]
  exact List.flatMap_congr fun page hpage => h page (List.mem_range.mp hpage)

theorem pageOf_eq_nil {page : Nat} (h : xs.length ≤ page * size) : pageOf xs size page = [] := by
  rw [pageOf, List.drop_eq_nil_of_le h, List.take_nil]

end Slices

/-! ## Numbers of pages -/

section Counts

variable {rows size : Nat} (hsize : 0 < size)

include hsize

/-- Pages are enough for all rows if their number is the quotient rounded up. -/
theorem le_ceil_mul : rows ≤ (rows + size - 1) / size * size := by
  have hdiv := Nat.div_add_mod (rows + size - 1) size
  have hmod := Nat.mod_lt (rows + size - 1) hsize
  rw [Nat.mul_comm] at hdiv
  omega

/-- The pages that are needed for all rows begin with one of them. -/
theorem mul_lt_of_lt_ceil {page : Nat} (h : page < (rows + size - 1) / size) :
    page * size < rows := by
  have hmul := (Nat.lt_div_iff_mul_lt hsize).mp h
  omega

/-- A page of its own for what is left over is counted from two rows on. -/
theorem pageCount_natCast :
    pageCount rows size = ((rows / size + if 1 < rows % size then 1 else 0 : Nat) : Int) := by
  have hne : (size : Int) ≠ 0 := by omega
  rw [pageCount, if_neg hne, Int.tmod_eq_emod_of_nonneg (Int.natCast_nonneg rows),
    Int.tdiv_eq_ediv_of_nonneg (Int.natCast_nonneg rows)]
  by_cases h : 1 < rows % size
  · rw [if_pos (by exact_mod_cast h), if_pos h]
    push_cast
    rfl
  · rw [if_neg (by exact_mod_cast h), if_neg h]
    push_cast
    simp

/-- The pages that are counted begin within the rows, or right behind them. -/
theorem mul_le_of_lt_pageCount : ∀ page < (pageCount rows size).toNat, page * size ≤ rows := by
  intro page hpage
  rw [pageCount_natCast hsize, Int.toNat_natCast] at hpage
  have hle : page ≤ rows / size := by
    split at hpage <;> omega
  exact (Nat.le_div_iff_mul_le hsize).mp hle

/-- The pages that are counted are those of all rows, but for a single row left over. -/
theorem take_pageCount_mul {β : Type} {xs : List β} (hrows : xs.length = rows) :
    xs.take ((pageCount rows size).toNat * size) =
      if rows % size = 1 then xs.dropLast else xs := by
  have hdiv := Nat.div_add_mod rows size
  have hmod := Nat.mod_lt rows hsize
  rw [Nat.mul_comm] at hdiv
  rw [pageCount_natCast hsize, Int.toNat_natCast, List.dropLast_eq_take, hrows]
  by_cases hone : rows % size = 1
  · rw [if_pos hone, if_neg (by omega), Nat.add_zero]
    congr 1
    omega
  · rw [if_neg hone]
    refine List.take_of_length_le ?_
    rw [hrows]
    split
    · rw [Nat.succ_mul]
      omega
    · rw [Nat.add_zero]
      omega

end Counts

/-! ## Requests for pages -/

section Requests

variable {σ α : Type}

/-- A page that can be had is asked for as a window of its tenant's selection. -/
theorem Repository.pageRequest_eq_ok {r : Repository σ α} {q : PageQuery} {tenant : Tenant}
    (htenant : Tenant.ofName q.tenant = .ok tenant) {rows : Int} (hchecked : q.checked = .ok rows)
    {tree : Tree} (htree : Filter.compile r.parser r.backend.naming q.filter = .ok tree)
    {fields : List SortField} (hsort : SortField.parseList q.sort = .ok fields) :
    r.pageRequest q =
      .ok (.ofTree tree tenant r.backend.naming,
        ⟨rows.toNat, q.limit.map Int.toNat,
          fields.map fun f => { f with field := r.backend.naming.native f.field }⟩) := by
  simp only [pageRequest, compile, sortFields, htenant, hchecked, htree, hsort]
  rfl

end Requests

namespace Document

variable {α : Type} [Entity α]

/-! ## What is read of found documents -/

theorem entities_cut {key : String} {ds : List Document} {es : List α}
    (h : entities key ds = .ok es) (w : Window) : entities key (w.cut ds) = .ok (w.cut es) := by
  have hread := mapM_eq_ok_iff.mp h
  rw [entities, mapM_eq_ok_iff]
  unfold Window.cut
  cases w.limit with
  | none => exact List.forall₂_drop w.skip hread
  | some n => exact List.forall₂_take n (List.forall₂_drop w.skip hread)

/-- A page can be had if the rows in front of it can be counted. -/
theorem exists_checked (tenant filter sort : String) {size page : Nat}
    (h : ((page * size : Nat) : Int) ≤ maxInteger) :
    ∃ rows, (⟨tenant, filter, sort, page, size⟩ : PageQuery).checked = .ok rows := by
  rw [Int.natCast_mul] at h
  exact ⟨_, PageQuery.checked_ok_iff.mpr ⟨Int.natCast_nonneg _, Int.natCast_nonneg _, h, rfl⟩⟩

/-- A page that can be had is a slice of what was found, or all of it if paging is off. -/
theorem cut_checked {tenant filter sort : String} {size page : Nat} {rows : Int}
    (h : (⟨tenant, filter, sort, page, size⟩ : PageQuery).checked = .ok rows) {β : Type}
    (order : List SortField) (xs : List β) :
    (⟨rows.toNat, (⟨tenant, filter, sort, page, size⟩ : PageQuery).limit.map Int.toNat,
        order⟩ : Window).cut xs =
      if 0 < size then pageOf xs size page else xs := by
  obtain ⟨-, -, -, hrows⟩ := PageQuery.checked_ok_iff.mp h
  have hskip : rows.toNat = page * size := by
    rw [hrows]
    exact Int.toNat_natCast (page * size)
  rw [hskip, PageQuery.limit]
  by_cases hsize : 0 < size
  · rw [if_pos hsize, if_pos (Int.natCast_pos.mpr hsize)]
    rfl
  · rw [if_neg hsize, if_neg (fun h => hsize (Int.natCast_pos.mp h))]
    simp [Window.cut, Nat.eq_zero_of_not_pos hsize]

/-- If every document is read as an entity, all of them are. -/
theorem exists_entities {key : String} {ds : List Document}
    (h : ∀ d ∈ ds, ∃ e : α, toEntity key d = .ok e) : ∃ es : List α, entities key ds = .ok es :=
  exists_mapM_eq_ok_iff.mpr h

/-- A page shows a part of what is read of the sorted documents, and counts them all. -/
theorem findPaging_eq [SearchEngine] {r : Repository Collection α} {naming : Naming}
    (hbackend : r.backend = backend naming) {q : PageQuery} {s : Scoped} {w : Window}
    (hpage : r.pageRequest q = .ok (s, w)) {c : Collection} (hfailure : c.failure = none)
    {es : List α} (hread : entities naming.key (c.sorted s.query w.sort) = .ok es) :
    (r.findPaging q c).1 =
      .ofParts (some (w.cut es)) (min (c.select s.query).length maxInteger) (some q) none := by
  have hcount : r.backend.count s c = (.ok (c.select s.query).length, c.receive s.query) := by
    rw [hbackend]
    exact Collection.count_apply hfailure s.query
  have hfound : (Collection.find s.query w (c.receive s.query)).1 =
      .ok (w.cut (c.sorted s.query w.sort)) :=
    congrArg Prod.fst (Collection.find_apply (c := c.receive s.query) hfailure s.query w)
  have hfind : (r.backend.find s w (c.receive s.query)).1 = .ok (w.cut es) := by
    rw [hbackend]
    show ((Collection.find s.query w >>= fun ds => liftM (entities naming.key ds)) _).1 = _
    rw [Access.bind_apply_of_ok hfound, entities_cut hread]
    rfl
  rw [Repository.findPaging_apply, Repository.tryFindPaging_apply hpage, hcount]
  simp only [hfind, Except.map]

/-- A page that can be had shows its slice of the entities, or all of them if paging is off. -/
theorem findPaging_checked [SearchEngine] {parser : FilterParser} {naming : Naming}
    {c : Collection} (hfailure : c.failure = none) {tenant filter sort : String}
    (htenant : Text.isBlank tenant = false) {tree : Tree}
    (htree : Filter.compile parser naming filter = .ok tree) {fields : List SortField}
    (hsort : SortField.parseList sort = .ok fields) {es : List α}
    (hread : entities naming.key (c.sorted (Scoped.ofTree tree ⟨tenant, htenant⟩ naming).query
      (fields.map fun f => { f with field := naming.native f.field })) = .ok es)
    {size page : Nat} {rows : Int}
    (hrows : (⟨tenant, filter, sort, page, size⟩ : PageQuery).checked = .ok rows) :
    ((⟨parser, backend naming⟩ : Repository Collection α).findPaging
        ⟨tenant, filter, sort, page, size⟩ c).1 =
      .ofParts (some (if 0 < size then pageOf es size page else es))
        (min (c.select (Scoped.ofTree tree ⟨tenant, htenant⟩ naming).query).length maxInteger)
        (some ⟨tenant, filter, sort, page, size⟩) none := by
  have hnamed : Tenant.ofName tenant = .ok ⟨tenant, htenant⟩ := Tenant.ofName_eq_ok_iff.mpr rfl
  have hpage : (⟨parser, backend naming⟩ : Repository Collection α).pageRequest
      ⟨tenant, filter, sort, page, size⟩ = .ok (_, _) :=
    Repository.pageRequest_eq_ok hnamed hrows htree hsort
  have hpart := findPaging_eq rfl hpage hfailure hread
  rwa [cut_checked hrows] at hpart

/-! ## States that a repository leaves -/

/-- The entities of the type `α` are read from the documents that store them. -/
def RoundTrips (α : Type) [Entity α] (naming : Naming) : Prop :=
  ∀ (e : α) (d : Document), ofEntity naming.key e = .ok d → toEntity naming.key d = .ok e

theorem roundTrips_document [LawfulEntity α] : RoundTrips α Naming.document :=
  fun _ _ => toEntity_of_ofEntity

/-- The collection does not fail, and all its documents are read as entities of the type `α`. -/
structure Intact (α : Type) [Entity α] (naming : Naming) (c : Collection) : Prop where
  failure : c.failure = none
  readable : ∀ d ∈ c.documents, ∃ e : α, toEntity naming.key d = .ok e

section Intact

variable {naming : Naming} {β : Type} {query : Document}

/-- An access by a query leaves the collection intact if what it does to the documents does. -/
theorem yields_intact_answer {act : Collection → β × Collection}
    (hact : ∀ c, Intact α naming c → Intact α naming (act c).2) :
    (Collection.answer query act).Yields (Intact α naming) fun _ => True := by
  intro c hc
  have hreceived : Intact α naming (c.receive query) := ⟨hc.failure, hc.readable⟩
  refine ⟨?_, fun _ _ => trivial⟩
  rw [Collection.answer_apply hc.failure]
  exact hact _ hreceived

theorem yields_intact_insertOne {d : Document} (hd : ∃ e : α, toEntity naming.key d = .ok e) :
    (Collection.insertOne d).Yields (Intact α naming) fun _ => True := by
  intro c hc
  refine ⟨?_, fun _ _ => trivial⟩
  rw [Collection.insertOne, Collection.guarded_apply hc.failure]
  show Intact α naming (if c.hasKeyOf d = true then _ else _ : Except _ Unit × Collection).2
  split
  · exact hc
  · refine ⟨hc.failure, fun d' hd' => ?_⟩
    rcases List.mem_append.mp hd' with hd' | hd'
    · exact hc.readable d' hd'
    · exact List.mem_singleton.mp hd' ▸ hd

/-- If entities are read from their documents, every operation leaves the collection intact. -/
theorem serves_intact [SearchEngine] {parser : FilterParser}
    (hread : RoundTrips α naming) (op : Operation α) :
    (⟨parser, backend naming⟩ : Repository Collection α).Serves op (Intact α naming)
      fun _ => True where
  insert e _ := Access.Yields.lift_bind _ fun d hd => yields_intact_insertOne ⟨e, hread e d hd⟩
  update e _ s _ := by
    refine Access.Yields.lift_bind _ fun d hd => Access.Yields.bind (P := fun _ => True) ?_ ?_
    · refine yields_intact_answer fun c hc => ⟨hc.failure, fun d' hd' => ?_⟩
      rcases Collection.mem_replaceFirst hd' with rfl | hd'
      · exact ⟨e, hread e _ hd⟩
      · exact hc.readable d' hd'
    · exact fun _ _ => Access.Yields.pure trivial
  delete s _ := yields_intact_answer fun c hc =>
    ⟨hc.failure, fun d hd => hc.readable d (List.mem_filter.mp hd).1⟩
  first s _ := (yields_intact_answer fun _ hc => hc).bind fun found _ => by
    cases found with
    | none => exact Access.Yields.pure fun _ _ => trivial
    | some d =>
        exact Access.Yields.lift_bind _ fun e _ => Access.Yields.pure fun _ _ => trivial
  find s w _ := (yields_intact_answer fun _ hc => hc).bind fun ds _ c hc =>
    ⟨hc, fun _ _ _ _ => trivial⟩
  count s _ := yields_intact_answer fun _ hc => hc

/-- After any operations on a new collection, it is intact. -/
theorem intact_after [SearchEngine] {parser : FilterParser}
    (hread : RoundTrips α naming) (key : String) (ops : List (Operation α)) :
    Intact α naming
      ((⟨parser, backend naming⟩ : Repository Collection α).after (.empty key) ops) := by
  refine Repository.after_induction (fun op c hc => ?_) ⟨rfl, fun d hd => nomatch hd⟩ ops
  exact (Repository.run_spec (serves_intact hread op) (fun _ _ => trivial) hc).1

end Intact

/-- A page query leaves the documents as they are. -/
theorem documents_findPaging [SearchEngine] (parser : FilterParser) (naming : Naming)
    (q : PageQuery) (c : Collection) :
    ((⟨parser, backend naming⟩ : Repository Collection α).findPaging q c).2.documents =
      c.documents := by
  have hfind : ∀ s w, ((backend naming : Backend Collection α).find s w).Yields
      (fun c' => c'.documents = c.documents) fun found => ∀ e ∈ found, True := by
    intro s w
    refine (Collection.yields_find (J := (· = c.documents)) w).bind fun ds _ c' hc' => ?_
    exact ⟨hc', fun _ _ _ _ => trivial⟩
  have hpage := Repository.yields_tryFindPaging (r := ⟨parser, backend naming⟩) (q := q)
    (fun s _ => Collection.yields_count (J := (· = c.documents))) fun s w _ => hfind s w
  exact (Repository.findPaging_spec hpage rfl).1

/-! ## Whole answers in pages -/

/-- After any operations on a new collection, the pages of a query show parts of one list: the
entities read of the documents that the filter selects, sorted by the sort order of the query. Each
page shows its part of the list and the number of all entities on it, so the pages that are needed
for all of them are the whole list, and pages behind these are empty. The pages that a report counts
are the whole list too, unless a single entity is left for the last page. Without a size, every page
shows the whole list.

The number of found documents has to be one that a report can hold, as it is for any list that fits
into memory. -/
theorem pages_partition [SearchEngine] {parser : FilterParser} {naming : Naming}
    (hread : RoundTrips α naming) (key : String) (ops : List (Operation α))
    {tenant filter sort : String}
    (htenant : Text.isBlank tenant = false) {tree : Tree}
    (htree : Filter.compile parser naming filter = .ok tree) {fields : List SortField}
    (hsort : SortField.parseList sort = .ok fields)
    (hcount : ((((⟨parser, backend naming⟩ : Repository Collection α).after (.empty key) ops).select
      (Scoped.ofTree tree ⟨tenant, htenant⟩ naming).query).length : Int) ≤ maxInteger) :
    let r : Repository Collection α := ⟨parser, backend naming⟩
    let c := r.after (.empty key) ops
    let found := c.select (Scoped.ofTree tree ⟨tenant, htenant⟩ naming).query
    let order := fields.map fun f => { f with field := naming.native f.field }
    let n := found.length
    let query (size page : Nat) : PageQuery := ⟨tenant, filter, sort, page, size⟩
    let report (size page : Nat) := (r.findPaging (query size page) c).1
    let rows (size page : Nat) := (report size page).rows.getD []
    ∃ (sorted : List Document) (full : List α),
      SortsTo order found sorted ∧ entities naming.key sorted = .ok full ∧ full.length = n ∧
      (∀ q, (r.findPaging q c).2.documents = c.documents) ∧
      (∀ size page skip, 0 < size → (query size page).checked = .ok skip →
        report size page =
            .ofParts (some (pageOf full size page)) n (some (query size page)) none ∧
          (n ≤ page * size → rows size page = [])) ∧
      (∀ size, 0 < size →
        (∀ page < (n + size - 1) / size, ∃ skip, (query size page).checked = .ok skip) ∧
          (List.range ((n + size - 1) / size)).flatMap (rows size) = full ∧
          (List.range (report size 0).totalPages.toNat).flatMap (rows size) =
            if n % size = 1 then full.dropLast else full) ∧
      ∀ page, report 0 page = .ofParts (some full) n (some (query 0 page)) none := by
  intro r c found order n query report rows
  have hintact : Intact α naming c := intact_after hread key ops
  have hsorted : SortsTo order found
      (c.sorted (Scoped.ofTree tree ⟨tenant, htenant⟩ naming).query order) := c.sortsTo_sorted _ _
  obtain ⟨full, hfull⟩ : ∃ full : List α, entities naming.key
      (c.sorted (Scoped.ofTree tree ⟨tenant, htenant⟩ naming).query order) = .ok full := by
    refine exists_entities fun d hd => hintact.readable d ?_
    exact (List.mem_filter.mp (hsorted.perm.mem_iff.mp hd)).1
  have hlength : full.length = n :=
    (mapM_eq_ok_iff.mp hfull).length_eq.symm.trans hsorted.perm.length_eq
  have hreport : ∀ size page skip, (query size page).checked = .ok skip →
      report size page = .ofParts (some (if 0 < size then pageOf full size page else full)) n
        (some (query size page)) none := by
    intro size page skip hskip
    have hpart := findPaging_checked hintact.failure htenant htree hsort hfull hskip
    rwa [Int.min_eq_left hcount] at hpart
  have hrows : ∀ size page skip, 0 < size → (query size page).checked = .ok skip →
      rows size page = pageOf full size page := by
    intro size page skip hsize hskip
    have hpart := hreport size page skip hskip
    rw [if_pos hsize] at hpart
    exact congrArg (fun r : PageReport α => r.rows.getD []) hpart
  -- A page that begins within the entities, or right behind them, can be had.
  have hvalid : ∀ size page, page * size ≤ n → ∃ skip, (query size page).checked = .ok skip :=
    fun size page hle =>
      exists_checked tenant filter sort (Int.le_trans (Int.ofNat_le.mpr hle) hcount)
  have hfirst : ∀ size count, 0 < size → (∀ page < count, page * size ≤ n) →
      (List.range count).flatMap (rows size) = full.take (count * size) := by
    intro size count hsize hle
    refine flatMap_eq_take full size fun page hpage => ?_
    obtain ⟨skip, hskip⟩ := hvalid size page (hle page hpage)
    exact hrows size page skip hsize hskip
  refine ⟨_, full, hsorted, hfull, hlength, (documents_findPaging parser naming · c), ?_, ?_, ?_⟩
  · intro size page skip hsize hskip
    have hpart := hreport size page skip hskip
    rw [if_pos hsize] at hpart
    refine ⟨hpart, fun hle => ?_⟩
    rw [hrows size page skip hsize hskip, pageOf_eq_nil full size (hlength ▸ hle)]
  · intro size hsize
    have hceil : ∀ page < (n + size - 1) / size, page * size ≤ n :=
      fun page hpage => Nat.le_of_lt (mul_lt_of_lt_ceil hsize hpage)
    obtain ⟨skip, hskip⟩ := hvalid size 0 (by omega)
    have htotal : (report size 0).totalPages = pageCount n size :=
      congrArg PageReport.totalPages (hreport size 0 skip hskip)
    refine ⟨fun page hpage => hvalid size page (hceil page hpage), ?_, ?_⟩
    · rw [hfirst size _ hsize hceil]
      exact List.take_of_length_le (hlength ▸ le_ceil_mul hsize)
    · rw [htotal, hfirst size _ hsize (mul_le_of_lt_pageCount hsize)]
      exact take_pageCount_mul hsize hlength
  · intro page
    obtain ⟨skip, hskip⟩ := hvalid 0 page (Nat.zero_le _)
    exact hreport 0 page skip hskip

/-- Of three users, the one that sorts last is on no page that the report counts. -/
theorem pages_partition_users :
    let parser : FilterParser :=
      .ofTable [("adults", [.comparison "age" .gte (.scalar (.ofNat 18))])]
    let tree : Tree := ⟨.mk 0 .unnamed none [.leaf 1 (.field "age") (some (.gte (.ofNat 18)))], 2⟩
    let users : List User :=
      [⟨"u1", "acme", "Ann", 30⟩, ⟨"u2", "acme", "Bob", 12⟩, ⟨"u3", "acme", "Cid", 52⟩,
        ⟨"u4", "zeta", "Dan", 41⟩, ⟨"u5", "acme", "Eve", 30⟩]
    let r : Repository Collection User := ⟨parser, backend .document⟩
    let c := r.after (.empty "_id") [.insertMany users]
    let report (page : Nat) := (r.findPaging ⟨"acme", "adults", "-age", page, (2 : Nat)⟩ c).1
    let rows (page : Nat) := (report page).rows.getD []
    Filter.compile parser .document "adults" = .ok tree ∧
      SortField.parseList "-age" = .ok [⟨"age", .descending⟩] ∧
      ((List.range 2).flatMap rows).length = 3 ∧
      (List.range (report 0).totalPages.toNat).flatMap rows =
        ((List.range 2).flatMap rows).dropLast := by
  intro parser tree users r c report rows
  have htree : Filter.compile parser .document "adults" = .ok tree := rfl
  have hsort : SortField.parseList "-age" = .ok [⟨"age", .descending⟩] :=
    eq_ok_of_toOption (by decide +kernel)
  have hn : (c.select (Scoped.ofTree tree ⟨"acme", by decide⟩ .document).query).length = 3 := by
    decide +kernel
  have hcount :
      ((c.select (Scoped.ofTree tree ⟨"acme", by decide⟩ .document).query).length : Int) ≤
        maxInteger := by
    rw [hn]
    decide
  obtain ⟨sorted, full, -, -, hlength, -, -, hwhole, -⟩ :=
    pages_partition roundTrips_document "_id" [.insertMany users] (by decide) htree hsort hcount
  obtain ⟨-, hall, hcounted⟩ := hwhole 2 (by decide)
  rw [hn] at hall hcounted
  refine ⟨htree, hsort, ?_, hcounted.trans (congrArg List.dropLast hall.symm)⟩
  exact (congrArg List.length hall).trans (hlength.trans hn)

end Document

end TenantStore
