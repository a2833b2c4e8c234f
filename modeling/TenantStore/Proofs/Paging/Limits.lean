import Mathlib.Data.Rat.Floor
import TenantStore.Entity.User
import TenantStore.Proofs.Document.Store
import TenantStore.Proofs.Graph.Bounds

/-!
# Pages in 64 bits

Page numbers, sizes and numbers of rows are signed numbers of 64 bits, and backends take unsigned
ones. Every step that could overflow gives `none` here if it does. An accepted page query does not
overflow, and the window that backends are asked for shows its page (`Repository.asksFor`). The
steps in which pages are counted overflow for one pair of numbers only (`pageCountSteps?_eq`), which
no report tells. `PageQuery.counts_exactly` puts this together.
-/

namespace TenantStore

/-! ## Signed numbers of 64 bits -/

/-- What a step with signed numbers gives, or `none` if it overflows. -/
def signed? (n : Int) : Option Int :=
  if IsSigned n then some n else none

/-- The unsigned number of 64 bits that a number is, or `none` if it is none. -/
def unsigned? (n : Int) : Option Nat :=
  if 0 ≤ n ∧ n < Int.pow 2 64 then some n.toNat else none

theorem signed?_eq_some {n : Int} (h : IsSigned n) : signed? n = some n :=
  if_pos h

theorem isSigned_iff_natAbs {n : Int} :
    IsSigned n ↔ n.natAbs ≤ Nat.pow 2 63 ∧ (n.natAbs = Nat.pow 2 63 → n < 0) := by
  have hmin : Int.pow 2 63 = (Nat.pow 2 63 : Nat) := by decide
  have hmax : maxInteger = (Nat.pow 2 63 : Nat) - 1 := by decide
  have hpos : 0 < Nat.pow 2 63 := by decide
  rw [IsSigned, hmin, hmax]
  generalize Nat.pow 2 63 = bound at *
  omega

theorem unsigned?_eq_some {n : Int} (hn : IsSigned n) (hpos : 0 ≤ n) :
    unsigned? n = some n.toNat := by
  have hbound : maxInteger < Int.pow 2 64 := by decide
  exact if_pos ⟨hpos, Int.lt_of_le_of_lt hn.2 hbound⟩

/-! ## Numbers of pages -/

/-- The number of pages, counted in steps that may overflow. -/
def pageCountSteps? (rows size : Int) : Option Int :=
  if size = 0 then some 0
  else do
    let pages ← signed? (rows.tdiv size)
    let rest ← signed? (rows.tmod size)
    if 1 < rest then signed? (pages + 1) else some pages

/-- What is half of a signed number at most is signed. -/
theorem IsSigned.of_natAbs {n m : Int} (h : IsSigned n) (hm : 2 * m.natAbs ≤ n.natAbs) :
    IsSigned m := by
  have hpos : 0 < Nat.pow 2 63 := by decide
  rw [isSigned_iff_natAbs] at h ⊢
  omega

/-- A quotient is out of range only if the least number is divided by minus one. -/
theorem isSigned_tdiv_iff {rows size : Int} (hrows : IsSigned rows) (hsize : size ≠ 0) :
    IsSigned (rows.tdiv size) ↔ ¬ (rows = -Int.pow 2 63 ∧ size = -1) := by
  by_cases hone : size = 1
  · rw [hone, Int.tdiv_one]
    simp [hrows]
  by_cases hminus : size = -1
  · have hmax : maxInteger = Int.pow 2 63 - 1 := rfl
    rw [hminus, Int.tdiv_neg, Int.tdiv_one]
    unfold IsSigned at *
    omega
  · refine iff_of_true (hrows.of_natAbs ?_) fun h => hminus h.2
    have htwo : 2 ≤ size.natAbs := by omega
    have hhalf := Nat.div_le_div_left htwo (by decide) (a := rows.natAbs)
    rw [Int.natAbs_tdiv]
    show 2 * (rows.natAbs / size.natAbs) ≤ _
    omega

theorem isSigned_tmod (rows : Int) {size : Int} (hsize : IsSigned size) (hne : size ≠ 0) :
    IsSigned (rows.tmod size) := by
  have hlt := Nat.mod_lt rows.natAbs (Int.natAbs_pos.mpr hne)
  rw [isSigned_iff_natAbs, Int.natAbs_tmod]
  rw [isSigned_iff_natAbs] at hsize
  omega

/-- Where more than one row is left over, there is room for one page more. -/
theorem isSigned_tdiv_add_one {rows size : Int} (hrows : IsSigned rows) (hne : size ≠ 0)
    (hrest : 1 < rows.tmod size) : IsSigned (rows.tdiv size + 1) := by
  have hmod : 2 ≤ rows.natAbs % size.natAbs := by
    rw [← Int.natAbs_tmod]
    omega
  have hlt := Nat.mod_lt rows.natAbs (Int.natAbs_pos.mpr hne)
  -- with two rows left over, a page has three rows or more, so the quotient is far from the limits
  have hthree : 3 * (rows.natAbs / size.natAbs) ≤ size.natAbs * (rows.natAbs / size.natAbs) :=
    Nat.mul_le_mul_right _ (by omega)
  have hdiv := Nat.div_add_mod rows.natAbs size.natAbs
  have hquotient : (rows.tdiv size).natAbs = rows.natAbs / size.natAbs := Int.natAbs_tdiv _ _
  exact hrows.of_natAbs (by omega)

/-- Pages are counted without an overflow, except for the least number of rows on pages of size
minus one. -/
theorem pageCountSteps?_eq {rows size : Int} (hrows : IsSigned rows) (hsize : IsSigned size) :
    pageCountSteps? rows size = pageCount? rows size := by
  rw [pageCountSteps?, pageCount?, pageCount]
  by_cases hne : size = 0
  · simp [hne]
  rw [if_neg hne]
  by_cases hleast : rows = -Int.pow 2 63 ∧ size = -1
  · rw [if_pos hleast, signed?, if_neg (mt (isSigned_tdiv_iff hrows hne).mp (not_not_intro hleast))]
    rfl
  rw [if_neg hleast, signed?_eq_some ((isSigned_tdiv_iff hrows hne).mpr hleast),
    signed?_eq_some (isSigned_tmod rows hsize hne), if_neg hne]
  by_cases hrest : 1 < rows.tmod size
  · simp [hrest, signed?_eq_some (isSigned_tdiv_add_one hrows hne hrest)]
  · simp [hrest]

/-- The number of pages is the quotient rounded up, but for a single row left over. -/
theorem pageCount_eq_ceil {rows size : Int} (hrows : 0 ≤ rows) (hsize : 0 < size) :
    pageCount rows size = ⌈(rows : ℚ) / size⌉ - if rows % size = 1 then 1 else 0 := by
  have hceil : ⌈(rows : ℚ) / size⌉ = rows / size + if rows % size = 0 then 0 else 1 := by
    obtain ⟨n, rfl⟩ := Int.eq_ofNat_of_zero_le hsize.le
    rw [Int.cast_natCast, Rat.ceil_intCast_div_natCast, Int.neg_ediv,
      Int.sign_eq_one_of_pos hsize]
    simp only [Int.dvd_iff_emod_eq_zero]
    split <;> omega
  have hmod := Int.emod_nonneg rows hsize.ne'
  rw [pageCount, if_neg hsize.ne', Int.tdiv_eq_ediv_of_nonneg hrows,
    Int.tmod_eq_emod_of_nonneg hrows, hceil]
  split <;> split <;> split <;> omega

/-! ## What backends are asked for -/

variable {σ κ α : Type}

namespace PageQuery

/-- The page is there, and its first row has a number of 64 bits. -/
def Accepted (q : PageQuery) : Prop :=
  0 ≤ q.page ∧ 0 ≤ q.size ∧ q.page * q.size ≤ maxInteger

/-- The window skips the rows in front of the page and ends with it. Without a size it does not end.
-/
def Shows (q : PageQuery) (w : Window) : Prop :=
  (w.skip : Int) = q.page * q.size ∧
    w.limit.map Int.ofNat = if 0 < q.size then some q.size else none

instance (q : PageQuery) : Decidable q.Accepted :=
  inferInstanceAs (Decidable (_ ∧ _))

theorem exists_checked_iff (q : PageQuery) : (∃ rows, q.checked = .ok rows) ↔ q.Accepted := by
  simp only [checked_ok_iff, Accepted]
  exact ⟨fun ⟨_, hpage, hsize, hrows, _⟩ => ⟨hpage, hsize, hrows⟩,
    fun ⟨hpage, hsize, hrows⟩ => ⟨_, hpage, hsize, hrows, rfl⟩⟩

variable {q : PageQuery} (h : q.Accepted)

include h

theorem Accepted.skip_eq : q.skip = .ok (q.page * q.size) := by
  obtain ⟨hpage, hsize, hrows⟩ := h
  have hchecked := checked_ok_iff.mpr ⟨hpage, hsize, hrows, rfl⟩
  rwa [checked, if_neg (not_lt.mpr hpage), if_neg (not_lt.mpr hsize)] at hchecked

theorem Accepted.isSigned_rows : IsSigned (q.page * q.size) := by
  have hmin : -Int.pow 2 63 ≤ 0 := by decide
  exact ⟨hmin.trans (Int.mul_nonneg h.1 h.2.1), h.2.2⟩

/-- The rows in front of an accepted page and its limit are unsigned numbers. -/
theorem Accepted.unsigned?_eq_some (hsize : IsSigned q.size) :
    unsigned? (q.page * q.size) = some (q.page * q.size).toNat ∧
      ∀ n, q.limit = some n → unsigned? n = some n.toNat := by
  refine ⟨TenantStore.unsigned?_eq_some h.isSigned_rows (Int.mul_nonneg h.1 h.2.1), ?_⟩
  intro n hn
  rw [limit] at hn
  split at hn
  · cases hn
    exact TenantStore.unsigned?_eq_some hsize h.2.1
  · cases hn

theorem Accepted.shows (sort : List SortField) :
    q.Shows ⟨(q.page * q.size).toNat, q.limit.map Int.toNat, sort⟩ := by
  refine ⟨Int.toNat_of_nonneg (Int.mul_nonneg h.1 h.2.1), ?_⟩
  rw [limit]
  split
  · exact congrArg some (Int.toNat_of_nonneg h.2.1)
  · rfl

omit h

/-- The window is the only one that shows the page. -/
theorem Shows.eq {w : Window} (h : q.Shows w) :
    w = ⟨(q.page * q.size).toNat, q.limit.map Int.toNat, w.sort⟩ := by
  obtain ⟨skip, limit, sort⟩ := w
  obtain ⟨hskip, hlimit⟩ := h
  have hlimit : limit = q.limit.map Int.toNat := by
    rw [PageQuery.limit, ← hlimit, Option.map_map]
    exact (congrFun Option.map_id limit).symm
  rw [hlimit, ← hskip, Int.toNat_natCast]

end PageQuery

namespace Repository

/-- What a page query makes a repository ask its backend for: the number of rows, and then the rows
of the page. -/
def pageRequests (r : Repository σ α) (q : PageQuery) (s : σ) : List Backend.Request :=
  match r.pageRequest q with
  | .error _ => []
  | .ok (selection, w) =>
    match (r.backend.count selection s).1 with
    | .error _ => [.count selection]
    | .ok _ => [.count selection, .find selection w]

/-- The rows of a page are looked up if they can be counted and the query is accepted and can be
read. The window then shows the page, and no other window is asked for. -/
def AsksFor (r : Repository σ α) (q : PageQuery) (s : σ) : Prop :=
  ∀ selection w, .find selection w ∈ r.pageRequests q s ↔
    (∃ total, (r.backend.count selection s).1 = .ok total) ∧
      q.Accepted ∧ q.Shows w ∧
      (∃ tenant, Tenant.ofName q.tenant = .ok tenant ∧
        r.compile tenant q.filter = .ok selection) ∧
      r.sortFields q.sort = .ok w.sort

variable {r : Repository σ α} {q : PageQuery} {selection : Scoped} {w : Window}

theorem pageRequest_eq_ok_iff :
    r.pageRequest q = .ok (selection, w) ↔
      q.Accepted ∧ q.Shows w ∧
        (∃ tenant, Tenant.ofName q.tenant = .ok tenant ∧
          r.compile tenant q.filter = .ok selection) ∧
        r.sortFields q.sort = .ok w.sort := by
  constructor
  · intro h
    obtain ⟨tenant, htenant, h⟩ := exists_of_bind_eq_ok h
    obtain ⟨rows, hrows, h⟩ := exists_of_bind_eq_ok h
    obtain ⟨_, hselection, h⟩ := exists_of_bind_eq_ok h
    obtain ⟨sort, hsort, ⟨⟩⟩ := exists_of_bind_eq_ok h
    have hchecked : q.checked = .ok rows := by
      cases h : q.checked with
      | error e => rw [h] at hrows; cases hrows
      | ok n => rw [h] at hrows; cases hrows; rfl
    obtain ⟨hpage, hsize, hbound, rfl⟩ := PageQuery.checked_ok_iff.mp hchecked
    have haccepted : q.Accepted := ⟨hpage, hsize, hbound⟩
    exact ⟨haccepted, haccepted.shows sort, ⟨tenant, htenant, hselection⟩, hsort⟩
  · rintro ⟨⟨hpage, hsize, hbound⟩, hshows, ⟨tenant, htenant, hselection⟩, hsort⟩
    have hchecked := PageQuery.checked_ok_iff.mpr ⟨hpage, hsize, hbound, rfl⟩
    rw [hshows.eq, pageRequest, htenant, hchecked, hsort]
    show (r.compile tenant q.filter >>= _) = _
    rw [hselection]
    rfl

theorem asksFor (r : Repository σ α) (q : PageQuery) (s : σ) : r.AsksFor q s := by
  intro selection w
  rw [← pageRequest_eq_ok_iff, pageRequests]
  cases hpage : r.pageRequest q with
  | error e => exact iff_of_false List.not_mem_nil fun h => nomatch h.2
  | ok request =>
      obtain ⟨selection', w'⟩ := request
      dsimp only
      cases hcount : (r.backend.count selection' s).1 with
      | error e =>
          refine iff_of_false (by simp) ?_
          rintro ⟨⟨total, htotal⟩, ⟨⟩⟩
          exact nomatch hcount.symm.trans htotal
      | ok total =>
          constructor
          · intro h
            obtain ⟨rfl, rfl⟩ : selection = selection' ∧ w = w' := by simpa using h
            exact ⟨⟨total, hcount⟩, rfl⟩
          · rintro ⟨-, ⟨⟩⟩
            exact List.mem_cons_of_mem _ (List.mem_singleton_self _)

variable [Entity α]

/-- The log shows what a page query asked for. -/
theorem log_findPaging {log : σ → List κ} {entries : Backend.Request → List κ}
    (h : r.backend.Logs log entries) (q : PageQuery) (s : σ) :
    log (r.findPaging q s).2 = log s ++ (r.pageRequests q s).flatMap entries := by
  rw [findPaging_apply, pageRequests]
  cases hpage : r.pageRequest q with
  | error e =>
      rw [tryFindPaging_eq, hpage]
      exact (List.append_nil _).symm
  | ok request =>
      obtain ⟨selection, w⟩ := request
      have hcount := h.count selection s
      rw [tryFindPaging_apply hpage]
      dsimp only
      cases hanswer : r.backend.count selection s with
      | mk answer s' =>
          rw [hanswer] at hcount
          cases answer with
          | error e => simpa using hcount.symm
          | ok total =>
              have hfind := h.find selection w s'
              rw [← hcount] at hfind
              simpa using hfind.symm

omit [Entity α]

/-- The rows that are counted are no more than the greatest signed number. -/
theorem yields_totalRows (r : Repository σ α) (q : PageQuery) :
    (r.tryFindPaging q).Yields (fun _ => True) fun answer =>
      0 ≤ answer.2 ∧ answer.2 ≤ maxInteger := by
  have hmax : 0 ≤ maxInteger := by decide
  have hany {β : Type} (act : Access σ β) : act.Yields (fun _ => True) fun _ => True :=
    fun _ _ => ⟨trivial, fun _ _ => trivial⟩
  rw [tryFindPaging_eq]
  refine Access.Yields.lift_bind _ fun (selection, w) _ => ?_
  refine (hany _).bind fun total _ => (hany _).bind fun rows _ => Access.Yields.pure ?_
  exact ⟨le_min (Int.natCast_nonneg total) hmax, min_le_right _ _⟩

/-- A page report tells a number of rows that is signed and not negative. With its rows, it tells
the number of their pages. -/
theorem totals_findPaging (r : Repository σ α) (q : PageQuery) (s : σ) :
    let report := (r.findPaging q s).1
    0 ≤ report.totalRows ∧ IsSigned report.totalRows ∧
      (report.rows.isSome = true → report.totalPages = pageCount report.totalRows q.size) := by
  intro report
  have hmin : -Int.pow 2 63 ≤ 0 := by decide
  have hmax : 0 ≤ maxInteger := by decide
  have hanswer := (yields_totalRows r q s trivial).2
  have hreport : report = _ := congrArg Prod.fst (findPaging_apply r q s)
  cases h : (r.tryFindPaging q s).1 with
  | ok answer =>
      obtain ⟨hpos, hle⟩ := hanswer answer h
      rw [h] at hreport
      rw [hreport]
      exact ⟨hpos, ⟨hmin.trans hpos, hle⟩, fun _ => rfl⟩
  | error e =>
      rw [h] at hreport
      rw [hreport]
      exact ⟨le_rfl, ⟨hmin, hmax⟩, fun hrows => nomatch hrows⟩

end Repository

/-! ## The limits -/

/-- Signed numbers of 64 bits are enough for pages. A query is accepted exactly if its numbers are
not negative and the rows in front of its page have a signed number; these are then what it skips,
and nothing is lost where signed numbers are made unsigned. A repository over documents and one over
a graph ask their backends for that window, and for no other; in the statement that the graph gets,
the rows to skip and the size of the page are the values of the two bounds, and a page without a
size has no limit. Pages are counted without an overflow but for the least number of rows on pages
of size minus one, and rows that are left over fill one page more unless there is just one. A report
never tells so few rows. -/
theorem PageQuery.counts_exactly [Entity α] (q : PageQuery) (hsize : IsSigned q.size) :
    ((∃ rows, q.checked = .ok rows) ↔ q.Accepted) ∧
      (q.Accepted → q.skip = .ok (q.page * q.size) ∧
        unsigned? (q.page * q.size) = some (q.page * q.size).toNat ∧
        ∀ n, q.limit = some n → unsigned? n = some n.toNat) ∧
      (∀ (parser : FilterParser) (store : Document.Store σ) (naming : Naming) (s : σ)
        (calls : List Document.Call),
        let r : Repository (σ × List Document.Call) α := ⟨parser, store.watched.backend naming⟩
        (r.findPaging q (s, calls)).2.2 =
            calls ++ (r.pageRequests q (s, calls)).map (Document.Call.ofRequest naming.key) ∧
          r.AsksFor q (s, calls)) ∧
      (∀ (parser : FilterParser) (label : String) (t : Session),
        let r : Repository Session α := ⟨parser, Graph.backend label⟩
        (r.findPaging q t).2.statements =
            t.statements ++ (r.pageRequests q t).map (Graph.statement label) ∧
          r.AsksFor q t ∧
          ∀ selection w, .find selection w ∈ r.pageRequests q t →
            (Graph.statement label (.find selection w)).1.Bounded (q.page * q.size)
              (if 0 < q.size then some q.size else none)) ∧
      (∀ rows size : Int, IsSigned rows → IsSigned size → ¬ (rows = -Int.pow 2 63 ∧ size = -1) →
        pageCountSteps? rows size = some (pageCount rows size)) ∧
      (∀ rows size : Int, 0 ≤ rows → 0 < size →
        pageCount rows size = ⌈(rows : ℚ) / size⌉ - if rows % size = 1 then 1 else 0) ∧
      ∀ (r : Repository σ α) (s : σ),
        let report := (r.findPaging q s).1
        0 ≤ report.totalRows ∧
          (report.rows.isSome = true →
            pageCountSteps? report.totalRows q.size = some report.totalPages) := by
  have hcount {rows size : Int} (hrows : IsSigned rows) (hsize : IsSigned size)
      (h : ¬ (rows = -Int.pow 2 63 ∧ size = -1)) :
      pageCountSteps? rows size = some (pageCount rows size) := by
    rw [pageCountSteps?_eq hrows hsize, pageCount?, if_neg h]
  refine ⟨q.exists_checked_iff, fun h => ⟨h.skip_eq, h.unsigned?_eq_some hsize⟩, ?_, ?_,
    fun rows size => hcount, fun rows size => pageCount_eq_ceil, ?_⟩
  · intro parser store naming s calls r
    refine ⟨?_, r.asksFor q (s, calls)⟩
    have hlogs := (Document.Store.logs_watched store).backend naming (α := α)
    rw [List.map_eq_flatMap]
    exact Repository.log_findPaging (r := r) hlogs q (s, calls)
  · intro parser label t r
    refine ⟨?_, r.asksFor q t, fun selection w hfind => ?_⟩
    · rw [List.map_eq_flatMap]
      exact Repository.log_findPaging (r := r) (Graph.logs_backend label) q t
    · obtain ⟨-, -, ⟨hskip, hlimit⟩, -⟩ := (r.asksFor q t selection w).mp hfind
      rw [← hskip, ← hlimit]
      exact Cypher.Statement.bounded_find label selection w
  · intro r s report
    obtain ⟨hpos, hrows, hpages⟩ := r.totals_findPaging q s
    have hleast : ¬ (report.totalRows = -Int.pow 2 63 ∧ q.size = -1) := by
      have hmin : -Int.pow 2 63 < 0 := by decide
      exact fun h => absurd h.1 (hmin.trans_le hpos).ne'
    refine ⟨hpos, fun h => ?_⟩
    rw [hpages h]
    exact hcount hrows hsize hleast

/-- The greatest page number is accepted with pages of one row, and the graph then gets it as the
number of rows to skip. With pages of two rows it is refused. -/
theorem PageQuery.counts_exactly_greatest :
    let q : PageQuery := ⟨"acme", "", "", maxInteger, 1⟩
    let r : Repository Session User := ⟨.ofTable [], Graph.backend "User"⟩
    let t : Session := .ofReplies [.rows [[("total", Json.ofNat 1)]], .rows []]
    (IsSigned q.size ∧ q.Accepted ∧ q.skip = .ok maxInteger) ∧
      (∃ found, (r.findPaging q t).2.statements.getLast? = some (found, .read) ∧
        found.Bounded maxInteger (some 1)) ∧
      ¬ ∃ rows, { q with size := 2 }.checked = .ok rows := by
  intro q r t
  have hsize : IsSigned q.size := by decide
  have haccepted : q.Accepted := by decide
  obtain ⟨-, hskip, -, hgraph, -⟩ := q.counts_exactly (σ := Collection) (α := User) hsize
  obtain ⟨hchecked, -⟩ :=
    { q with size := 2 }.counts_exactly (σ := Collection) (α := User) (by decide)
  -- The rows can be counted, so they are looked up.
  have hcount : (r.pageRequests q t).length = 2 := by decide +kernel
  obtain ⟨selection, w, hrequests⟩ :
      ∃ selection w, r.pageRequests q t = [.count selection, .find selection w] := by
    revert hcount
    rw [Repository.pageRequests]
    split
    · exact fun h => nomatch h
    · split
      · exact fun h => nomatch h
      · exact fun _ => ⟨_, _, rfl⟩
  obtain ⟨hstatements, -, hbounded⟩ := hgraph (.ofTable []) "User" t
  refine ⟨⟨hsize, haccepted, (hskip haccepted).1⟩, ⟨_, ?_, hbounded selection w ?_⟩, fun h => ?_⟩
  · rw [hstatements, hrequests]
    rfl
  · rw [hrequests]
    exact List.mem_cons_of_mem _ (List.mem_singleton_self _)
  · exact absurd (hchecked.mp h) (by decide)

end TenantStore
