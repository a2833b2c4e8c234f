import TenantStore.Error
import TenantStore.Json.Schema

/-!
# Pages

A page query names a tenant, a filter, a sort order and a page by number and size; size zero turns
paging off. Numbers are whole numbers of 64 bits, and a page whose first row has a number beyond
them is refused.

`checked_ok_iff` says which pages are accepted.
-/

namespace TenantStore

/-- The query of one page of a tenant's entities. -/
structure PageQuery where
  tenant : String
  filter : String
  sort : String
  /-- The number of the page, from zero. -/
  page : Int
  /-- The number of rows of a page; zero for all rows. -/
  size : Int
  deriving DecidableEq, Repr

/-- Why a page is refused. -/
inductive PageError where
  | negativePage (page : Int)
  | negativeSize (size : Int)
  | outOfRange (page size : Int)
  deriving DecidableEq, Repr

namespace PageError

/-- The wording of a refusal. -/
def message : PageError → String
  | negativePage page => "pageNum must not be negative, got " ++ toString page
  | negativeSize size => "pageSize must not be negative, got " ++ toString size
  | outOfRange page size =>
    "page " ++ toString page ++ " of size " ++ toString size ++ " is out of range"

/-- A refused page is a fault of the query. -/
def toStoreError (e : PageError) : StoreError :=
  .invalidFilter e.message

end PageError

/-- The greatest signed number of 64 bits. -/
def maxInteger : Int := Int.pow 2 63 - 1

/-- The number is a signed number of 64 bits. -/
def IsSigned (n : Int) : Prop :=
  -Int.pow 2 63 ≤ n ∧ n ≤ maxInteger

instance (n : Int) : Decidable (IsSigned n) :=
  inferInstanceAs (Decidable (_ ∧ _))

namespace PageQuery

/-- The number of rows before the page. -/
def skip (q : PageQuery) : Except PageError Int :=
  if q.size ≤ 0 then .ok 0
  else
    let rows := q.size * max q.page 0
    if rows ≤ maxInteger then .ok rows else .error (.outOfRange q.page q.size)

/-- The number of rows of the page, if paging is on. -/
def limit (q : PageQuery) : Option Int :=
  if 0 < q.size then some q.size else none

/-- The number of rows before the page, if the page can be had at all. -/
def checked (q : PageQuery) : Except PageError Int :=
  if q.page < 0 then .error (.negativePage q.page)
  else if q.size < 0 then .error (.negativeSize q.size)
  else q.skip

/-- The members of a page query. -/
def schema : Schema :=
  .record "FindPagingQuery"
    [Schema.required "tenantId" .string, Schema.required "filter" .string,
     Schema.required "sort" .string, Schema.required "pageNum" .integer,
     Schema.required "pageSize" .integer]

/-- Writes a page query. -/
def toJson (q : PageQuery) : Json :=
  Json.ofMembers
    [("tenantId", .string q.tenant), ("filter", .string q.filter), ("sort", .string q.sort),
     ("pageNum", Json.ofInt q.page), ("pageSize", Json.ofInt q.size)]

/-- The page query with the given members. -/
def ofMembers (ms : Members Json) : PageQuery where
  tenant := Json.textAt ms "tenantId"
  filter := Json.textAt ms "filter"
  sort := Json.textAt ms "sort"
  page := Json.integerAt ms "pageNum"
  size := Json.integerAt ms "pageSize"

/-- Reads a page query. -/
def ofJson (v : Json) : Except DecodeError PageQuery := do
  return ofMembers ((← schema.conform v).members?.getD [])

/-- A page is accepted exactly when its number and size are not negative and its first row has a
number of 64 bits; then the rows before it are counted without a detour. -/
theorem checked_ok_iff {q : PageQuery} {n : Int} :
    q.checked = .ok n ↔
      0 ≤ q.page ∧ 0 ≤ q.size ∧ q.page * q.size ≤ maxInteger ∧ n = q.page * q.size := by
  obtain ⟨tenant, filter, sort, page, size⟩ := q
  have hmax : (0 : Int) ≤ maxInteger := by decide
  simp only [checked, skip]
  by_cases hp : page < 0
  · simp only [hp, ↓reduceIte, reduceCtorEq, false_iff]
    omega
  by_cases hs : size < 0
  · simp only [hp, hs, ↓reduceIte, reduceCtorEq, false_iff]
    omega
  rw [if_neg hp, if_neg hs]
  by_cases hz : size = 0
  · subst hz
    simp only [Int.le_refl, ↓reduceIte, Except.ok.injEq, Int.mul_zero, true_and]
    omega
  · have hpage : max page 0 = page := by omega
    have hcomm : size * page = page * size := Int.mul_comm _ _
    have hle : ¬ size ≤ 0 := by omega
    rw [if_neg hle, hpage, hcomm]
    generalize page * size = rows at *
    split
    · simp only [Except.ok.injEq]
      omega
    · simp only [reduceCtorEq, false_iff]
      omega

end PageQuery

/-! ## The number of pages -/

/-- The number of pages that rows are told to fill: the whole pages, and one more if more than one
row is left over. -/
def pageCount (rows size : Int) : Int :=
  if size = 0 then 0
  else if 1 < rows.tmod size then rows.tdiv size + 1
  else rows.tdiv size

/-- The number of pages, or `none` if it is no signed number of 64 bits: the least such number of
rows on pages of size minus one. -/
def pageCount? (rows size : Int) : Option Int :=
  if rows = -Int.pow 2 63 ∧ size = -1 then none else some (pageCount rows size)

end TenantStore
