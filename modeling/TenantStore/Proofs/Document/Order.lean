import Mathlib.Order.Defs.LinearOrder
import TenantStore.Pattern.Search
import TenantStore.Proofs.Document.Collection

/-!
# The order of documents

Values are ordered by their kinds first, and values of one kind by a number or a text that they have
(`Json.order_eq`). So the order of values is total, and so is that of documents by any fields. A
collection sorts by it what it has selected, and documents that the order does not tell apart stay
in the order in which they were stored (`Collection.sortsTo_sorted`, and with the order itself
`Collection.find_sorted`).
-/

namespace TenantStore

namespace Json

/-- What numbers are ordered by, and truth values. -/
def sortNumber : Json → Int
  | .number n => n.toBinary64.value
  | .bool b => b.toNat
  | _ => 0

/-- What texts are ordered by. -/
def sortText : Json → String
  | .string s => s
  | _ => ""

/-- The kind of a value counts first. -/
theorem order_eq (a b : Json) :
    order a b =
      compareLex (compareOn rank) (compareLex (compareOn sortNumber) (compareOn sortText)) a b := by
  cases a with
  | number n =>
      cases b with
      | number m => exact (Ordering.then_eq).symm
      | _ => rfl
  | bool x =>
      cases b with
      | bool y => cases x <;> cases y <;> rfl
      | _ => rfl
  | string s => cases b <;> rfl
  | null | array _ | object _ => cases b <;> rfl

instance transCmp_order : Std.TransCmp order := by
  have hlex : order =
      compareLex (compareOn rank) (compareLex (compareOn sortNumber) (compareOn sortText)) :=
    funext fun a => funext fun b => order_eq a b
  rw [hlex]
  infer_instance

end Json

namespace SortField

/-- Sorting down compares the other way round. -/
theorem order_of_descending (name : String) (a b : Document) :
    order ⟨name, .descending⟩ a b = Json.order (b.field name) (a.field name) := by
  have hswap : Json.order (b.field name) (a.field name) =
      (Json.order (a.field name) (b.field name)).swap :=
    Std.OrientedCmp.eq_swap
  rw [hswap]
  rfl

instance transCmp_order (f : SortField) : Std.TransCmp f.order := by
  obtain ⟨name, direction⟩ := f
  cases direction with
  | ascending =>
      have hfield : order ⟨name, .ascending⟩ =
          fun a b : Document => Json.order (a.field name) (b.field name) := rfl
      rw [hfield]
      exact { eq_swap := Std.OrientedCmp.eq_swap, isLE_trans := Std.TransCmp.isLE_trans }
  | descending =>
      have hfield : order ⟨name, .descending⟩ =
          fun a b : Document => Json.order (b.field name) (a.field name) :=
        funext fun a => funext fun b => order_of_descending name a b
      rw [hfield]
      exact
        { eq_swap := Std.OrientedCmp.eq_swap
          isLE_trans := fun hab hbc => Std.TransCmp.isLE_trans hbc hab }

instance transCmp_listOrder (fs : List SortField) : Std.TransCmp (listOrder fs) := by
  induction fs with
  | nil => exact { eq_swap := rfl, isLE_trans := fun _ _ => rfl }
  | cons f fs ih => exact inferInstanceAs (Std.TransCmp (compareLex f.order (listOrder fs)))

/-- One document may stand in front of another in a sort order. -/
def precedes (fs : List SortField) (a b : Document) : Bool :=
  (listOrder fs a b).isLE

theorem precedes_trans (fs : List SortField) (a b c : Document) (hab : precedes fs a b = true)
    (hbc : precedes fs b c = true) : precedes fs a c = true :=
  Std.TransCmp.isLE_trans hab hbc

/-- Of two documents one may stand in front of the other. -/
theorem precedes_total (fs : List SortField) (a b : Document) :
    (precedes fs a b || precedes fs b a) = true := by
  unfold precedes
  have hswap : listOrder fs b a = (listOrder fs a b).swap := Std.OrientedCmp.eq_swap
  rw [hswap]
  cases listOrder fs a b <;> rfl

/-- Along documents in order, the first compares with the last as it does with the second, or as
the second does with the last if the first two are not told apart. -/
theorem listOrder_then {fields : List SortField} {a b c : Document}
    (hab : listOrder fields a b ≠ .gt) (hbc : listOrder fields b c ≠ .gt) :
    listOrder fields a c = (listOrder fields a b).then (listOrder fields b c) := by
  cases hfirst : listOrder fields a b with
  | lt => exact Std.TransCmp.lt_of_lt_of_isLE hfirst (Ordering.isLE_iff_ne_gt.mpr hbc)
  | eq => exact Std.TransCmp.congr_left hfirst
  | gt => exact absurd hfirst hab

/-- The sort order does not tell the documents apart. -/
def Ties (fields : List SortField) (a b : Document) : Prop :=
  listOrder fields a b = .eq

instance (fields : List SortField) (a b : Document) : Decidable (Ties fields a b) :=
  inferInstanceAs (Decidable (_ = _))

end SortField

namespace Document

/-- The documents of a list in a sort order. Documents that stood in order before are so still, and
in particular those that the order does not tell apart. -/
structure SortsTo (fields : List SortField) (ds sorted : List Document) : Prop where
  perm : sorted.Perm ds
  ordered : sorted.Pairwise fun a b => SortField.precedes fields a b = true
  stable : ∀ part : List Document, part.Sublist ds →
    part.Pairwise (fun a b => SortField.precedes fields a b = true) → part.Sublist sorted

/-- Documents that a sort order does not tell apart stay in the order in which they stood. -/
theorem SortsTo.filter_ties {fields : List SortField} {ds sorted : List Document}
    (h : SortsTo fields ds sorted) (d : Document) :
    sorted.filter (SortField.Ties fields d ·) = ds.filter (SortField.Ties fields d ·) := by
  have hties : (ds.filter (SortField.Ties fields d ·)).Pairwise
      fun a b => SortField.precedes fields a b = true := by
    refine List.pairwise_of_forall_mem_list fun a ha b hb => ?_
    have hda : SortField.Ties fields d a := of_decide_eq_true (List.mem_filter.mp ha).2
    have hdb : SortField.Ties fields d b := of_decide_eq_true (List.mem_filter.mp hb).2
    have hab : SortField.listOrder fields a b = .eq :=
      (Std.TransCmp.congr_left hda).symm.trans hdb
    rw [SortField.precedes, hab]
    rfl
  have hsublist := (h.stable _ List.filter_sublist hties).filter (SortField.Ties fields d ·)
  rw [List.filter_filter] at hsublist
  simp only [Bool.and_self] at hsublist
  exact (hsublist.eq_of_length (h.perm.filter _).length_eq.symm).symm

end Document

namespace Collection

section Engine

variable [SearchEngine]

/-- The documents that a query selects, in a sort order. -/
def sorted (c : Collection) (query : Document) (fields : List SortField) : List Document :=
  (c.select query).mergeSort (SortField.precedes fields)

theorem sortsTo_sorted (c : Collection) (query : Document) (fields : List SortField) :
    Document.SortsTo fields (c.select query) (c.sorted query fields) where
  perm := List.mergeSort_perm _ _
  ordered := List.pairwise_mergeSort (SortField.precedes_trans fields)
    (SortField.precedes_total fields) _
  stable _ hpart hordered := List.sublist_mergeSort (SortField.precedes_trans fields)
    (SortField.precedes_total fields) hordered hpart

/-- A collection that does not fail shows a window of the selected documents in order. -/
theorem find_apply {c : Collection} (hfailure : c.failure = none) (query : Document) (w : Window) :
    find query w c = (.ok (w.cut (c.sorted query w.sort)), c.receive query) :=
  answer_apply hfailure

/-- The order that a collection sorts by is a total preorder of all documents: the other way round
two documents compare the other way round, and order is passed on along three documents, whichever
of them are not told apart. What a collection finds without a window are the selected documents in
this order, and those that it does not tell apart are in the order in which they were inserted. -/
theorem find_sorted (fields : List SortField) :
    (∀ a b, SortField.listOrder fields b a = (SortField.listOrder fields a b).swap) ∧
      (∀ a b c, SortField.listOrder fields a b ≠ .gt → SortField.listOrder fields b c ≠ .gt →
        SortField.listOrder fields a c =
          (SortField.listOrder fields a b).then (SortField.listOrder fields b c)) ∧
      ∀ (c : Collection) (query : Document), c.failure = none →
        ∃ found, (find query ⟨0, none, fields⟩ c).1 = .ok found ∧
          found.Perm (c.documents.filter (Document.matchesQuery · query)) ∧
          found.Pairwise (fun a b => SortField.listOrder fields a b ≠ .gt) ∧
          ∀ d, found.filter (SortField.Ties fields d ·) =
            (c.documents.filter (Document.matchesQuery · query)).filter
              (SortField.Ties fields d ·) := by
  refine ⟨fun a b => Std.OrientedCmp.eq_swap, fun a b c => SortField.listOrder_then, ?_⟩
  intro c query hfailure
  have hsorts := c.sortsTo_sorted query fields
  refine ⟨c.sorted query fields, ?_, hsorts.perm, ?_, hsorts.filter_ties⟩
  · rw [find_apply hfailure]
    rfl
  · exact hsorts.ordered.imp fun h => Ordering.isLE_iff_ne_gt.mp h

end Engine

/-- Whole numbers that are the same in binary64 are not told apart, nor are null and a missing
field, nor any two arrays. -/
theorem find_sorted_mixed :
    let field (name : String) (v : Json) : Document := [("_id", .string name), ("v", v)]
    let big := field "a" (.number (.whole 9007199254740993))
    let even := field "b" (.number (.whole 9007199254740992))
    let missing : Document := [("_id", .string "c")]
    let nothing := field "d" .null
    let c : Collection :=
      ⟨"_id", [missing, field "e" (.array [.null]), big, field "f" (.array []), nothing, even], [],
        none⟩
    c.failure = none ∧
      ∃ found, (find [] ⟨0, none, [⟨"v", .descending⟩]⟩ c).1 = .ok found ∧
        found.filter (SortField.Ties [⟨"v", .descending⟩] even ·) = [big, even] ∧
        found.filter (SortField.Ties [⟨"v", .descending⟩] nothing ·) = [missing, nothing] := by
  intro field big even missing nothing c
  obtain ⟨found, hfound, -, -, hties⟩ :=
    (find_sorted [⟨"v", .descending⟩]).2.2 c [] rfl
  refine ⟨rfl, found, hfound, ?_, ?_⟩
  · rw [hties even]
    decide +kernel
  · rw [hties nothing]
    decide +kernel

end Collection

end TenantStore
