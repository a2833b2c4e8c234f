import Mathlib.Data.Fintype.EquivFin
import TenantStore.Pattern.Search
import TenantStore.Proofs.Document.Matching

/-!
# Conditions of equality

Four conditions compare a field with one value: equality, membership in the list of that value
alone, and the opposites of the two. Three of them have the value inside an object with one
operator. Equality is written as the bare value, and there a value that is itself an object of
operators (`Json.IsOperators`) is read as the operators that it names.

* `matchesEntry_isIn`, `matchesEntry_ne`, `matchesEntry_notIn`: the conditions with an operator
  compare the field with the value, whatever the value is.
* `Json.exists_meetsCondition_ne_equals`: an object of operators as a condition is met by other
  values than those that are equal to it.
* `equality_agrees`: the four conditions say the same on all documents exactly if the value is no
  object of operators.
-/

namespace TenantStore

namespace Json

/-- The value is an object of operators, where it stands as a condition. -/
def IsOperators : Json → Prop
  | .object ms => ms ≠ [] ∧ ∀ m ∈ ms, Document.isOperator m.1 = true
  | _ => False

/-! ## Values inside themselves -/

/-- Numbers that are the same have the same size. -/
theorem sizeOf_eq_of_number_same {n m : Number} (h : n.same m = true) : sizeOf n = sizeOf m := by
  cases n with
  | whole n =>
    cases m with
    | whole m => simp_all [Number.same]
    | real y => simp [Number.same] at h
  | real x =>
    cases m with
    | whole m => simp [Number.same] at h
    | real y =>
      have hvalue : x.value = y.value := by simpa [Number.same] using h
      have hunits : x.units = y.units := by
        unfold Binary64.value at hvalue
        split at hvalue <;> split at hvalue <;> omega
      cases x
      cases y
      simp_all

mutual

/-- Values that are the same have the same size. -/
theorem sizeOf_eq_of_same : {a b : Json} → same a b = true → sizeOf a = sizeOf b
  | .null, b, h => by cases b <;> simp_all [same]
  | .bool _, b, h => by cases b <;> simp_all [same]
  | .number n, b, h => by
    cases b with
    | number m => simpa using sizeOf_eq_of_number_same (by simpa [same] using h)
    | _ => simp [same] at h
  | .string _, b, h => by cases b <;> simp_all [same]
  | .array xs, b, h => by
    cases b with
    | array ys => simpa using sizeOf_eq_of_sameItems (by simpa [same] using h)
    | _ => simp [same] at h
  | .object xs, b, h => by
    cases b with
    | object ys => simpa using sizeOf_eq_of_sameMembers (by simpa [same] using h)
    | _ => simp [same] at h

/-- Items that are the same have the same size. -/
theorem sizeOf_eq_of_sameItems :
    {xs ys : List Json} → sameItems xs ys = true → sizeOf xs = sizeOf ys
  | [], ys, h => by cases ys <;> simp_all [sameItems]
  | x :: xs, ys, h => by
    cases ys with
    | nil => simp [sameItems] at h
    | cons y ys =>
      rw [sameItems, Bool.and_eq_true] at h
      simp [sizeOf_eq_of_same h.1, sizeOf_eq_of_sameItems h.2]

/-- Members that are the same have the same size. -/
theorem sizeOf_eq_of_sameMembers :
    {xs ys : List (String × Json)} → sameMembers xs ys = true → sizeOf xs = sizeOf ys
  | [], ys, h => by cases ys <;> simp_all [sameMembers]
  | (k, x) :: xs, ys, h => by
    cases ys with
    | nil => simp [sameMembers] at h
    | cons m ys =>
      obtain ⟨l, y⟩ := m
      simp only [sameMembers, Bool.and_eq_true, decide_eq_true_eq] at h
      simp [h.1.1, sizeOf_eq_of_same h.1.2, sizeOf_eq_of_sameMembers h.2]

end

/-- An object does not equal an item of an array among its members. -/
theorem not_equals_of_mem_items {ms : List (String × Json)} {name : String} {xs : List Json}
    {x : Json} (hmember : (name, .array xs) ∈ ms) (hx : x ∈ xs) :
    equals (.object ms) x = false := by
  have hsize : sizeOf x < sizeOf (Json.object ms) := by
    have hitem := List.sizeOf_lt_of_mem hx
    have harray := List.sizeOf_lt_of_mem hmember
    simp at harray ⊢
    omega
  have hsame : same (.object ms) x = false :=
    Bool.eq_false_iff.mpr fun h => Nat.ne_of_gt hsize (sizeOf_eq_of_same h)
  simp [equals, compare?, hsame]

/-- Some string equals none of finitely many values. -/
theorem exists_string_ne (vs : List Json) :
    ∃ s : String, ∀ v ∈ vs, equals (.string s) v = false := by
  obtain ⟨s, hs⟩ := Infinite.exists_notMem_finset (vs.filterMap Json.string?).toFinset
  refine ⟨s, fun v hv => ?_⟩
  cases v with
  | string t =>
    have hne : s ≠ t := by
      rintro rfl
      exact hs (by simpa using ⟨_, hv, rfl⟩)
    simp [equals, compare?, same, hne]
  | _ => simp [equals, compare?, same]

end Json

namespace Document

open Json (equals IsOperators)

section Engine

variable [SearchEngine]

/-! ## A value that stands as a condition -/

theorem meetsCondition_of_isOperators {ms : List (String × Json)} (h : IsOperators (.object ms))
    (w : Json) :
    meetsCondition w (.object ms) =
      ms.all fun (operator, operand) => meets w ms operator operand := by
  have hall : ms.all (isOperator ·.1) = true := List.all_eq_true.mpr h.2
  have hne : ms.isEmpty = false := by simpa using h.1
  rw [meetsCondition, hall, hne]
  rfl

theorem meetsCondition_of_not_isOperators {v : Json} (h : ¬ v.IsOperators) (w : Json) :
    meetsCondition w v = equals w v := by
  unfold meetsCondition
  split
  · rename_i ms
    refine if_neg fun hms => h ?_
    simp only [Bool.and_eq_true, Bool.not_eq_true', List.isEmpty_eq_false_iff,
      List.all_eq_true] at hms
    exact hms
  · rfl

/-- An object of one operator is met by what meets the operator. -/
theorem meetsCondition_operator {operator : String} (h : isOperator operator = true)
    (w operand : Json) :
    meetsCondition w (.object [(operator, operand)]) =
      meets w [(operator, operand)] operator operand := by
  rw [meetsCondition_of_isOperators ⟨List.cons_ne_nil _ _, by simpa using h⟩]
  exact Bool.and_true _

/-- The operators that an object can meet, and by which lists it can. -/
theorem operator_of_meets_object {ms operators : List (String × Json)} {operator : String}
    {operand : Json} (h : meets (.object ms) operators operator operand = true) :
    operator = "$ne" ∨ operator = "$nin" ∨ operator = "$options" ∨
      ∃ xs, operand = .array xs ∧ ∃ x ∈ xs, equals (.object ms) x = true := by
  have hcompare : Json.compare? (.object ms) operand = none := by cases operand <;> rfl
  simp only [meets, hcompare] at h
  split_ifs at h with hne hgt hgte hlt hlte hin hnin hregex
  · exact Or.inl hne
  · simp at h
  · simp at h
  · simp at h
  · simp at h
  · cases operand with
    | array xs => exact Or.inr (Or.inr (Or.inr ⟨xs, rfl, List.any_eq_true.mp h⟩))
    | _ => simp [Json.items?] at h
  · exact Or.inr (Or.inl hnin)
  · simp [matchesPattern] at h
  · exact Or.inr (Or.inr (Or.inl (of_decide_eq_true h)))

/-- A string that equals neither the operand nor an item of it meets every operator of exclusion. -/
theorem meets_string_of_ne {operators : List (String × Json)} {operator s : String}
    {operand : Json}
    (hoperator : operator = "$ne" ∨ operator = "$nin" ∨ operator = "$options")
    (hs : ∀ v ∈ operand :: operand.items?.getD [], equals (.string s) v = false) :
    meets (.string s) operators operator operand = true := by
  have hoperand := hs operand List.mem_cons_self
  have hitems : (operand.items?.getD []).any (equals (.string s)) = false :=
    List.any_eq_false.mpr fun v hv => by simp [hs v (List.mem_cons_of_mem _ hv)]
  obtain rfl | rfl | rfl := hoperator <;> simp [meets, hoperand, hitems]

/-- An object of operators as a condition is met by other values than those equal to it: it is not
met by itself, or it only excludes values, and then some string meets it. -/
theorem exists_meetsCondition_ne_equals {v : Json} (h : v.IsOperators) :
    ∃ w, meetsCondition w v ≠ equals w v := by
  cases v with
  | object ms =>
    by_cases hself : meetsCondition (.object ms) (.object ms) = true
    · rw [meetsCondition_of_isOperators h, List.all_eq_true] at hself
      have hexcludes : ∀ m ∈ ms, m.1 = "$ne" ∨ m.1 = "$nin" ∨ m.1 = "$options" := by
        intro m hm
        obtain h | h | h | ⟨xs, hxs, x, hx, hequals⟩ := operator_of_meets_object (hself m hm)
        · exact Or.inl h
        · exact Or.inr (Or.inl h)
        · exact Or.inr (Or.inr h)
        · have hmember : (m.1, Json.array xs) ∈ ms := hxs ▸ hm
          rw [Json.not_equals_of_mem_items hmember hx] at hequals
          cases hequals
      obtain ⟨s, hs⟩ :=
        Json.exists_string_ne (ms.flatMap fun m => m.2 :: m.2.items?.getD [])
      have hmeets : meetsCondition (.string s) (.object ms) = true := by
        rw [meetsCondition_of_isOperators h, List.all_eq_true]
        intro m hm
        refine meets_string_of_ne (hexcludes m hm) fun v hv => hs v ?_
        exact List.mem_flatMap.mpr ⟨m, hm, hv⟩
      exact ⟨.string s, by simp [hmeets, equals, Json.compare?, Json.same]⟩
    · exact ⟨.object ms, by rw [Json.equals_refl]; exact hself⟩
  | _ => exact h.elim

/-! ## The conditions of equality -/

section Conditions

variable {name : String} (hand : name ≠ "$and") (hor : name ≠ "$or")

include hand hor

/-- Under a name that is no combinator stands a condition on the field. -/
theorem matchesEntry_eq_meetsCondition (d : Document) (v : Json) :
    matchesEntry d name v = meetsCondition (field d name) v := by
  cases v <;> simp [matchesEntry, hand, hor]

theorem matchesQuery_eq (d : Document) (v : Json) :
    matchesQuery d (Term.query ⟨name, .eq v⟩) = meetsCondition (field d name) v := by
  rw [matchesQuery_term, matchesEntry_eq_meetsCondition hand hor]
  rfl

theorem matchesQuery_isIn_singleton (d : Document) (v : Json) :
    matchesQuery d (Term.query ⟨name, .isIn [v]⟩) = equals (field d name) v := by
  rw [matchesQuery_term, matchesEntry_eq_meetsCondition hand hor, Predicate.toJson,
    meetsCondition_operator rfl]
  simp [meets, Json.items?]

theorem matchesQuery_notIn_singleton (d : Document) (v : Json) :
    matchesQuery d (Term.query ⟨name, .notIn [v]⟩) = !equals (field d name) v := by
  rw [matchesQuery_term, matchesEntry_eq_meetsCondition hand hor, Predicate.toJson,
    meetsCondition_operator rfl]
  simp [meets, Json.items?]

theorem matchesQuery_ne (d : Document) (v : Json) :
    matchesQuery d (Term.query ⟨name, .ne v⟩) = !equals (field d name) v := by
  rw [matchesQuery_term, matchesEntry_eq_meetsCondition hand hor, Predicate.toJson,
    meetsCondition_operator rfl]
  simp [meets]

end Conditions

/-- A field is in the list of one value exactly if it is not unequal to the value, and exactly if it
is not outside the list. Equality says the same on all documents exactly if the value is no object
of operators. -/
theorem equality_agrees {name : String} (hand : name ≠ "$and") (hor : name ≠ "$or") (v : Json) :
    (∀ d : Document,
      (matchesQuery d (Term.query ⟨name, .isIn [v]⟩) = true ↔
        ¬ matchesQuery d (Term.query ⟨name, .ne v⟩) = true) ∧
      (matchesQuery d (Term.query ⟨name, .isIn [v]⟩) = true ↔
        ¬ matchesQuery d (Term.query ⟨name, .notIn [v]⟩) = true)) ∧
    ((∀ d : Document,
      (matchesQuery d (Term.query ⟨name, .eq v⟩) = true ↔
        matchesQuery d (Term.query ⟨name, .isIn [v]⟩) = true)) ↔
      ¬ v.IsOperators) := by
  constructor
  · intro d
    rw [matchesQuery_isIn_singleton hand hor, matchesQuery_ne hand hor,
      matchesQuery_notIn_singleton hand hor]
    simp
  · constructor
    · intro hagree hoperators
      obtain ⟨w, hw⟩ := exists_meetsCondition_ne_equals hoperators
      have hfield : field [(name, w)] name = w := by simp [field, Members.get?]
      have hboth := hagree [(name, w)]
      rw [matchesQuery_eq hand hor, matchesQuery_isIn_singleton hand hor, hfield] at hboth
      exact hw (Bool.eq_iff_iff.mpr hboth)
    · intro hplain d
      rw [matchesQuery_eq hand hor, matchesQuery_isIn_singleton hand hor,
        meetsCondition_of_not_isOperators hplain]

end Engine

/-- A nested object that names no operator is compared as a whole by all four conditions. -/
theorem equality_agrees_nested :
    let v : Json := .object [("unit", .object [("$gt", .ofInt 30)])]
    "age" ≠ "$and" ∧ "age" ≠ "$or" ∧ ¬ v.IsOperators ∧
      ∀ d : Document,
        (matchesQuery d (Term.query ⟨"age", .eq v⟩) = true ↔
          matchesQuery d (Term.query ⟨"age", .isIn [v]⟩) = true) := by
  intro v
  have hplain : ¬ v.IsOperators := fun h => by simpa [isOperator] using h.2 _ List.mem_cons_self
  exact ⟨by decide, by decide, hplain, (equality_agrees (by decide) (by decide) v).2.mpr hplain⟩

/-- Equality with the object whose one member is the operator `$gt` with thirty is met by an age
above thirty, which is not in the list of that object. -/
theorem equality_of_operators :
    let v : Json := .object [("$gt", .ofInt 30)]
    let d : Document := [("age", .ofInt 36)]
    matchesQuery d (Term.query ⟨"age", .eq v⟩) = true ∧
      matchesQuery d (Term.query ⟨"age", .isIn [v]⟩) = false ∧
      matchesQuery d (Term.query ⟨"age", .ne v⟩) = true ∧
      matchesQuery d (Term.query ⟨"age", .notIn [v]⟩) = true := by
  decide +kernel

end Document
end TenantStore
