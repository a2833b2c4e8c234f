import TenantStore.Document.Matching

/-!
# What a query of clauses matches

The query of a clause is the object that the clause is written as. A group matches a document
exactly when all or any of the queries of its clauses do, at any depth of nesting
(`matchesQuery_group_all`, `matchesQuery_group_any`). Conditions on different fields do not touch
one another, so together they match what each of them matches (`matchesQuery_terms`), and the last
condition of a list counts whatever stands in front of it (`matchesQuery_of_terms_append`).
-/

namespace TenantStore

/-- The query with one condition. -/
def Term.query (t : Term) : Document :=
  [(t.field, t.predicate.toJson)]

/-- The query that a clause is written as. -/
def Clause.query : Clause → Document
  | .term t => t.query
  | .group combinator clauses => (Selection.group combinator clauses).query

theorem Clause.toJson_eq_object_query (c : Clause) : c.toJson = .object c.query := by
  cases c with
  | term t => rfl
  | group combinator clauses =>
      rw [Clause.toJson, Clause.groupJson, Clause.listJson_eq_map]
      rfl

namespace Document

variable [SearchEngine] (d : Document)

/-! ## Groups -/

theorem matchesAll_clauses (cs : List Clause) :
    matchesAll d (cs.map Clause.toJson) = cs.all fun c => matchesQuery d c.query := by
  induction cs with
  | nil => rfl
  | cons c cs ih =>
      rw [List.map_cons, Clause.toJson_eq_object_query, matchesAll, ih, List.all_cons]

theorem matchesAny_clauses (cs : List Clause) :
    matchesAny d (cs.map Clause.toJson) = cs.any fun c => matchesQuery d c.query := by
  induction cs with
  | nil => rfl
  | cons c cs ih =>
      rw [List.map_cons, Clause.toJson_eq_object_query, matchesAny, ih, List.any_cons]

/-- A group of which all clauses have to hold matches what all of them match. -/
theorem matchesQuery_group_all (cs : List Clause) :
    matchesQuery d (Selection.group .all cs).query = true ↔
      ∀ c ∈ cs, matchesQuery d c.query = true := by
  have hentry : matchesQuery d (Selection.group .all cs).query =
      matchesAll d (cs.map Clause.toJson) := Bool.and_true _
  rw [hentry, matchesAll_clauses, List.all_eq_true]

/-- A group of which any clause suffices matches what some of them matches. -/
theorem matchesQuery_group_any (cs : List Clause) :
    matchesQuery d (Selection.group .any cs).query = true ↔
      ∃ c ∈ cs, matchesQuery d c.query = true := by
  have hentry : matchesQuery d (Selection.group .any cs).query =
      matchesAny d (cs.map Clause.toJson) := Bool.and_true _
  rw [hentry, matchesAny_clauses, List.any_eq_true]

/-! ## Conditions side by side -/

theorem matchesQuery_term (t : Term) :
    matchesQuery d t.query = matchesEntry d t.field t.predicate.toJson :=
  Bool.and_true _

/-- A condition under a new name is one more condition. -/
theorem matchesQuery_insert {ms : Members Json} {name : String}
    (hfresh : Members.get? ms name = none) (v : Json) :
    matchesQuery d (Members.insert ms name v) = (matchesQuery d ms && matchesEntry d name v) := by
  induction ms with
  | nil => simp [Members.insert, matchesQuery]
  | cons m rest ih =>
      obtain ⟨k, w⟩ := m
      have hk : k ≠ name := by
        rintro rfl
        simp [Members.get?] at hfresh
      rw [Members.get?, if_neg hk] at hfresh
      rw [Members.insert, if_neg hk]
      split
      · rw [matchesQuery, Bool.and_comm]
      · rw [matchesQuery, matchesQuery, ih hfresh, Bool.and_assoc]

/-- The condition that was put under a name last is met by every document that matches. -/
theorem matchesEntry_of_insert {ms : Members Json} {name : String} {v : Json}
    (h : matchesQuery d (Members.insert ms name v) = true) : matchesEntry d name v = true := by
  induction ms with
  | nil => simpa [Members.insert, matchesQuery] using h
  | cons m rest ih =>
      obtain ⟨k, w⟩ := m
      rw [Members.insert] at h
      split at h
      · rw [matchesQuery, Bool.and_eq_true] at h
        exact h.1
      · split at h
        · rw [matchesQuery, Bool.and_eq_true] at h
          exact h.1
        · rw [matchesQuery, Bool.and_eq_true] at h
          exact ih h.2

/-- Conditions on fields that are new and all different are so many more conditions. -/
theorem matchesQuery_foldl_insert {ts : List Term} {ms : Members Json}
    (hfields : ts.Pairwise fun s t => s.field ≠ t.field)
    (hfresh : ∀ t ∈ ts, Members.get? ms t.field = none) :
    matchesQuery d (ts.foldl (fun ms t => Members.insert ms t.field t.predicate.toJson) ms) = true ↔
      matchesQuery d ms = true ∧ ∀ t ∈ ts, matchesQuery d t.query = true := by
  induction ts generalizing ms with
  | nil => simp
  | cons t ts ih =>
      obtain ⟨hhead, hrest⟩ := List.pairwise_cons.mp hfields
      have hnext : ∀ s ∈ ts,
          Members.get? (Members.insert ms t.field t.predicate.toJson) s.field = none := by
        intro s hs
        rw [Members.get?_insert_of_ne (Ne.symm (hhead s hs))]
        exact hfresh s (List.mem_cons_of_mem _ hs)
      rw [List.foldl_cons, ih hrest hnext, matchesQuery_insert d (hfresh t List.mem_cons_self),
        Bool.and_eq_true, and_assoc, ← matchesQuery_term, List.forall_mem_cons]

/-- Conditions on fields that are all different match what all of them match. -/
theorem matchesQuery_terms {ts : List Term} (hfields : ts.Pairwise fun s t => s.field ≠ t.field) :
    matchesQuery d (Selection.terms ts).query = true ↔
      ∀ t ∈ ts, matchesQuery d t.query = true := by
  rw [Selection.query, matchesQuery_foldl_insert d hfields fun _ _ => rfl, matchesQuery,
    eq_self, true_and]

/-- The last condition of a list is met, whatever stands in front of it. -/
theorem matchesQuery_of_terms_append {ts : List Term} {t : Term}
    (h : matchesQuery d (Selection.terms (ts ++ [t])).query = true) :
    matchesQuery d t.query = true := by
  rw [Selection.query, List.foldl_append] at h
  rw [matchesQuery_term]
  exact matchesEntry_of_insert d h

/-! ## Strings -/

omit [SearchEngine] in
/-- Nothing equals a string but the string itself. -/
theorem equals_string_iff (v : Json) (s : String) :
    Json.equals v (.string s) = true ↔ v = .string s := by
  cases v with
  | string t => simp [Json.equals, Json.compare?, Json.same]
  | _ => simp [Json.equals, Json.compare?, Json.same]

/-- A field that is no combinator equals a string exactly when the document has the string there. -/
theorem matchesEntry_string_iff {name : String} (hand : name ≠ "$and") (hor : name ≠ "$or")
    (s : String) :
    matchesEntry d name (.string s) = true ↔ Members.get? d name = some (.string s) := by
  rw [matchesEntry, if_neg hand, if_neg hor, meetsCondition, equals_string_iff, field]
  · cases Members.get? d name <;> simp
  all_goals simp

end Document
end TenantStore
