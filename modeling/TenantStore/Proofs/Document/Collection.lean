import TenantStore.Document.Collection
import TenantStore.Proofs.Access

/-!
# What accesses do to the documents of a collection

An access may add a document at the end, put one in the place of the first document that a query
matches, or delete the documents that a query matches; whatever else it does, the documents stay
(`yields_answer`). So a condition on the documents is in force after an access if these three steps
leave it in force. What an access finds is stored and matches the query.
-/

namespace TenantStore.Collection

open Document (matchesQuery)

variable {β : Type} {query : Document}

/-! ## Replacing a document -/

/-- A document is put in the place of the first that passes a test, if there is one. -/
theorem replaceFirst_eq (test : Document → Bool) (new : Document) (ds : List Document) :
    replaceFirst test new ds = (ds.any test, ds.set (ds.findIdx test) new) := by
  induction ds with
  | nil => rfl
  | cons d ds ih =>
      rw [replaceFirst, List.any_cons, List.findIdx_cons]
      cases test d with
      | true => rfl
      | false =>
          rw [ih]
          rfl

/-- A document in place of another one changes nothing among the documents that pass a test which
neither of them passes. -/
theorem filter_replaceFirst {test p : Document → Bool} {new : Document} (hnew : p new = false)
    (htest : ∀ d, test d = true → p d = false) (ds : List Document) :
    (replaceFirst test new ds).2.filter p = ds.filter p := by
  induction ds with
  | nil => rfl
  | cons d ds ih =>
      rw [replaceFirst]
      by_cases h : test d = true
      · rw [if_pos h, List.filter_cons_of_neg (by simp [hnew]),
          List.filter_cons_of_neg (by simp [htest d h])]
      · rw [if_neg h]
        show (d :: (replaceFirst test new ds).2).filter p = _
        rw [List.filter_cons, ih, ← List.filter_cons]

/-- After a document was put in place of another one, all documents were there or are the new one.
-/
theorem mem_replaceFirst {test : Document → Bool} {new d : Document} {ds : List Document}
    (h : d ∈ (replaceFirst test new ds).2) : d = new ∨ d ∈ ds := by
  induction ds with
  | nil => exact nomatch h
  | cons d' ds ih =>
      rw [replaceFirst] at h
      split at h
      · rcases List.mem_cons.mp h with h | h
        · exact .inl h
        · exact .inr (.tail _ h)
      · rcases List.mem_cons.mp h with rfl | h
        · exact .inr List.mem_cons_self
        · exact (ih h).imp_right (.tail _)

/-- Deleting documents changes nothing among those that pass a test which no deleted one passes. -/
theorem filter_filter_not {test p : Document → Bool} (htest : ∀ d, test d = true → p d = false)
    (ds : List Document) : (ds.filter (!test ·)).filter p = ds.filter p := by
  rw [List.filter_filter]
  refine List.filter_congr fun d _ => ?_
  cases h : test d with
  | true => rw [htest d h]; rfl
  | false => exact Bool.and_true _

/-! ## Accesses -/

/-- A collection that does not fail does an access. -/
theorem guarded_apply {act : Collection → Except StoreError β × Collection} {c : Collection}
    (hfailure : c.failure = none) : guarded act c = act c := by
  rw [guarded, hfailure]

theorem answer_apply {act : Collection → β × Collection} {c : Collection}
    (hfailure : c.failure = none) :
    answer query act c = (.ok (act (c.receive query)).1, (act (c.receive query)).2) :=
  guarded_apply (c := c.receive query) hfailure

theorem count_apply [SearchEngine] {c : Collection} (hfailure : c.failure = none)
    (query : Document) :
    count query c = (.ok (c.select query).length, c.receive query) :=
  answer_apply hfailure

theorem mem_of_mem_cut {w : Window} {x : β} {xs : List β} (h : x ∈ w.cut xs) : x ∈ xs := by
  unfold Window.cut at h
  split at h
  · exact List.mem_of_mem_drop (List.mem_of_mem_take h)
  · exact List.mem_of_mem_drop h

section Access

variable {J : List Document → Prop}

/-- An access by a query leaves a condition in force as soon as what it does to the documents
does, since a collection that fails does nothing. -/
theorem yields_answer {P : β → Prop} {act : Collection → β × Collection}
    (hact : ∀ c, J c.documents → J (act c).2.documents ∧ P (act c).1) :
    (answer query act).Yields (fun c => J c.documents) P := by
  intro c hc
  unfold answer guarded
  split
  · exact ⟨hc, fun b hb => nomatch hb⟩
  · obtain ⟨hstate, hanswer⟩ := hact (c.receive query) hc
    refine ⟨hstate, ?_⟩
    rintro b ⟨⟩
    exact hanswer

theorem yields_insertOne {d : Document} (hadd : ∀ ds, J ds → J (ds ++ [d])) :
    (insertOne d).Yields (fun c => J c.documents) fun _ => True := by
  intro c hc
  refine ⟨?_, fun _ _ => trivial⟩
  unfold insertOne guarded
  split
  · exact hc
  · show J (if c.hasKeyOf d = true then _ else _ : Except StoreError Unit × Collection).2.documents
    split
    · exact hc
    · exact hadd c.documents hc

variable [SearchEngine]

theorem yields_updateOne {new : Document}
    (hreplace : ∀ ds, J ds → J (replaceFirst (matchesQuery · query) new ds).2) :
    (updateOne query new).Yields (fun c => J c.documents) fun _ => True :=
  yields_answer fun c hc => ⟨hreplace c.documents hc, trivial⟩

theorem yields_deleteMany (hdelete : ∀ ds, J ds → J (ds.filter (!matchesQuery · query))) :
    (deleteMany query).Yields (fun c => J c.documents) fun _ => True :=
  yields_answer fun c hc => ⟨hdelete c.documents hc, trivial⟩

theorem yields_count : (count query).Yields (fun c => J c.documents) fun _ => True :=
  yields_answer fun _ hc => ⟨hc, trivial⟩

theorem yields_findOne :
    (findOne query).Yields (fun c => J c.documents) fun found =>
      ∀ d ∈ found, matchesQuery d query = true ∧ ∃ ds, J ds ∧ d ∈ ds := by
  refine yields_answer fun c hc => ⟨hc, ?_⟩
  intro d hd
  have hfound : c.documents.find? (matchesQuery · query) = some d := hd
  have hmatch := List.find?_some hfound
  exact ⟨hmatch, c.documents, hc, List.mem_of_find?_eq_some hfound⟩

theorem yields_find (w : Window) :
    (find query w).Yields (fun c => J c.documents) fun found =>
      ∀ d ∈ found, matchesQuery d query = true ∧ ∃ ds, J ds ∧ d ∈ ds := by
  refine yields_answer fun c hc => ⟨hc, ?_⟩
  intro d hd
  have hselected := List.mem_mergeSort.mp (mem_of_mem_cut hd)
  obtain ⟨hmem, hmatch⟩ := List.mem_filter.mp hselected
  exact ⟨hmatch, c.documents, hc, hmem⟩

end Access

end TenantStore.Collection
