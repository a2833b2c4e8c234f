/-!
# Members of an object

The members of a JSON object are kept as a list in strictly increasing order of their names, by code
points, so that two objects with the same members are the same list. `insert` keeps this order
(`Sorted.insert`), and `erase` does (`Sorted.erase`).

The laws of looking up (`get?_insert_self`, `get?_insert_of_ne`, `get?_erase_self`,
`get?_erase_of_ne`) hold of every list. `ext` says that in sorted lists looking up tells all there
is, and `perm_ofList` that of pairs with different names none is lost.
-/

namespace TenantStore

/-- Named values, by increasing name. -/
abbrev Members (β : Type) := List (String × β)

namespace Members

variable {β : Type}

/-- The value of a name. -/
def get? : Members β → String → Option β
  | [], _ => none
  | (k, v) :: rest, name => if k = name then some v else get? rest name

/-- The members have this name among theirs. -/
def has (ms : Members β) (name : String) : Bool :=
  (get? ms name).isSome

/-- Gives a name a value, in place of the one that it has. -/
def insert : Members β → String → β → Members β
  | [], name, value => [(name, value)]
  | (k, v) :: rest, name, value =>
    if k = name then (name, value) :: rest
    else if name < k then (name, value) :: (k, v) :: rest
    else (k, v) :: insert rest name value

/-- Takes a name away. -/
def erase : Members β → String → Members β
  | [], _ => []
  | (k, v) :: rest, name => if k = name then erase rest name else (k, v) :: erase rest name

/-- The members that the pairs give, the last of a name counting. -/
def ofList (pairs : List (String × β)) : Members β :=
  pairs.foldl (fun ms (name, value) => insert ms name value) []

/-- The names strictly increase. -/
def Sorted (ms : Members β) : Prop :=
  ms.Pairwise fun a b => a.1 < b.1

@[simp] theorem get?_nil (name : String) : get? ([] : Members β) name = none := rfl

@[simp] theorem get?_insert_self (ms : Members β) (name : String) (value : β) :
    get? (insert ms name value) name = some value := by
  induction ms with
  | nil => simp [insert, get?]
  | cons m rest ih =>
    obtain ⟨k, v⟩ := m
    by_cases hk : k = name
    · simp [insert, get?, hk]
    · by_cases hlt : name < k
      · simp [insert, get?, hk, hlt]
      · simp [insert, get?, hk, hlt, ih]

theorem get?_insert_of_ne {name other : String} (h : other ≠ name) (ms : Members β) (value : β) :
    get? (insert ms name value) other = get? ms other := by
  induction ms with
  | nil => simp [insert, get?, Ne.symm h]
  | cons m rest ih =>
    obtain ⟨k, v⟩ := m
    by_cases hk : k = name
    · subst hk
      simp [insert, get?, Ne.symm h]
    · by_cases hlt : name < k
      · simp [insert, get?, hk, hlt, Ne.symm h]
      · simp [insert, get?, hk, hlt, ih]

@[simp] theorem get?_erase_self (ms : Members β) (name : String) :
    get? (erase ms name) name = none := by
  induction ms with
  | nil => rfl
  | cons m rest ih =>
    obtain ⟨k, v⟩ := m
    by_cases hk : k = name
    · simp [erase, hk, ih]
    · simp [erase, get?, hk, ih]

theorem get?_erase_of_ne {name other : String} (h : other ≠ name) (ms : Members β) :
    get? (erase ms name) other = get? ms other := by
  induction ms with
  | nil => rfl
  | cons m rest ih =>
    obtain ⟨k, v⟩ := m
    by_cases hk : k = name
    · subst hk
      simp [erase, get?, Ne.symm h, ih]
    · simp [erase, get?, hk, ih]

/-- Inserting adds at most the name itself. -/
theorem mem_insert {ms : Members β} {name : String} {value : β} {m : String × β}
    (h : m ∈ insert ms name value) : m = (name, value) ∨ m ∈ ms := by
  induction ms with
  | nil => simpa [insert] using h
  | cons p rest ih =>
    obtain ⟨k, v⟩ := p
    simp only [insert] at h
    split at h
    · rcases List.mem_cons.mp h with h | h
      · exact Or.inl h
      · exact Or.inr (List.mem_cons_of_mem _ h)
    · split at h
      · rcases List.mem_cons.mp h with h | h
        · exact Or.inl h
        · exact Or.inr h
      · rcases List.mem_cons.mp h with h | h
        · exact Or.inr (h ▸ List.mem_cons_self)
        · exact (ih h).imp id (List.mem_cons_of_mem _)

/-- Erasing keeps a part of the members. -/
theorem erase_sublist (ms : Members β) (name : String) : List.Sublist (erase ms name) ms := by
  induction ms with
  | nil => exact List.Sublist.refl _
  | cons m rest ih =>
    obtain ⟨k, v⟩ := m
    simp only [erase]
    split
    · exact ih.cons _
    · exact ih.cons_cons _

theorem Sorted.erase {ms : Members β} (h : Sorted ms) (name : String) : Sorted (ms.erase name) :=
  List.Pairwise.sublist (erase_sublist ms name) h

theorem Sorted.insert {ms : Members β} (h : Sorted ms) (name : String) (value : β) :
    Sorted (Members.insert ms name value) := by
  induction ms with
  | nil => exact List.pairwise_singleton _ _
  | cons m rest ih =>
    obtain ⟨k, v⟩ := m
    obtain ⟨hhead, hrest⟩ := List.pairwise_cons.mp h
    simp only [Members.insert]
    split
    · rename_i hk
      subst hk
      exact List.pairwise_cons.mpr ⟨hhead, hrest⟩
    · rename_i hk
      split
      · rename_i hlt
        refine List.pairwise_cons.mpr ⟨fun b hb => ?_, h⟩
        rcases List.mem_cons.mp hb with rfl | hb
        · exact hlt
        · exact String.lt_trans hlt (hhead b hb)
      · rename_i hlt
        refine List.pairwise_cons.mpr ⟨fun b hb => ?_, ih hrest⟩
        rcases mem_insert hb with rfl | hb
        · rcases Decidable.em (k < name) with h' | h'
          · exact h'
          · exact absurd (String.le_antisymm (String.not_lt.mp hlt) (String.not_lt.mp h')) hk
        · exact hhead b hb

theorem Sorted.ofList (pairs : List (String × β)) : Sorted (Members.ofList pairs) := by
  suffices h : ∀ (l : List (String × β)) (ms : Members β), Sorted ms →
      Sorted (l.foldl (fun ms (name, value) => Members.insert ms name value) ms) from
    h pairs [] List.Pairwise.nil
  intro l
  induction l with
  | nil => exact fun _ h => h
  | cons p rest ih => exact fun ms h => ih _ (h.insert _ _)

/-- A new name is added to the members that there are. -/
theorem perm_insert {ms : Members β} {name : String} (h : get? ms name = none) (value : β) :
    (insert ms name value).Perm ((name, value) :: ms) := by
  induction ms with
  | nil => exact .refl _
  | cons m rest ih =>
    obtain ⟨k, v⟩ := m
    have hk : k ≠ name := by
      rintro rfl
      simp [get?] at h
    have hrest : get? rest name = none := by
      rwa [get?, if_neg hk] at h
    rw [insert, if_neg hk]
    split
    · exact .refl _
    · exact ((ih hrest).cons _).trans (.swap _ _ _)

/-- Pairs with different names are all kept. -/
theorem perm_ofList {pairs : List (String × β)} (h : pairs.Pairwise fun p q => p.1 ≠ q.1) :
    (ofList pairs).Perm pairs := by
  suffices hfold : ∀ ms : Members β, (∀ p ∈ pairs, get? ms p.1 = none) →
      (pairs.foldl (fun ms (name, value) => insert ms name value) ms).Perm (ms ++ pairs) from
    hfold [] fun _ _ => rfl
  induction h with
  | nil =>
    intro ms _
    rw [List.append_nil]
    exact .refl _
  | @cons p rest hp _ ih =>
    intro ms hms
    have hnew : ∀ q ∈ rest, get? (insert ms p.1 p.2) q.1 = none := by
      intro q hq
      rw [get?_insert_of_ne (Ne.symm (hp q hq))]
      exact hms q (List.mem_cons_of_mem p hq)
    have hinsert := perm_insert (hms p List.mem_cons_self) p.2
    refine (ih (insert ms p.1 p.2) hnew).trans ?_
    exact (hinsert.append_right rest).trans List.perm_middle.symm

theorem get?_eq_some_iff_mem {ms : Members β} (h : Sorted ms) {name : String} {value : β} :
    get? ms name = some value ↔ (name, value) ∈ ms := by
  induction ms with
  | nil => simp
  | cons m rest ih =>
    obtain ⟨k, v⟩ := m
    obtain ⟨hhead, hrest⟩ := List.pairwise_cons.mp h
    rw [get?, List.mem_cons]
    by_cases hk : k = name
    · subst hk
      have hnot : (k, value) ∉ rest := fun hmem => String.lt_irrefl k (hhead _ hmem)
      rw [if_pos rfl]
      simp [hnot, eq_comm]
    · rw [if_neg hk, ih hrest]
      simp [Ne.symm hk]

/-- A value that is found is that of a member. -/
theorem mem_of_get?_eq_some {ms : Members β} {name : String} {value : β}
    (h : get? ms name = some value) : (name, value) ∈ ms := by
  induction ms with
  | nil => cases h
  | cons m rest ih =>
    obtain ⟨k, v⟩ := m
    rw [get?] at h
    split at h
    · rename_i hk
      cases h
      exact hk ▸ List.mem_cons_self
    · exact List.mem_cons_of_mem _ (ih h)

/-- A name of no member has no value. -/
theorem get?_eq_none_of_not_mem {ms : Members β} {name : String}
    (h : name ∉ ms.map Prod.fst) : get? ms name = none := by
  induction ms with
  | nil => rfl
  | cons m rest ih =>
    obtain ⟨k, v⟩ := m
    have hk : k ≠ name := fun hk => h (hk ▸ List.mem_cons_self)
    rw [get?, if_neg hk, ih fun hmem => h (.tail _ hmem)]

/-- A name below all names of the members has no value. -/
theorem get?_eq_none_of_lt {ms : Members β} {name : String} (h : ∀ m ∈ ms, name < m.1) :
    get? ms name = none := by
  refine get?_eq_none_of_not_mem fun hmem => ?_
  obtain ⟨m, hm, hname⟩ := List.mem_map.mp hmem
  exact String.lt_irrefl name (hname ▸ h m hm)

/-- In sorted members looking up tells all there is. -/
theorem ext {xs ys : Members β} (hx : Sorted xs) (hy : Sorted ys)
    (h : ∀ name, get? xs name = get? ys name) : xs = ys := by
  induction xs generalizing ys with
  | nil =>
    cases ys with
    | nil => rfl
    | cons m rest => simpa [get?] using h m.1
  | cons m xs ih =>
    obtain ⟨k, v⟩ := m
    obtain ⟨hhead, hxs⟩ := List.pairwise_cons.mp hx
    cases ys with
    | nil => simpa [get?] using h k
    | cons n ys =>
      obtain ⟨l, w⟩ := n
      obtain ⟨hhead', hys⟩ := List.pairwise_cons.mp hy
      have hkl : k = l := by
        by_cases hne : k = l
        · exact hne
        · rcases Decidable.em (k < l) with hlt | hge
          · have := h k
            rw [@get?_eq_none_of_lt _ ((l, w) :: ys) k] at this
            · simp [get?] at this
            · intro m hm
              rcases List.mem_cons.mp hm with rfl | hm
              · exact hlt
              · exact String.lt_trans hlt (hhead' m hm)
          · have hlt : l < k := by
              rcases Decidable.em (l < k) with h' | h'
              · exact h'
              · exact absurd (String.le_antisymm (String.not_lt.mp h') (String.not_lt.mp hge)) hne
            have := h l
            rw [@get?_eq_none_of_lt _ ((k, v) :: xs) l] at this
            · simp [get?] at this
            · intro m hm
              rcases List.mem_cons.mp hm with rfl | hm
              · exact hlt
              · exact String.lt_trans hlt (hhead m hm)
      subst hkl
      have hvw : v = w := by simpa [get?] using h k
      subst hvw
      congr 1
      refine ih hxs hys fun name => ?_
      by_cases hname : k = name
      · subst hname
        rw [get?_eq_none_of_lt hhead, get?_eq_none_of_lt hhead']
      · simpa [get?, hname] using h name

end Members
end TenantStore
