import TenantStore.Paging.Query
import TenantStore.Proofs.Json.Schema

/-!
# Parts of a value in full form

A member is read off the value that it is written as, and what is written is in full form, where a
number is one of 64 bits. In turn, a number that is read is one of 64 bits, and each item of a list
that is read conforms to the schema of the items.
-/

namespace TenantStore

/-- The number is an unsigned number of 64 bits. -/
def IsUnsigned (n : Nat) : Prop :=
  n < Nat.pow 2 64

instance (n : Nat) : Decidable (IsUnsigned n) :=
  inferInstanceAs (Decidable (_ < _))

/-! ## Members as values -/

namespace Json

theorem natural?_ofNat {n : Nat} (h : IsUnsigned n) : (ofNat n).natural? = some n := by
  have hpow : Int.pow 2 64 = (Nat.pow 2 64 : Nat) := by decide
  rw [IsUnsigned] at h
  rw [ofNat, ofInt, natural?, hpow]
  generalize Nat.pow 2 64 = bound at h
  rw [if_pos ⟨Int.natCast_nonneg n, Int.ofNat_lt.mpr h⟩, Int.toNat_natCast]

theorem integer?_ofInt {n : Int} (h : IsSigned n) : (ofInt n).integer? = some n := by
  refine if_pos ⟨h.1, ?_⟩
  have hmax : maxInteger = Int.pow 2 63 - 1 := rfl
  have hle := h.2
  omega

theorem isUnsigned_of_natural? {v : Json} {n : Nat} (h : v.natural? = some n) :
    IsUnsigned n := by
  have hpow : Int.pow 2 64 = (Nat.pow 2 64 : Nat) := by decide
  rw [natural?.eq_def, hpow] at h
  rw [IsUnsigned]
  generalize Nat.pow 2 64 = bound at h
  split at h
  · split at h
    · cases h
      omega
    · cases h
  · cases h

theorem isSigned_of_integer? {v : Json} {n : Int} (h : v.integer? = some n) : IsSigned n := by
  rw [integer?.eq_def] at h
  split at h
  · split at h
    · next hbounds =>
        cases h
        exact ⟨hbounds.1, Int.le_sub_one_of_lt hbounds.2⟩
    · cases h
  · cases h

theorem isUnsigned_naturalAt (ms : Members Json) (name : String) :
    IsUnsigned (naturalAt ms name) := by
  rw [naturalAt]
  cases h : (Members.get? ms name).bind natural? with
  | none => decide
  | some n =>
      obtain ⟨v, -, hv⟩ := Option.bind_eq_some_iff.mp h
      exact isUnsigned_of_natural? hv

theorem isSigned_integerAt (ms : Members Json) (name : String) : IsSigned (integerAt ms name) := by
  rw [integerAt]
  cases h : (Members.get? ms name).bind integer? with
  | none => decide
  | some n =>
      obtain ⟨v, -, hv⟩ := Option.bind_eq_some_iff.mp h
      exact isSigned_of_integer? hv

/-- Named strings are read off the object that they are written as. -/
theorem textsAt_eq {ms : Members Json} {name : String} {t : Members String}
    (h : Members.get? ms name = some (ofTexts t)) : textsAt ms name = t := by
  have hmembers : membersAt ms name = t.map fun m => (m.1, .string m.2) := by
    rw [membersAt, h]
    rfl
  rw [textsAt, hmembers, List.filterMap_map]
  exact List.filterMap_some

/-- A list of values is read off the list that it is written as, if each of them is. -/
theorem map_itemsAt {α : Type} {ms : Members Json} {name : String} {f : α → Json} {g : Json → α}
    {xs : List α} (h : Members.get? ms name = some (.array (xs.map f)))
    (hg : ∀ x ∈ xs, g (f x) = x) : (itemsAt ms name).map g = xs := by
  have hitems : itemsAt ms name = xs.map f := by
    rw [itemsAt, h]
    rfl
  rw [hitems, List.map_map]
  exact (List.map_congr_left hg).trans (List.map_id _)

theorem naturalAt_eq {ms : Members Json} {name : String} {n : Nat} (hn : IsUnsigned n)
    (h : Members.get? ms name = some (ofNat n)) : naturalAt ms name = n := by
  rw [naturalAt, h, Option.bind_some, natural?_ofNat hn]
  rfl

theorem integerAt_eq {ms : Members Json} {name : String} {n : Int} (hn : IsSigned n)
    (h : Members.get? ms name = some (ofInt n)) : integerAt ms name = n := by
  rw [integerAt, h, Option.bind_some, integer?_ofInt hn]
  rfl

end Json

/-! ## Members in full form -/

namespace Schema

theorem conform_string (s : String) : conform .string (.string s) = .ok (.string s) := by
  rw [Schema.string, conform]

theorem conform_any (v : Json) : conform .any v = .ok v := by
  rw [conform]

theorem conform_texts (ts : Members String) :
    conform .texts (Json.ofTexts ts) = .ok (Json.ofTexts ts) := by
  have hcheck : checkTexts (ts.map fun m => (m.1, .string m.2)) = .ok () := by
    induction ts with
    | nil => rfl
    | cons m ts ih => exact ih
  rw [Json.ofTexts, conform, hcheck]
  rfl

theorem conform_natural {n : Nat} (h : IsUnsigned n) :
    conform .natural (Json.ofNat n) = .ok (Json.ofNat n) := by
  rw [conform, Json.natural?_ofNat h]

theorem conform_integer {n : Int} (h : IsSigned n) :
    conform .integer (Json.ofInt n) = .ok (Json.ofInt n) := by
  rw [conform, Json.integer?_ofInt h]

/-- A list whose items are in full form is in full form. -/
theorem conform_list {α : Type} {s : Schema} {f : α → Json} {xs : List α}
    (h : ∀ x ∈ xs, conform s (f x) = .ok (f x)) :
    conform (.list s) (.array (xs.map f)) = .ok (.array (xs.map f)) := by
  have hitems : (xs.map f).mapM (fun x => conform s x) = .ok (xs.map f) := by
    rw [mapM_eq_ok_iff, List.forall₂_map_left_iff, List.forall₂_map_right_iff, List.forall₂_same]
    exact h
  rw [conform, hitems]
  rfl

/-- A text that conforms is read as it is. -/
theorem eq_of_conform_text {expected : String} {flaw? : String → Option String} {v w : Json}
    (h : conform (.text expected flaw?) v = .ok w) : v = w := by
  cases v with
  | string s =>
      rw [conform] at h
      cases hflaw : flaw? s with
      | none =>
          rw [hflaw] at h
          exact Except.ok.inj h
      | some reason =>
          rw [hflaw] at h
          cases h
  | null | bool _ | number _ | array _ | object _ => simp [conform] at h

/-- Each item of a list that was read is one that the schema of the items reads. -/
theorem Fills.exists_conform_of_mem_itemsAt {fields : Fields} {pairs : List (String × Json)}
    (h : Fills fields pairs) (hnodup : (fields.map Prod.fst).Nodup) {name : String} {s : Schema}
    (hfield : (name, none, .list s) ∈ fields) {x : Json}
    (hx : x ∈ Json.itemsAt (Members.ofList pairs) name) : ∃ v, conform s v = .ok x := by
  obtain ⟨v, w, hv, hw⟩ := h.exists_get? hnodup hfield
  cases v with
  | array xs =>
      rw [conform] at hv
      obtain ⟨ys, hys, rfl⟩ := exists_of_map_eq_ok hv
      rw [Json.itemsAt, hw] at hx
      obtain ⟨v, -, hv⟩ := exists_mem_of_forall₂ (mapM_eq_ok_iff.mp hys) x hx
      exact ⟨v, hv⟩
  | null | bool _ | number _ | string _ | object _ => simp [conform] at hv

end Schema
end TenantStore
