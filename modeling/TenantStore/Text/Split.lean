/-!
# Cutting text at a character

Text is cut at the first occurrence of a character (`splitAtFirst_eq_some_iff`), or at all of them.
The pieces between all occurrences, joined by the character again, are the text (`joined_pieces`).
-/

namespace TenantStore.Text

/-- The text up to the first occurrence of a character and the text after it. -/
def splitAtFirst (mark : Char) : List Char → Option (List Char × List Char)
  | [] => none
  | c :: cs =>
    if c = mark then some ([], cs)
    else (splitAtFirst mark cs).map fun (front, back) => (c :: front, back)

/-- The pieces between the occurrences of a character. -/
def pieces (mark : Char) : List Char → List (List Char)
  | [] => [[]]
  | c :: cs =>
    if c = mark then [] :: pieces mark cs
    else
      match pieces mark cs with
      | piece :: rest => (c :: piece) :: rest
      | [] => [[c]]

/-- Pieces with a character between them. -/
def joined (mark : Char) : List (List Char) → List Char
  | [] => []
  | [piece] => piece
  | piece :: rest => piece ++ mark :: joined mark rest

theorem splitAtFirst_eq_none_iff {mark : Char} {cs : List Char} :
    splitAtFirst mark cs = none ↔ mark ∉ cs := by
  induction cs with
  | nil => simp [splitAtFirst]
  | cons c cs ih =>
    by_cases h : c = mark
    · simp [splitAtFirst, h]
    · simp [splitAtFirst, h, ih, Ne.symm h]

/-- The first part is the longest one without the character. -/
theorem splitAtFirst_eq_some_iff {mark : Char} {cs front back : List Char} :
    splitAtFirst mark cs = some (front, back) ↔ cs = front ++ mark :: back ∧ mark ∉ front := by
  induction cs generalizing front with
  | nil => simp [splitAtFirst]
  | cons c cs ih =>
    by_cases h : c = mark
    · subst h
      cases front with
      | nil => simp [splitAtFirst, eq_comm]
      | cons d front =>
        simp only [splitAtFirst, List.cons_append, List.cons.injEq, List.mem_cons]
        constructor
        · intro h
          simp at h
        · rintro ⟨⟨hd, _⟩, hnot⟩
          exact absurd (Or.inl hd) hnot
    · cases front with
      | nil => simp [splitAtFirst, h]
      | cons d front =>
        simp only [splitAtFirst, if_neg h, Option.map_eq_some_iff, Prod.exists, Prod.mk.injEq,
          List.cons_append, List.cons.injEq, List.mem_cons, not_or]
        constructor
        · rintro ⟨front', back', hsplit, ⟨rfl, rfl⟩, rfl⟩
          obtain ⟨hcs, hnot⟩ := ih.mp hsplit
          exact ⟨⟨rfl, hcs⟩, Ne.symm h, hnot⟩
        · rintro ⟨⟨rfl, hcs⟩, -, hnot⟩
          exact ⟨front, back, ih.mpr ⟨hcs, hnot⟩, ⟨rfl, rfl⟩, rfl⟩

theorem pieces_ne_nil (mark : Char) (cs : List Char) : pieces mark cs ≠ [] := by
  cases cs with
  | nil => simp [pieces]
  | cons c cs =>
    simp only [pieces]
    split
    · simp
    · split <;> simp

/-- Joining the pieces gives the text back. -/
theorem joined_pieces (mark : Char) (cs : List Char) : joined mark (pieces mark cs) = cs := by
  induction cs with
  | nil => rfl
  | cons c cs ih =>
    have hne := pieces_ne_nil mark cs
    simp only [pieces]
    split
    · rename_i h
      cases hp : pieces mark cs with
      | nil => exact absurd hp hne
      | cons piece rest =>
        rw [hp] at ih
        simp [joined, ih, h]
    · cases hp : pieces mark cs with
      | nil => exact absurd hp hne
      | cons piece rest =>
        rw [hp] at ih
        cases rest <;> simp_all [joined]

/-- A text without the character is one piece. -/
theorem pieces_of_not_mem {mark : Char} {cs : List Char} (h : mark ∉ cs) :
    pieces mark cs = [cs] := by
  induction cs with
  | nil => rfl
  | cons c cs ih =>
    rw [List.mem_cons, not_or] at h
    rw [pieces, if_neg (Ne.symm h.1), ih h.2]

/-- The character parts the pieces in front of it from those behind it. -/
theorem pieces_append_cons (mark : Char) (front back : List Char) :
    pieces mark (front ++ mark :: back) = pieces mark front ++ pieces mark back := by
  induction front with
  | nil => simp [pieces]
  | cons c front ih =>
    rw [List.cons_append, pieces, pieces, ih]
    split
    · rfl
    · cases hp : pieces mark front with
      | nil => exact absurd hp (pieces_ne_nil mark front)
      | cons piece rest => rfl

/-- No piece has the character. -/
theorem not_mem_of_mem_pieces {mark : Char} {cs piece : List Char} (h : piece ∈ pieces mark cs) :
    mark ∉ piece := by
  induction cs generalizing piece with
  | nil => simp_all [pieces]
  | cons c cs ih =>
    simp only [pieces] at h
    split at h
    · rcases List.mem_cons.mp h with rfl | h
      · simp
      · exact ih h
    · rename_i hc
      split at h
      · rename_i front rest hp
        rcases List.mem_cons.mp h with rfl | h
        · have := ih (hp ▸ List.mem_cons_self : front ∈ pieces mark cs)
          simp [this, Ne.symm hc]
        · exact ih (hp ▸ List.mem_cons_of_mem _ h)
      · simp_all [Ne.symm hc]

end TenantStore.Text
