/-!
# Blank text

White space is the Unicode property `White_Space`: the ASCII blanks, the next-line character, the
no-break space and the spaces and separators of the general punctuation block. The zero-width
characters do not have the property and count as content.

`isBlank_iff` says that a text is blank exactly when it holds nothing but white space, and
`trimmed_nil_iff` that trimming leaves nothing exactly then.
-/

namespace TenantStore.Text

/-- The code points with the property `White_Space`, as ranges with both ends included. -/
def spaceRanges : List (Nat × Nat) :=
  [(0x09, 0x0D), (0x20, 0x20), (0x85, 0x85), (0xA0, 0xA0), (0x1680, 0x1680), (0x2000, 0x200A),
   (0x2028, 0x2029), (0x202F, 0x202F), (0x205F, 0x205F), (0x3000, 0x3000)]

/-- The character has the property `White_Space`. -/
def isSpace (c : Char) : Bool :=
  spaceRanges.any fun (low, high) => low ≤ c.toNat && c.toNat ≤ high

/-- The characters without the white space at either end. -/
def trimmed (s : List Char) : List Char :=
  ((s.dropWhile isSpace).reverse.dropWhile isSpace).reverse

/-- The text without the white space at either end. -/
def trim (s : String) : String :=
  String.ofList (trimmed s.toList)

/-- The text holds nothing but white space. -/
def isBlank (s : String) : Bool :=
  s.toList.all isSpace

theorem isBlank_iff {s : String} : isBlank s = true ↔ ∀ c ∈ s.toList, isSpace c = true :=
  List.all_eq_true

/-- Every white space character of ASCII is one here. -/
theorem isSpace_of_isWhitespace {c : Char} (h : c.isWhitespace = true) : isSpace c = true := by
  simp only [Char.isWhitespace, Bool.or_eq_true, decide_eq_true_eq] at h
  rcases h with ((h | h) | h) | h <;> subst h <;> decide

/-- Trimming leaves nothing exactly when there is nothing but white space. -/
theorem trimmed_nil_iff {s : List Char} : trimmed s = [] ↔ ∀ c ∈ s, isSpace c = true := by
  have drop_nil : ∀ l : List Char, l.dropWhile isSpace = [] ↔ ∀ c ∈ l, isSpace c = true := by
    intro l
    induction l with
    | nil => simp
    | cons a l ih =>
      by_cases h : isSpace a = true
      · simp [h, ih]
      · simp [h]
  have all_of_drop : ∀ l : List Char, (∀ c ∈ l.dropWhile isSpace, isSpace c = true) →
      ∀ c ∈ l, isSpace c = true := by
    intro l
    induction l with
    | nil => simp
    | cons a l ih =>
      by_cases h : isSpace a = true
      · rw [List.dropWhile_cons_of_pos h]
        intro hl c hc
        rcases List.mem_cons.mp hc with rfl | hc
        · exact h
        · exact ih hl c hc
      · rw [List.dropWhile_cons_of_neg h]
        exact fun hl => hl
  rw [trimmed, List.reverse_eq_nil_iff, drop_nil]
  constructor
  · intro h
    exact all_of_drop s fun c hc => h c (List.mem_reverse.mpr hc)
  · intro h c hc
    exact h c ((List.dropWhile_sublist isSpace).subset (List.mem_reverse.mp hc))

theorem trim_eq_empty_iff {s : String} : trim s = "" ↔ isBlank s = true := by
  rw [isBlank_iff, ← trimmed_nil_iff, trim]
  constructor
  · intro h
    have h' := congrArg String.toList h
    simpa using h'
  · intro h
    rw [h]

end TenantStore.Text
