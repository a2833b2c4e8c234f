import Mathlib.Data.List.Forall2
import TenantStore.Proofs.Cypher.Parameter

/-!
# Scanning text

A text is taken apart into the names between its backticks, the placeholders outside of them, and
what is left of the text without the names (`parts?`). What is written from pieces is scanned into
the same pieces, as long as some other character stands behind every name (`pieces_write`). So the
parts of a text that is put together from others are put together from theirs (`Scans.append`),
whatever its names are (`Scans.quotedName_append`).
-/

namespace TenantStore.Cypher

/-! ## Parts of a text -/

namespace Piece

/-- The text of a piece. -/
def write : Piece → List Char
  | char c => [c]
  | name s => (quotedName s).toList

/-- The name that a piece is. -/
def name? : Piece → Option String
  | char _ => none
  | name s => some s

/-- The character outside of names that a piece is. -/
def char? : Piece → Option Char
  | char c => some c
  | name _ => none

end Piece

/-- The longest word that the pieces begin with. -/
def leadingWord : List Piece → List Char
  | .char c :: ps => if isWordChar c then c :: leadingWord ps else []
  | _ => []

/-- The words that stand behind dollar signs. -/
def dollarWords : List Piece → List String
  | [] => []
  | .char c :: ps =>
    if c = '$' then String.ofList (leadingWord ps) :: dollarWords ps else dollarWords ps
  | .name _ :: ps => dollarWords ps

/-- What a text is taken apart into. -/
structure Parts where
  /-- The names between backticks, in order. -/
  names : List String
  /-- The names of the placeholders outside of these, in order. -/
  placeholders : List String
  /-- The text without the names and their backticks. -/
  outside : String
  deriving DecidableEq, Repr

namespace Parts

/-- The parts of the text that is made of some pieces. -/
def ofPieces (ps : List Piece) : Parts :=
  ⟨ps.filterMap Piece.name?, dollarWords ps, String.ofList (ps.filterMap Piece.char?)⟩

/-- The parts of texts side by side. -/
def join (combinator : Combinator) (ps : List Parts) : Parts :=
  ⟨ps.flatMap names, ps.flatMap placeholders, Cypher.join combinator (ps.map outside)⟩

end Parts

/-- The parts of a text, or nothing if it ends within a name. -/
def parts? (text : String) : Option Parts :=
  (pieces .outside text.toList).map Parts.ofPieces

/-! ## What is written from pieces -/

/-- No character is a backtick, and behind every name stands a character. -/
def Framed : List Piece → Prop
  | [] => True
  | .char c :: ps => c ≠ backtick ∧ Framed ps
  | .name _ :: ps => (∃ c, ps.head? = some (.char c)) ∧ Framed ps

theorem Framed.append {ps qs : List Piece} (hps : Framed ps) (hqs : Framed qs) :
    Framed (ps ++ qs) := by
  induction ps with
  | nil => exact hqs
  | cons p ps ih =>
      cases p with
      | char c => exact ⟨hps.1, ih hps.2⟩
      | name s =>
          obtain ⟨⟨c, hc⟩, hrest⟩ := hps
          refine ⟨⟨c, ?_⟩, ih hrest⟩
          show (ps ++ qs).head? = _
          rw [List.head?_append, hc]
          rfl

/-- Pieces that are written in front of a text are scanned in front of it. -/
theorem pieces_write {ps : List Piece} (h : Framed ps) (text : List Char) :
    pieces .outside (ps.flatMap Piece.write ++ text) = (pieces .outside text).map (ps ++ ·) := by
  induction ps with
  | nil =>
      show pieces .outside text = _
      cases pieces .outside text <;> rfl
  | cons p ps ih =>
      rw [List.flatMap_cons, List.append_assoc]
      cases p with
      | char c =>
          show pieces .outside (c :: (ps.flatMap Piece.write ++ text)) = _
          rw [pieces, if_neg h.1, ih h.2, Option.map_map]
          rfl
      | name s =>
          obtain ⟨⟨c, hc⟩, hrest⟩ := h
          have hhead : (ps.flatMap Piece.write ++ text).head? ≠ some backtick := by
            obtain ⟨qs, rfl⟩ := List.head?_eq_some_iff.mp hc
            exact fun h => hrest.1 (Option.some.inj h)
          rw [Piece.write, pieces_quotedName s hhead, ih hrest, Option.map_map]
          rfl

/-- The text is written from pieces that it is scanned into, and has these parts wherever no word
goes on behind it. -/
def Scans (text : String) (parts : Parts) : Prop :=
  ∃ ps : List Piece, Framed ps ∧ text.toList = ps.flatMap Piece.write ∧
    ps.filterMap Piece.name? = parts.names ∧ ps.filterMap Piece.char? = parts.outside.toList ∧
      ∀ qs, leadingWord qs = [] →
        dollarWords (ps ++ qs) = parts.placeholders ++ dollarWords qs

/-- A text that scans has its parts. -/
theorem Scans.parts?_eq {text : String} {parts : Parts} (h : Scans text parts) :
    parts? text = some parts := by
  obtain ⟨ps, hframed, htext, hnames, houtside, hdollars⟩ := h
  have hpieces := pieces_write hframed []
  have hwords := hdollars [] rfl
  rw [List.append_nil] at hpieces hwords
  rw [parts?, htext, hpieces, pieces, Option.map_some, Option.map_some, List.append_nil,
    Parts.ofPieces, hnames, hwords, houtside, String.ofList_toList]
  exact congrArg (fun words => some (Parts.mk _ words _)) (List.append_nil _)

example :
    parts? "n.`a``$x` = $f0 AND n.`` IS NULL" =
      some ⟨["a`$x", ""], ["f0"], "n. = $f0 AND n. IS NULL"⟩ := by
  decide +kernel

/-- The text begins with a character that neither a name nor a word goes on with. -/
def StartsApart (text : String) : Prop :=
  ∃ c ∈ text.toList.head?, c ≠ backtick ∧ isWordChar c = false

instance (text : String) : Decidable (StartsApart text) :=
  decidable_of_iff (text.toList.head?.any fun c => c ≠ backtick && !isWordChar c) (by
    simp [StartsApart, Option.any_eq_true])

theorem StartsApart.append {s : String} (hs : StartsApart s) (t : String) :
    StartsApart (s ++ t) := by
  obtain ⟨c, hhead, hc⟩ := hs
  refine ⟨c, ?_, hc⟩
  rw [String.toList_append, List.head?_append, Option.mem_def.mp hhead]
  rfl

/-- Such a text is written from pieces with that character in front. -/
theorem StartsApart.exists_head? {text : String} (h : StartsApart text) {ps : List Piece}
    (htext : text.toList = ps.flatMap Piece.write) :
    ∃ c, ps.head? = some (.char c) ∧ isWordChar c = false := by
  obtain ⟨c, hhead, hc, hword⟩ := h
  rw [htext, Option.mem_def] at hhead
  cases ps with
  | nil => cases hhead
  | cons p ps =>
      cases p with
      | char d =>
          cases hhead
          exact ⟨c, rfl, hword⟩
      | name s =>
          rw [List.flatMap_cons, Piece.write, quotedName, String.toList_ofList] at hhead
          exact absurd (Option.some.inj hhead).symm hc

theorem StartsApart.leadingWord_append {text : String} (h : StartsApart text) {ps : List Piece}
    (htext : text.toList = ps.flatMap Piece.write) (qs : List Piece) :
    leadingWord (ps ++ qs) = [] := by
  obtain ⟨c, hhead, hword⟩ := h.exists_head? htext
  obtain ⟨ps, rfl⟩ := List.head?_eq_some_iff.mp hhead
  rw [List.cons_append, leadingWord, hword]
  rfl

/-- A text that begins apart may stand behind any other. -/
theorem Scans.append {s t : String} {p q : Parts} (hs : Scans s p) (ht : Scans t q)
    (hapart : StartsApart t) :
    Scans (s ++ t)
      ⟨p.names ++ q.names, p.placeholders ++ q.placeholders, p.outside ++ q.outside⟩ := by
  obtain ⟨ps, hframed, htext, hnames, houtside, hdollars⟩ := hs
  obtain ⟨qs, hframed', htext', hnames', houtside', hdollars'⟩ := ht
  refine ⟨ps ++ qs, hframed.append hframed', ?_, ?_, ?_, fun rs hrs => ?_⟩
  · rw [String.toList_append, htext, htext', List.flatMap_append]
  · rw [List.filterMap_append, hnames, hnames']
  · rw [List.filterMap_append, houtside, houtside', ← String.toList_append]
  · have hrest := hapart.leadingWord_append htext' rs
    rw [List.append_assoc, hdollars _ hrest, hdollars' rs hrs, ← List.append_assoc]

/-! ## Plain text, names and placeholders -/

/-- The text has no backticks and no dollar signs. -/
def IsPlain (text : String) : Prop :=
  ∀ c ∈ text.toList, c ≠ backtick ∧ c ≠ '$'

instance (text : String) : Decidable (IsPlain text) :=
  decidable_of_iff (text.toList.all fun c => c ≠ backtick && c ≠ '$') (by
    simp [IsPlain, List.all_eq_true])

section Plain

variable {cs : List Char}

theorem framed_map_char (hcs : backtick ∉ cs) : Framed (cs.map .char) := by
  induction cs with
  | nil => trivial
  | cons c cs ih =>
      have hc : c ≠ backtick := fun h => hcs (h ▸ List.mem_cons_self)
      exact ⟨hc, ih fun h => hcs (.tail c h)⟩

theorem flatMap_write_map_char (cs : List Char) : (cs.map Piece.char).flatMap Piece.write = cs := by
  rw [List.flatMap_map]
  exact List.flatMap_singleton' cs

theorem filterMap_name?_map_char (cs : List Char) :
    (cs.map Piece.char).filterMap Piece.name? = [] := by
  rw [List.filterMap_map]
  exact List.filterMap_eq_nil_iff.mpr fun _ _ => rfl

theorem filterMap_char?_map_char (cs : List Char) :
    (cs.map Piece.char).filterMap Piece.char? = cs := by
  rw [List.filterMap_map]
  exact List.filterMap_some

theorem dollarWords_map_char_append (hcs : '$' ∉ cs) (qs : List Piece) :
    dollarWords (cs.map .char ++ qs) = dollarWords qs := by
  induction cs with
  | nil => rfl
  | cons c cs ih =>
      have hc : c ≠ '$' := fun h => hcs (h ▸ List.mem_cons_self)
      rw [List.map_cons, List.cons_append, dollarWords, if_neg hc, ih fun h => hcs (.tail c h)]

theorem leadingWord_map_char_append (hcs : ∀ c ∈ cs, isWordChar c = true) {qs : List Piece}
    (hqs : leadingWord qs = []) : leadingWord (cs.map .char ++ qs) = cs := by
  induction cs with
  | nil => exact hqs
  | cons c cs ih =>
      obtain ⟨hc, hrest⟩ := List.forall_mem_cons.mp hcs
      rw [List.map_cons, List.cons_append, leadingWord, if_pos hc, ih hrest]

end Plain

/-- Behind plain text no care is needed. -/
theorem Scans.plain_append {s t : String} (hs : IsPlain s) {p : Parts} (ht : Scans t p) :
    Scans (s ++ t) ⟨p.names, p.placeholders, s ++ p.outside⟩ := by
  obtain ⟨ps, hframed, htext, hnames, houtside, hdollars⟩ := ht
  have hframed' : Framed (s.toList.map .char) := framed_map_char fun h => (hs _ h).1 rfl
  have hdollar : '$' ∉ s.toList := fun h => (hs _ h).2 rfl
  refine ⟨s.toList.map .char ++ ps, hframed'.append hframed, ?_, ?_, ?_, fun qs hqs => ?_⟩
  · rw [String.toList_append, htext, List.flatMap_append, flatMap_write_map_char]
  · rw [List.filterMap_append, filterMap_name?_map_char, hnames, List.nil_append]
  · rw [List.filterMap_append, filterMap_char?_map_char, houtside, ← String.toList_append]
  · rw [List.append_assoc, dollarWords_map_char_append hdollar, hdollars qs hqs]

theorem scans_empty : Scans "" ⟨[], [], ""⟩ :=
  ⟨[], trivial, rfl, rfl, rfl, fun _ _ => rfl⟩

theorem scans_plain {s : String} (hs : IsPlain s) : Scans s ⟨[], [], s⟩ := by
  have hempty := scans_empty.plain_append hs
  rwa [String.append_empty] at hempty

/-- Plain text behind another one. -/
theorem Scans.append_plain {s t : String} {p : Parts} (hs : Scans s p) (ht : IsPlain t)
    (hapart : StartsApart t) : Scans (s ++ t) ⟨p.names, p.placeholders, p.outside ++ t⟩ := by
  have hboth := hs.append (scans_plain ht) hapart
  rwa [List.append_nil, List.append_nil] at hboth

/-- A name, as long as something else stands behind it. -/
theorem Scans.quotedName_append {t : String} {p : Parts} (ht : Scans t p)
    (hapart : StartsApart t) (name : String) :
    Scans (quotedName name ++ t) ⟨name :: p.names, p.placeholders, p.outside⟩ := by
  obtain ⟨ps, hframed, htext, hnames, houtside, hdollars⟩ := ht
  obtain ⟨c, hhead, -⟩ := hapart.exists_head? htext
  refine ⟨.name name :: ps, ⟨⟨c, hhead⟩, hframed⟩, ?_, ?_, houtside, hdollars⟩
  · rw [String.toList_append, htext]
    rfl
  · show name :: ps.filterMap Piece.name? = _
    rw [hnames]

/-- A property, as long as something else stands behind it. -/
theorem Scans.property_append {node : String} (hnode : IsPlain node) {t : String} {p : Parts}
    (ht : Scans t p) (hapart : StartsApart t) (name : String) :
    Scans (property node name ++ t)
      ⟨name :: p.names, p.placeholders, node ++ "." ++ p.outside⟩ := by
  have hplain : IsPlain (node ++ ".") := by
    intro c hc
    rw [String.toList_append] at hc
    rcases List.mem_append.mp hc with hc | hc
    · exact hnode c hc
    · cases List.mem_singleton.mp hc
      decide
  rw [property, String.append_assoc]
  exact (ht.quotedName_append hapart name).plain_append hplain

theorem scans_dollar {w : String} (hw : IsIdentifier w) :
    Scans ("$" ++ w) ⟨[], [w], "$" ++ w⟩ := by
  obtain ⟨-, hw⟩ := hw
  have hplain : ∀ c ∈ w.toList, c ≠ backtick ∧ c ≠ '$' := by
    intro c hc
    have hword := hw c hc
    constructor
    · rintro rfl
      exact absurd hword (by decide)
    · rintro rfl
      exact absurd hword (by decide)
  have hwords : ∀ qs, leadingWord qs = [] →
      dollarWords (w.toList.map .char ++ qs) = dollarWords qs := by
    intro qs _
    exact dollarWords_map_char_append (fun h => (hplain _ h).2 rfl) qs
  refine ⟨.char '$' :: w.toList.map .char, ⟨by decide, framed_map_char fun h => (hplain _ h).1 rfl⟩,
    ?_, ?_, ?_, fun qs hqs => ?_⟩
  · rw [String.toList_append, List.flatMap_cons, flatMap_write_map_char]
    rfl
  · exact filterMap_name?_map_char _
  · show '$' :: (w.toList.map Piece.char).filterMap Piece.char? = ("$" ++ w).toList
    rw [filterMap_char?_map_char, String.toList_append]
    rfl
  · rw [List.cons_append, dollarWords, if_pos rfl, leadingWord_map_char_append hw hqs,
      hwords qs hqs, String.ofList_toList]
    rfl

/-! ## Texts side by side -/

/-- Texts with a separator between them. -/
theorem scans_intercalate {texts : List String} {ps : List Parts}
    (h : List.Forall₂ Scans texts ps) {sep : String} (hsep : IsPlain sep)
    (hapart : StartsApart sep) :
    Scans (sep.intercalate texts)
      ⟨ps.flatMap Parts.names, ps.flatMap Parts.placeholders,
        sep.intercalate (ps.map Parts.outside)⟩ := by
  induction h with
  | nil => exact scans_empty
  | @cons text p texts ps hfirst hrest ih =>
      cases hrest with
      | nil =>
          rw [String.intercalate_singleton]
          show Scans text ⟨p.names ++ [], p.placeholders ++ [], sep.intercalate [p.outside]⟩
          rwa [List.append_nil, List.append_nil, String.intercalate_singleton]
      | @cons text' p' texts ps hsecond hrest =>
          have htail := hfirst.append (ih.plain_append hsep) (hapart.append _)
          rwa [String.intercalate_cons_cons, String.append_assoc, List.map_cons, List.map_cons,
            String.intercalate_cons_cons, String.append_assoc]

theorem scans_join {texts : List String} {ps : List Parts} (h : List.Forall₂ Scans texts ps)
    (combinator : Combinator) : Scans (join combinator texts) (Parts.join combinator ps) := by
  cases h with
  | nil =>
      cases combinator with
      | all => exact scans_plain (by decide : IsPlain "true")
      | any => exact scans_plain (by decide : IsPlain "false")
  | cons hfirst hrest =>
      have hparts := List.Forall₂.cons hfirst hrest
      cases combinator with
      | all => exact scans_intercalate hparts (by decide) (by decide)
      | any => exact scans_intercalate hparts (by decide) (by decide)

end TenantStore.Cypher
