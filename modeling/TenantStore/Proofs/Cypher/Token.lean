import TenantStore.Cypher.Condition

/-!
# Tokens of Cypher text

Between backticks stands a name, and a backtick that is written twice there belongs to the name; so
the text is scanned from the left into characters and names (`pieces`). The pieces are put together
to tokens from the right, each character joining the token behind it if it belongs there (`lex`).

A text that is written in front of another one adds its own tokens to those of the other, as long as
the two do not run into each other: a name has to be followed by something else than a backtick
(`lex_quotedName`), and a word by something else than a character of a word (`lex_word`).
-/

namespace TenantStore.Cypher

/-! ## Pieces -/

/-- A character outside of names, or a name. -/
inductive Piece where
  | char (c : Char)
  | name (s : String)
  deriving DecidableEq, Repr

/-- Where a scan stands, and what it has read of the name there. -/
inductive Scan where
  | outside
  | inside (cs : List Char)
  /-- Behind a backtick that ends the name, unless another one follows. -/
  | closing (cs : List Char)

/-- The pieces of the text, or nothing if it ends within a name. -/
def pieces : Scan → List Char → Option (List Piece)
  | .outside, [] => some []
  | .inside _, [] => none
  | .closing cs, [] => some [.name (String.ofList cs)]
  | .outside, c :: text =>
    if c = backtick then pieces (.inside []) text
    else (pieces .outside text).map (.char c :: ·)
  | .inside cs, c :: text =>
    if c = backtick then pieces (.closing cs) text
    else pieces (.inside (cs ++ [c])) text
  | .closing cs, c :: text =>
    if c = backtick then pieces (.inside (cs ++ [backtick])) text
    else (pieces .outside text).map fun ps => .name (String.ofList cs) :: .char c :: ps

/-- Reading what stands between backticks gives the name. -/
theorem pieces_inside (name cs text : List Char) :
    pieces (.inside cs) (name.flatMap nameChar ++ backtick :: text) =
      pieces (.closing (cs ++ name)) text := by
  induction name generalizing cs with
  | nil =>
      rw [List.flatMap_nil, List.nil_append, pieces, if_pos rfl, List.append_nil]
  | cons c name ih =>
      have hname : cs ++ c :: name = cs ++ [c] ++ name := by simp
      rw [List.flatMap_cons, nameChar]
      by_cases h : c = backtick
      · -- The first of the two backticks might end the name, the second one takes that back.
        subst h
        rw [if_pos rfl, hname, ← ih]
        simp only [List.cons_append, List.nil_append, pieces, if_true]
      · rw [if_neg h, hname, ← ih]
        simp only [List.cons_append, List.nil_append, pieces, if_neg h]

theorem pieces_closing (cs : List Char) {text : List Char} (htext : text.head? ≠ some backtick) :
    pieces (.closing cs) text = (pieces .outside text).map (.name (String.ofList cs) :: ·) := by
  cases text with
  | nil => rfl
  | cons c text =>
      have hc : c ≠ backtick := fun h => htext (congrArg some h)
      rw [pieces, if_neg hc, pieces, if_neg hc, Option.map_map]
      rfl

theorem pieces_quotedName (name : String) {text : List Char}
    (htext : text.head? ≠ some backtick) :
    pieces .outside ((quotedName name).toList ++ text) =
      (pieces .outside text).map (.name name :: ·) := by
  rw [quotedName, String.toList_ofList, List.append_assoc, List.cons_append, List.singleton_append,
    pieces, if_pos rfl, pieces_inside, List.nil_append, pieces_closing _ htext,
    String.ofList_toList]

/-! ## Tokens -/

/-- A token. -/
inductive Token where
  | blank
  | opening
  | closing
  | word (cs : List Char)
  | symbol (cs : List Char)
  | parameter (cs : List Char)
  /-- A name between backticks. -/
  | name (s : String)
  /-- A name with a point in front of it. -/
  | member (s : String)
  /-- A name with the alias of a node in front of it. -/
  | property (node : List Char) (s : String)
  deriving DecidableEq, Repr

/-- The characters that words and identifiers are made of. -/
def isWordChar (c : Char) : Bool :=
  c.isAlphanum || c = '_' || 127 < c.toNat

/-- A text that may stand for a node without quotes. -/
def IsIdentifier (s : String) : Prop :=
  s.toList ≠ [] ∧ ∀ c ∈ s.toList, isWordChar c = true

instance (s : String) : Decidable (IsIdentifier s) :=
  decidable_of_iff (s.toList.isEmpty = false ∧ s.toList.all isWordChar = true) (by
    rw [IsIdentifier, List.isEmpty_eq_false_iff, List.all_eq_true])

namespace Token

/-- The tokens with a character of a word in front. -/
def pushWord (c : Char) : List Token → List Token
  | word cs :: ts => word (c :: cs) :: ts
  | member s :: ts => property [c] s :: ts
  | property node s :: ts => property (c :: node) s :: ts
  | ts => word [c] :: ts

/-- The tokens with a character in front that is part of a symbol, if of anything. -/
def pushSymbol (c : Char) : List Token → List Token
  | symbol cs :: ts => symbol (c :: cs) :: ts
  | ts => symbol [c] :: ts

/-- The tokens with a point in front. -/
def pushPoint : List Token → List Token
  | name s :: ts => member s :: ts
  | ts => pushSymbol '.' ts

/-- The tokens with a dollar sign in front. -/
def pushDollar : List Token → List Token
  | word cs :: ts => parameter cs :: ts
  | ts => pushSymbol '$' ts

/-- The tokens with one more character in front. -/
def push (c : Char) (ts : List Token) : List Token :=
  if isWordChar c then pushWord c ts
  else if c = ' ' then blank :: ts
  else if c = '(' then opening :: ts
  else if c = ')' then closing :: ts
  else if c = '.' then pushPoint ts
  else if c = '$' then pushDollar ts
  else pushSymbol c ts

/-- The tokens with one more piece in front. -/
def pushPiece : Piece → List Token → List Token
  | .char c, ts => push c ts
  | .name s, ts => name s :: ts

/-- A character of a word does not join the token. -/
def isApart : Token → Bool
  | word _ | member _ | property _ _ => false
  | _ => true

/-- The name of a parameter. -/
def parameter? : Token → Option String
  | parameter cs => some (String.ofList cs)
  | _ => none

end Token

/-- The tokens of a text, or nothing if it ends within a name. -/
def lex (text : List Char) : Option (List Token) :=
  (pieces .outside text).map (List.foldr Token.pushPiece [])

/-- A word in front of the tokens stays a word of its own. -/
def Apart (ts : List Token) : Prop :=
  ∀ t ∈ ts.head?, t.isApart = true

/-! ## Words in front of tokens -/

theorem foldr_push_word {cs : List Char} (hne : cs ≠ []) (hcs : ∀ c ∈ cs, isWordChar c = true)
    {ts : List Token} (hts : Apart ts) : cs.foldr Token.push ts = .word cs :: ts := by
  induction cs with
  | nil => exact absurd rfl hne
  | cons c cs ih =>
      have hc := hcs c List.mem_cons_self
      rw [List.foldr_cons]
      cases cs with
      | nil =>
          rw [List.foldr_nil, Token.push, if_pos hc]
          show Token.pushWord c ts = _
          cases ts with
          | nil => rfl
          | cons t ts =>
              have ht := hts t rfl
              cases t <;> first | rfl | exact nomatch ht
      | cons c' cs =>
          rw [ih (List.cons_ne_nil _ _) fun d hd => hcs d (.tail _ hd), Token.push, if_pos hc]
          rfl

theorem foldr_push_property {cs : List Char} (hne : cs ≠ [])
    (hcs : ∀ c ∈ cs, isWordChar c = true) (s : String) (ts : List Token) :
    cs.foldr Token.push (.member s :: ts) = .property cs s :: ts := by
  induction cs with
  | nil => exact absurd rfl hne
  | cons c cs ih =>
      have hc := hcs c List.mem_cons_self
      rw [List.foldr_cons]
      cases cs with
      | nil =>
          rw [List.foldr_nil, Token.push, if_pos hc]
          rfl
      | cons c' cs =>
          rw [ih (List.cons_ne_nil _ _) fun d hd => hcs d (.tail _ hd), Token.push, if_pos hc]
          rfl

/-! ## Texts in front of texts -/

section Lex

variable {text : List Char} {ts : List Token} (htext : lex text = some ts)

include htext

/-- Characters outside of names are put in front of the tokens one by one. -/
theorem lex_append {cs : List Char} (hcs : backtick ∉ cs) :
    lex (cs ++ text) = some (cs.foldr Token.push ts) := by
  induction cs with
  | nil => exact htext
  | cons c cs ih =>
      have hc : c ≠ backtick := fun h => hcs (h ▸ List.mem_cons_self)
      have hrest := ih fun h => hcs (.tail c h)
      unfold lex at hrest ⊢
      obtain ⟨ps, hps, hrest⟩ := Option.map_eq_some_iff.mp hrest
      rw [List.cons_append, pieces, if_neg hc, hps, Option.map_some, Option.map_some,
        List.foldr_cons, List.foldr_cons, hrest]
      rfl

theorem lex_quotedName (name : String) (hhead : text.head? ≠ some backtick) :
    lex ((quotedName name).toList ++ text) = some (.name name :: ts) := by
  unfold lex at htext ⊢
  obtain ⟨ps, hps, hts⟩ := Option.map_eq_some_iff.mp htext
  rw [pieces_quotedName name hhead, hps, Option.map_some, Option.map_some, List.foldr_cons, hts]
  rfl

theorem lex_word {w : String} (hw : IsIdentifier w) (hts : Apart ts) :
    lex (w.toList ++ text) = some (.word w.toList :: ts) := by
  obtain ⟨hne, hchars⟩ := hw
  rw [lex_append htext, foldr_push_word hne hchars hts]
  -- A backtick is no character of a word, so the scan stays outside of names.
  intro h
  exact absurd (hchars backtick h) (by decide)

theorem lex_property {node : String} (hnode : IsIdentifier node) (name : String)
    (hhead : text.head? ≠ some backtick) :
    lex ((property node name).toList ++ text) = some (.property node.toList name :: ts) := by
  obtain ⟨hne, hchars⟩ := hnode
  have hname := lex_quotedName htext name hhead
  have hplain : backtick ∉ node.toList ++ ".".toList := by
    intro h
    rcases List.mem_append.mp h with h | h
    · exact absurd (hchars backtick h) (by decide)
    · exact absurd h (by decide)
  rw [property, String.toList_append, String.toList_append, List.append_assoc,
    lex_append hname hplain, List.foldr_append]
  exact congrArg some (foldr_push_property hne hchars name ts)

end Lex

end TenantStore.Cypher
