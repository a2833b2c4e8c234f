import Mathlib.Data.List.DropRight
import TenantStore.Paging.Sort
import TenantStore.Proofs.Access

/-!
# The language of sort orders

`Reads` says which items are read and as which field, and `Fault` which ones are refused and why, by
the shape of an item and not by the order in which a reader looks at it: a dash in front, neither a
dash nor a colon, or no dash and a first colon. Every item is read or refused (`reads_or_fault`), so
`parseItem_eq_ok_iff` and `parseItem_eq_error_iff` follow from one direction each.

A field that was read is `Normal` (`normal_of_reads`): its name survives the commas, colons and
trimming that the text of `SortField.text` goes through. `items_intercalate` gives the items of such
texts back, and `parseList_normal_form` says that a written order is read as itself.
-/

namespace TenantStore

/-! ## Trimming -/

namespace Text

theorem trimmed_eq_rdropWhile (s : List Char) :
    trimmed s = (s.dropWhile isSpace).rdropWhile isSpace :=
  rfl

/-- Trimming takes from the back of what starts with content. -/
theorem exists_trimmed_cons {c : Char} (hc : isSpace c = false) (cs : List Char) :
    ∃ rest, trimmed (c :: cs) = c :: rest := by
  have hdrop : (c :: cs).dropWhile isSpace = c :: cs := by simp [hc]
  have hprefix : trimmed (c :: cs) <+: c :: cs := by
    rw [trimmed_eq_rdropWhile, hdrop]
    exact List.rdropWhile_prefix isSpace _
  obtain ⟨back, hback⟩ := hprefix
  cases htrimmed : trimmed (c :: cs) with
  | nil =>
    have := trimmed_nil_iff.mp htrimmed c List.mem_cons_self
    simp [hc] at this
  | cons d rest =>
    rw [htrimmed] at hback
    cases hback
    exact ⟨rest, rfl⟩

theorem isSpace_eq_false_of_trimmed_eq_cons {s cs : List Char} {c : Char}
    (h : trimmed s = c :: cs) : isSpace c = false := by
  obtain ⟨back, hback⟩ := List.rdropWhile_prefix isSpace (s.dropWhile isSpace)
  have hhead := List.head?_dropWhile_not isSpace s
  rw [← hback, ← trimmed_eq_rdropWhile, h] at hhead
  exact hhead

theorem trimmed_trimmed (s : List Char) : trimmed (trimmed s) = trimmed s := by
  cases h : trimmed s with
  | nil => rfl
  | cons c cs =>
    have hc := isSpace_eq_false_of_trimmed_eq_cons h
    rw [trimmed_eq_rdropWhile, List.dropWhile_cons_of_neg (by simp [hc]), ← h,
      trimmed_eq_rdropWhile, List.rdropWhile_idempotent]

/-- Content in front of trimmed text is trimmed. -/
theorem trimmed_cons {c : Char} (hc : isSpace c = false) {cs : List Char}
    (h : trimmed cs = cs) : trimmed (c :: cs) = c :: cs := by
  have hback : cs.rdropWhile isSpace = cs := by
    have := List.rdropWhile_idempotent isSpace (cs.dropWhile isSpace)
    rwa [← trimmed_eq_rdropWhile, h] at this
  rw [trimmed_eq_rdropWhile, List.dropWhile_cons_of_neg (by simp [hc]), List.rdropWhile_eq_self_iff]
  intro hne
  by_cases hnil : cs = []
  · simp [hnil, hc]
  · rw [List.getLast_cons hnil]
    exact List.rdropWhile_eq_self_iff.mp hback hnil

theorem mem_of_mem_trimmed {s : List Char} {c : Char} (h : c ∈ trimmed s) : c ∈ s :=
  List.dropWhile_subset _ (List.rdropWhile_prefix isSpace _ |>.subset h)

end Text

namespace SortField

open Text (trimmed isSpace)

variable {item cs field word : List Char} {f : SortField} {e : SortError}

/-! ## Items -/

/-- Something in the text is not white space. -/
def HasContent (cs : List Char) : Prop :=
  ∃ c ∈ cs, isSpace c = false

theorem trimmed_ne_nil_iff : trimmed cs ≠ [] ↔ HasContent cs := by
  rw [Ne, Text.trimmed_nil_iff]
  simp [HasContent]

/-- There is a dash in front. -/
def Dashed (cs : List Char) : Prop :=
  ∃ rest, cs = '-' :: rest

/-- The word of a direction. -/
def directionWord : Direction → List Char
  | .ascending => ['a', 's', 'c']
  | .descending => ['d', 'e', 's', 'c']

theorem direction?_eq_some_iff {direction : Direction} :
    direction? word = some direction ↔ word = directionWord direction := by
  unfold direction?
  cases direction <;> split_ifs with hasc hdesc <;> simp_all [directionWord]

/-- The item is read as the field. -/
inductive Reads : List Char → SortField → Prop where
  /-- A dash in front takes the whole rest as the name. -/
  | dashed {rest : List Char} (content : HasContent rest) :
      Reads ('-' :: rest) ⟨String.ofList (trimmed rest), .descending⟩
  /-- Without a dash and a colon the item is the name. -/
  | plain {item : List Char} (undashed : ¬Dashed item) (undirected : ':' ∉ item)
      (content : HasContent item) : Reads item ⟨String.ofList (trimmed item), .ascending⟩
  /-- Otherwise the name is in front of the first colon and the direction behind it. -/
  | directed {field word : List Char} {direction : Direction} (undashed : ¬Dashed field)
      (first : ':' ∉ field) (content : HasContent field)
      (known : (trimmed word).map Char.toLower = directionWord direction) :
      Reads (field ++ ':' :: word) ⟨String.ofList (trimmed field), direction⟩

/-- The item is refused for the error. -/
inductive Fault : List Char → SortError → Prop where
  | dashed {rest : List Char} (blank : ¬HasContent rest) :
      Fault ('-' :: rest) (.noField (String.ofList ('-' :: rest)))
  | plain {item : List Char} (blank : ¬HasContent item) :
      Fault item (.noField (String.ofList item))
  /-- A bad direction is reported also if there is no name. -/
  | direction {field word : List Char} (undashed : ¬Dashed field) (first : ':' ∉ field)
      (unknown : ∀ direction, (trimmed word).map Char.toLower ≠ directionWord direction) :
      Fault (field ++ ':' :: word)
        (.unknownDirection (String.ofList ((trimmed word).map Char.toLower)) (String.ofList field))
  | unnamed {field word : List Char} {direction : Direction} (blank : ¬HasContent field)
      (known : (trimmed word).map Char.toLower = directionWord direction) :
      Fault (field ++ ':' :: word) (.noField (String.ofList (field ++ ':' :: word)))

/-! ## Reading an item -/

theorem named_of_hasContent (item : List Char) (direction : Direction) (h : HasContent field) :
    named item field direction = .ok ⟨String.ofList (trimmed field), direction⟩ := by
  have hne := trimmed_ne_nil_iff.mpr h
  unfold named
  split
  · contradiction
  · rfl

theorem named_of_blank (item : List Char) (direction : Direction) (h : ¬HasContent field) :
    named item field direction = .error (.noField (String.ofList item)) := by
  have hnil : trimmed field = [] := by_contra fun hne => h (trimmed_ne_nil_iff.mp hne)
  simp only [named, hnil]

theorem parseItem_of_not_dashed (h : ¬Dashed item) :
    parseItem item =
      match Text.splitAtFirst ':' item with
      | none => named item item .ascending
      | some (field, word) =>
        match direction? ((trimmed word).map Char.toLower) with
        | some direction => named item field direction
        | none =>
          .error (.unknownDirection (String.ofList ((trimmed word).map Char.toLower))
            (String.ofList field)) := by
  unfold parseItem
  split
  · exact absurd ⟨_, rfl⟩ h
  · rfl

theorem parseItem_plain (undashed : ¬Dashed item) (undirected : ':' ∉ item) :
    parseItem item = named item item .ascending := by
  rw [parseItem_of_not_dashed undashed, Text.splitAtFirst_eq_none_iff.mpr undirected]

theorem parseItem_directed (undashed : ¬Dashed field) (first : ':' ∉ field) (word : List Char) :
    parseItem (field ++ ':' :: word) =
      match direction? ((trimmed word).map Char.toLower) with
      | some direction => named (field ++ ':' :: word) field direction
      | none =>
        .error (.unknownDirection (String.ofList ((trimmed word).map Char.toLower))
          (String.ofList field)) := by
  have hitem : ¬Dashed (field ++ ':' :: word) := by
    rintro ⟨rest, h⟩
    cases field with
    | nil => simp at h
    | cons c field =>
      cases h
      exact undashed ⟨field, rfl⟩
  rw [parseItem_of_not_dashed hitem, Text.splitAtFirst_eq_some_iff.mpr ⟨rfl, first⟩]

/-- Blank text has no character that is content. -/
theorem not_mem_of_blank (h : ¬HasContent cs) {c : Char} (hc : isSpace c = false) : c ∉ cs :=
  fun hmem => h ⟨c, hmem, hc⟩

theorem not_dashed_of_blank (h : ¬HasContent cs) : ¬Dashed cs := by
  rintro ⟨rest, rfl⟩
  exact not_mem_of_blank h (by decide : isSpace '-' = false) List.mem_cons_self

theorem parseItem_of_reads (h : Reads item f) : parseItem item = .ok f := by
  cases h with
  | dashed content => exact named_of_hasContent _ _ content
  | plain undashed undirected content =>
    rw [parseItem_plain undashed undirected, named_of_hasContent _ _ content]
  | directed undashed first content known =>
    rw [parseItem_directed undashed first, direction?_eq_some_iff.mpr known]
    exact named_of_hasContent _ _ content

theorem parseItem_of_fault (h : Fault item e) : parseItem item = .error e := by
  cases h with
  | dashed blank => exact named_of_blank _ _ blank
  | plain blank =>
    rw [parseItem_plain (not_dashed_of_blank blank) (not_mem_of_blank blank (by decide)),
      named_of_blank _ _ blank]
  | direction undashed first unknown =>
    rw [parseItem_directed undashed first]
    split
    · exact absurd (direction?_eq_some_iff.mp ‹_›) (unknown _)
    · rfl
  | unnamed blank known =>
    rw [parseItem_directed (not_dashed_of_blank blank) (not_mem_of_blank blank (by decide)),
      direction?_eq_some_iff.mpr known]
    exact named_of_blank _ _ blank

/-- Every item is read or refused. -/
theorem reads_or_fault (item : List Char) : (∃ f, Reads item f) ∨ ∃ e, Fault item e := by
  by_cases hdash : Dashed item
  · obtain ⟨rest, rfl⟩ := hdash
    by_cases content : HasContent rest
    · exact .inl ⟨_, .dashed content⟩
    · exact .inr ⟨_, .dashed content⟩
  cases hsplit : Text.splitAtFirst ':' item with
  | none =>
    have undirected := Text.splitAtFirst_eq_none_iff.mp hsplit
    by_cases content : HasContent item
    · exact .inl ⟨_, .plain hdash undirected content⟩
    · exact .inr ⟨_, .plain content⟩
  | some parts =>
    obtain ⟨field, word⟩ := parts
    obtain ⟨rfl, first⟩ := Text.splitAtFirst_eq_some_iff.mp hsplit
    have undashed : ¬Dashed field := by
      rintro ⟨rest, rfl⟩
      exact hdash ⟨rest ++ ':' :: word, rfl⟩
    by_cases known : ∃ direction, (trimmed word).map Char.toLower = directionWord direction
    · obtain ⟨direction, known⟩ := known
      by_cases content : HasContent field
      · exact .inl ⟨_, .directed undashed first content known⟩
      · exact .inr ⟨_, .unnamed content known⟩
    · exact .inr ⟨_, .direction undashed first (not_exists.mp known)⟩

theorem parseItem_eq_ok_iff : parseItem item = .ok f ↔ Reads item f := by
  refine ⟨fun h => ?_, parseItem_of_reads⟩
  rcases reads_or_fault item with ⟨f', hreads⟩ | ⟨e, hfault⟩
  · cases h.symm.trans (parseItem_of_reads hreads)
    exact hreads
  · cases h.symm.trans (parseItem_of_fault hfault)

theorem parseItem_eq_error_iff : parseItem item = .error e ↔ Fault item e := by
  refine ⟨fun h => ?_, parseItem_of_fault⟩
  rcases reads_or_fault item with ⟨f, hreads⟩ | ⟨e', hfault⟩
  · cases h.symm.trans (parseItem_of_reads hreads)
  · cases h.symm.trans (parseItem_of_fault hfault)
    exact hfault

theorem not_reads_of_fault (h : Fault item e) (f : SortField) : ¬Reads item f := by
  intro hreads
  cases (parseItem_of_reads hreads).symm.trans (parseItem_of_fault h)

/-! ## Items of a text -/

/-- The text can stand as one item between the commas of a sort order. -/
structure IsItem (cs : List Char) : Prop where
  ne_nil : cs ≠ []
  trimmed_eq : trimmed cs = cs
  no_comma : ',' ∉ cs

theorem isItem_trimmed (content : HasContent cs) (hcomma : ',' ∉ cs) : IsItem (trimmed cs) :=
  ⟨trimmed_ne_nil_iff.mpr content, Text.trimmed_trimmed cs,
    fun h => hcomma (Text.mem_of_mem_trimmed h)⟩

theorem isItem_of_mem_items {s : String} (h : item ∈ items s) : IsItem item := by
  obtain ⟨hmem, hne⟩ := List.mem_filter.mp h
  obtain ⟨piece, hpiece, rfl⟩ := List.mem_map.mp hmem
  have content := trimmed_ne_nil_iff.mp (of_decide_eq_true hne)
  exact isItem_trimmed content (Text.not_mem_of_mem_pieces hpiece)

theorem items_of_isItem {s : String} (h : IsItem s.toList) : items s = [s.toList] := by
  simp [items, Text.pieces_of_not_mem h.no_comma, h.trimmed_eq, h.ne_nil]

/-- A comma parts the items in front of it from those behind it. -/
theorem items_append_comma (s t : String) : items (s ++ "," ++ t) = items s ++ items t := by
  have htext : (s ++ "," ++ t).toList = s.toList ++ ',' :: t.toList := by simp
  simp only [items, htext, Text.pieces_append_cons, List.map_append, List.filter_append]

/-- Items with commas between them are the items of the text. -/
theorem items_intercalate {texts : List String} (h : ∀ t ∈ texts, IsItem t.toList) :
    items (String.intercalate "," texts) = texts.map String.toList := by
  induction texts with
  | nil => rfl
  | cons t texts ih =>
    obtain ⟨ht, htexts⟩ := List.forall_mem_cons.mp h
    cases texts with
    | nil => rw [String.intercalate_singleton, items_of_isItem ht, List.map_singleton]
    | cons u texts =>
      rw [String.intercalate_cons_cons, items_append_comma, items_of_isItem ht, ih htexts]
      rfl

/-! ## Normal form -/

/-- The name can be written in a sort order: alone to sort up and after a dash to sort down. -/
structure Normal (f : SortField) : Prop where
  name : IsItem f.field.toList
  undashed : f.direction = .ascending → ¬Dashed f.field.toList
  undirected : f.direction = .ascending → ':' ∉ f.field.toList

/-- A field that an item is read as can be written again. -/
theorem normal_of_reads (hitem : IsItem item) (h : Reads item f) : f.Normal := by
  cases h with
  | @dashed rest content =>
    have hcomma : ',' ∉ rest := fun h => hitem.no_comma (List.mem_cons_of_mem _ h)
    exact ⟨by simpa using isItem_trimmed content hcomma, nofun, nofun⟩
  | plain undashed undirected content =>
    rw [hitem.trimmed_eq]
    exact ⟨by simpa using hitem, by simpa using undashed, by simpa using undirected⟩
  | @directed field word direction undashed first content known =>
    have hcomma : ',' ∉ field := fun h => hitem.no_comma (List.mem_append_left _ h)
    refine ⟨by simpa using isItem_trimmed content hcomma, fun _ => ?_, fun _ => ?_⟩
    · rw [String.toList_ofList]
      rintro ⟨rest, hrest⟩
      cases field with
      | nil => simp [HasContent] at content
      | cons c field =>
        have hc : isSpace c = false := Text.isSpace_eq_false_of_trimmed_eq_cons hitem.trimmed_eq
        obtain ⟨back, hback⟩ := Text.exists_trimmed_cons hc field
        cases hback.symm.trans hrest
        exact undashed ⟨field, rfl⟩
    · rw [String.toList_ofList]
      exact fun h => first (Text.mem_of_mem_trimmed h)

theorem hasContent_of_isItem (h : IsItem cs) : HasContent cs := by
  rw [← trimmed_ne_nil_iff, h.trimmed_eq]
  exact h.ne_nil

/-- The text of a normal field is an item that reads as the field. -/
theorem Normal.isItem_text (h : f.Normal) : IsItem (text f).toList := by
  obtain ⟨name, direction⟩ := f
  cases direction with
  | ascending => exact h.name
  | descending =>
    have htext : (text ⟨name, .descending⟩).toList = '-' :: name.toList := by simp [text]
    have htrimmed := Text.trimmed_cons (by decide : isSpace '-' = false) h.name.trimmed_eq
    rw [htext]
    exact ⟨by simp, htrimmed, by simpa using h.name.no_comma⟩

theorem Normal.reads_text (h : f.Normal) : Reads (text f).toList f := by
  obtain ⟨name, direction⟩ := f
  have content := hasContent_of_isItem h.name
  have hname : String.ofList (trimmed name.toList) = name := by
    rw [h.name.trimmed_eq, String.ofList_toList]
  cases direction with
  | ascending =>
    have := Reads.plain (h.undashed rfl) (h.undirected rfl) content
    rwa [hname] at this
  | descending =>
    have htext : (text ⟨name, .descending⟩).toList = '-' :: name.toList := by simp [text]
    have := Reads.dashed content
    rwa [hname, ← htext] at this

theorem items_listText {fs : List SortField} (h : ∀ f ∈ fs, f.Normal) :
    items (listText fs) = fs.map fun f => (text f).toList := by
  have hitems : ∀ t ∈ fs.map text, IsItem t.toList :=
    List.forall_mem_map.mpr fun f hf => (h f hf).isItem_text
  rw [listText, items_intercalate hitems, List.map_map]
  rfl

/-! ## Reading a list -/

theorem parseList_eq_ok_iff {s : String} {fs : List SortField} :
    parseList s = .ok fs ↔ List.Forall₂ Reads (items s) fs := by
  simp only [parseList, mapM_eq_ok_iff, parseItem_eq_ok_iff]

theorem parseList_listText {fs : List SortField} (h : ∀ f ∈ fs, f.Normal) :
    parseList (listText fs) = .ok fs := by
  rw [parseList_eq_ok_iff, items_listText h, List.forall₂_map_left_iff, List.forall₂_same]
  exact fun f hf => (h f hf).reads_text

/-- An order is refused for the fault of its first item that is not read. -/
theorem parseList_eq_error_iff {s : String} :
    parseList s = .error e ↔ ∃ before item after, items s = before ++ item :: after ∧
      (∀ i ∈ before, ∃ f, Reads i f) ∧ Fault item e := by
  simp only [parseList, mapM_eq_error_iff, parseItem_eq_ok_iff, parseItem_eq_error_iff]

/-- An order is read item by item if every item is read, and is else refused for its first item that
is not. The fields of a read order are normal, and their text reads back as the same order. -/
theorem parseList_normal_form (s : String) :
    ((∃ fs, parseList s = .ok fs) ↔ ∀ item ∈ items s, ∃ f, Reads item f) ∧
      (∀ e, (parseList s).mapError SortError.toStoreError = .error e ↔
        ∃ before item after cause, items s = before ++ item :: after ∧
          (∀ i ∈ before, ∃ f, Reads i f) ∧ (∀ f, ¬Reads item f) ∧ Fault item cause ∧
          e = .invalidFilter cause.message) ∧
      ∀ fs, parseList s = .ok fs →
        List.Forall₂ Reads (items s) fs ∧ (∀ f ∈ fs, f.Normal) ∧
          parseList (listText fs) = .ok fs := by
  refine ⟨?_, fun e => ?_, fun fs h => ?_⟩
  · simp only [parseList, exists_mapM_eq_ok_iff, parseItem_eq_ok_iff]
  · constructor
    · intro h
      cases hparse : parseList s with
      | ok fs =>
        rw [hparse] at h
        cases h
      | error cause =>
        rw [hparse] at h
        cases h
        obtain ⟨before, item, after, hitems, hbefore, hfault⟩ := parseList_eq_error_iff.mp hparse
        exact ⟨before, item, after, cause, hitems, hbefore, not_reads_of_fault hfault, hfault, rfl⟩
    · rintro ⟨before, item, after, cause, hitems, hbefore, -, hfault, rfl⟩
      rw [parseList_eq_error_iff.mpr ⟨before, item, after, hitems, hbefore, hfault⟩]
      rfl
  · have hreads := parseList_eq_ok_iff.mp h
    have hnormal : ∀ f ∈ fs, f.Normal := by
      intro f hf
      obtain ⟨item, hitem, hread⟩ := exists_mem_of_forall₂ hreads f hf
      exact normal_of_reads (isItem_of_mem_items hitem) hread
    exact ⟨hreads, hnormal, parseList_listText hnormal⟩

theorem parseList_normal_form_mixed :
    parseList " name , -age,,createdAt:DESC" =
        .ok [⟨"name", .ascending⟩, ⟨"age", .descending⟩, ⟨"createdAt", .descending⟩] ∧
      listText [⟨"name", .ascending⟩, ⟨"age", .descending⟩, ⟨"createdAt", .descending⟩] =
        "name,-age,-createdAt" ∧
      parseList "name,-age,-createdAt" =
        .ok [⟨"name", .ascending⟩, ⟨"age", .descending⟩, ⟨"createdAt", .descending⟩] := by
  have h : parseList " name , -age,,createdAt:DESC" =
      .ok [⟨"name", .ascending⟩, ⟨"age", .descending⟩, ⟨"createdAt", .descending⟩] := by rfl
  exact ⟨h, by rfl, ((parseList_normal_form " name , -age,,createdAt:DESC").2.2 _ h).2.2⟩

end SortField
end TenantStore
