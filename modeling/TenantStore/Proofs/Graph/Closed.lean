import Mathlib.Data.List.Nodup
import TenantStore.Proofs.Cypher.Outline
import TenantStore.Proofs.Graph.Statements

/-!
# Closed statements

A statement is closed if its text ends outside of names and has a placeholder for each of its
parameters and for nothing else (`Statement.Closed`). Statements stay closed when text with another
parameter is put behind them (`Statement.Closed.andThen`), so those of a graph repository are, for
all labels, fields and values; only the outline of a request reaches the text outside of names
(`Graph.statement_closed`).
-/

namespace TenantStore

open Cypher (Parts Scans StartsApart IsPlain Statement boundValue? parameterName)

/-! ## Names and values of requests -/

/-- The values that the terms of a selection compare with, under the names of their parameters. -/
def Scoped.bindings (s : Scoped) : Members Json :=
  (s.selection.allTerms.filterMap boundValue?).zipIdx.map fun (v, n) => (parameterName n, v)

/-- The bounds of a window, under the names of their parameters. -/
def Window.bindings (w : Window) : Members Json :=
  (if 0 < w.skip then [("skip", Json.ofNat w.skip)] else []) ++
    w.limit.toList.map fun n => ("limit", Json.ofNat n)

/-- The field without its name. -/
def SortField.outline (f : SortField) : SortField :=
  ⟨"", f.direction⟩

/-- The window without the names of its fields and without its bounds: of these stays whether a
part is skipped and whether there is a limit. -/
def Window.outline (w : Window) : Window :=
  ⟨if 0 < w.skip then 1 else 0, w.limit.map fun _ => 0, w.sort.map SortField.outline⟩

/-- The selection with the outlines of its terms. -/
def Scoped.outline (s : Scoped) : Scoped :=
  ⟨s.selection.outline⟩

namespace Backend.Request

/-- The fields that a request names, in order. -/
def fields : Request → List String
  | insert _ => []
  | update s _ | delete s | first s | count s => s.selection.allTerms.map Term.field
  | find s w => s.selection.allTerms.map Term.field ++ w.sort.map SortField.field

/-- The values of a request, under the names of their parameters. -/
def bindings : Request → Members Json
  | insert members => [("props", .object members)]
  | update s members => s.bindings ++ [("props", .object members)]
  | delete s | first s | count s => s.bindings
  | find s w => s.bindings ++ w.bindings

/-- The request without names and values. -/
def outline : Request → Request
  | insert _ => insert []
  | update s _ => update s.outline []
  | delete s => delete s.outline
  | first s => first s.outline
  | find s w => find s.outline w.outline
  | count s => count s.outline

end Backend.Request

/-! ## Closed statements -/

/-- The text scans into these names, a placeholder for each value and the text around them, and the
parameters are the values, each under a name of its own. -/
structure Cypher.Statement.Closed (t : Statement) (names : List String) (bindings : Members Json)
    (outside : String) : Prop where
  scans : Scans t.text ⟨names, bindings.map Prod.fst, outside⟩
  params : t.params.Perm bindings
  nodup : (bindings.map Prod.fst).Nodup

namespace Cypher.Statement

variable {t : Statement} {names : List String} {bindings : Members Json} {outside : String}

/-- Text without placeholders may stand behind a closed statement. -/
theorem Closed.append (h : t.Closed names bindings outside) {text rest : String}
    {more : List String} (htext : Scans text ⟨more, [], rest⟩) (hapart : StartsApart text) :
    (⟨t.text ++ text, t.params⟩ : Statement).Closed (names ++ more) bindings
      (outside ++ rest) := by
  have hscans := h.scans.append htext hapart
  rw [List.append_nil] at hscans
  exact ⟨hscans, h.params, h.nodup⟩

/-- Plain text may stand behind a closed statement. -/
theorem Closed.append_plain (h : t.Closed names bindings outside) {text : String}
    (htext : IsPlain text) (hapart : StartsApart text) :
    (⟨t.text ++ text, t.params⟩ : Statement).Closed names bindings (outside ++ text) := by
  have hclosed := h.append (scans_plain htext) hapart
  rwa [List.append_nil] at hclosed

/-- Text with a placeholder may stand behind a closed statement that has no such parameter. -/
theorem Closed.andThen (h : t.Closed names bindings outside) {text name : String}
    (htext : Scans text ⟨[], [name], text⟩) (hapart : StartsApart text)
    (hname : name ∉ bindings.map Prod.fst) (value : Json) :
    (t.andThen text name value).Closed names (bindings ++ [(name, value)]) (outside ++ text) := by
  have hscans := h.scans.append htext hapart
  rw [List.append_nil] at hscans
  have hparams : name ∉ t.params.map Prod.fst := fun hmem =>
    hname ((h.params.map Prod.fst).mem_iff.mp hmem)
  have hinsert := Members.perm_insert (Members.get?_eq_none_of_not_mem hparams) value
  refine ⟨?_, ?_, ?_⟩
  · rw [List.map_append]
    exact hscans
  · refine (hinsert.trans (h.params.cons _)).trans ?_
    exact (List.perm_append_singleton _ _).symm
  · rw [List.map_append]
    exact List.Nodup.append h.nodup (List.nodup_singleton name) (List.disjoint_singleton.mpr hname)

/-! ## Parameters -/

/-- A placeholder with plain text in front. -/
theorem scans_parameter {before word : String} (hbefore : IsPlain before)
    (hword : IsIdentifier word) :
    Scans (before ++ ("$" ++ word)) ⟨[], [word], before ++ ("$" ++ word)⟩ :=
  (scans_dollar hword).plain_append hbefore

theorem scans_setProperties : Scans setProperties ⟨[], ["props"], setProperties⟩ := by
  have hparameter := scans_parameter (by decide : IsPlain " SET n = ")
    (by decide : IsIdentifier "props")
  exact hparameter.append_plain (by decide : IsPlain " RETURN n") (by decide)

theorem scans_skip : Scans " SKIP $skip" ⟨[], ["skip"], " SKIP $skip"⟩ :=
  scans_parameter (by decide : IsPlain " SKIP ") (by decide : IsIdentifier "skip")

theorem scans_limit : Scans " LIMIT $limit" ⟨[], ["limit"], " LIMIT $limit"⟩ :=
  scans_parameter (by decide : IsPlain " LIMIT ") (by decide : IsIdentifier "limit")

theorem parameterName_ne (n : Nat) {word : String} (hword : word.toList.head? ≠ some 'f') :
    parameterName n ≠ word := by
  rintro rfl
  rw [parameterName, String.toList_append] at hword
  exact hword rfl

/-- The parameters of a selection have numbered names. -/
theorem names_bindings (s : Scoped) :
    s.bindings.map Prod.fst =
      (List.range (s.selection.allTerms.filterMap boundValue?).length).map parameterName := by
  rw [Scoped.bindings, List.map_map, List.range_eq_range', ← List.zipIdx_map_snd, List.map_map]
  rfl

theorem not_mem_bindings (s : Scoped) {word : String} (hword : word.toList.head? ≠ some 'f') :
    word ∉ s.bindings.map Prod.fst := by
  rw [names_bindings]
  intro hmem
  obtain ⟨n, -, hn⟩ := List.mem_map.mp hmem
  exact parameterName_ne n hword hn

theorem nodup_bindings (s : Scoped) : (s.bindings.map Prod.fst).Nodup := by
  rw [names_bindings]
  exact List.Nodup.map (fun _ _ => parameterName_inj.mp) List.nodup_range

/-! ## The statements of a label -/

/-- What the start of a statement on a selection leaves outside of names. -/
def outsideOf (s : Scoped) : String :=
  "MATCH " ++ "(n:)" ++ " WHERE " ++
    ((Condition.ofSelection s.selection).1.parts nodeAlias).outside

variable (label : String)

theorem scans_node : Scans (node label) ⟨[label], [], "(n:)"⟩ := by
  have hname := (scans_plain (by decide : IsPlain ")")).quotedName_append (by decide) label
  have hnode := hname.plain_append (by decide : IsPlain "(n:")
  have htext : node label = "(n:" ++ (quotedName label ++ ")") := by
    rw [node, ← String.append_assoc]
    rfl
  rw [htext]
  exact hnode

theorem closed_create (members : Members Json) :
    (create label members).Closed [label] [("props", .object members)]
      ("CREATE (n:)" ++ setProperties) := by
  have hstart : (⟨"CREATE " ++ node label, []⟩ : Statement).Closed [label] [] "CREATE (n:)" :=
    ⟨(scans_node label).plain_append (by decide), .refl _, .nil⟩
  exact hstart.andThen scans_setProperties (by decide) List.not_mem_nil _

theorem closed_matching (s : Scoped) :
    (matching label s).Closed (label :: s.selection.allTerms.map Term.field) s.bindings
      (outsideOf s) := by
  obtain ⟨hvalues, -⟩ := Condition.ofSelection_spec s.selection
  refine ⟨?_, ?_, nodup_bindings s⟩
  · have hcondition := Condition.scans_text (by decide : IsPlain nodeAlias)
      (Condition.ofSelection s.selection).1
    have hapart : StartsApart " WHERE " := by decide
    have hwhere := hcondition.plain_append (by decide : IsPlain " WHERE ")
    have htext := ((scans_node label).append hwhere (hapart.append _)).plain_append
      (by decide : IsPlain "MATCH ")
    rw [Condition.names_ofSelection, Condition.placeholders_ofSelection, ← names_bindings] at htext
    simp only [← String.append_assoc] at htext
    exact htext
  · rw [Scoped.bindings, ← hvalues]
    exact perm_parameters _

theorem closed_update (s : Scoped) (members : Members Json) :
    (update label s members).Closed (label :: s.selection.allTerms.map Term.field)
      (s.bindings ++ [("props", .object members)]) (outsideOf s ++ setProperties) :=
  (closed_matching label s).andThen scans_setProperties (by decide)
    (not_mem_bindings s (by decide)) _

theorem closed_delete (s : Scoped) :
    (delete label s).Closed (label :: s.selection.allTerms.map Term.field) s.bindings
      (outsideOf s ++ " DETACH DELETE n RETURN count(n) AS deleted") := by
  have htext := (closed_matching label s).append_plain
    (by decide : IsPlain " DETACH DELETE n RETURN count(n) AS deleted") (by decide)
  simp only [delete, String.append_assoc] at htext ⊢
  exact htext

theorem closed_count (s : Scoped) :
    (count label s).Closed (label :: s.selection.allTerms.map Term.field) s.bindings
      (outsideOf s ++ " RETURN count(n) AS total") := by
  have htext := (closed_matching label s).append_plain
    (by decide : IsPlain " RETURN count(n) AS total") (by decide)
  simp only [count, String.append_assoc] at htext ⊢
  exact htext

/-! ## Sort orders and bounds -/

/-- The parts of a field of a sort order. -/
def orderParts (f : SortField) : Parts where
  names := [f.field]
  placeholders := []
  outside :=
    nodeAlias ++ "." ++
      match f.direction with
      | .ascending => " ASC"
      | .descending => " DESC"

/-- What a sort order leaves outside of names. -/
def outsideOrder : List SortField → String
  | [] => ""
  | fs => " ORDER BY " ++ String.intercalate ", " (fs.map fun f => (orderParts f).outside)

theorem scans_orderItem (f : SortField) : Scans (orderItem f) (orderParts f) := by
  have hup : Scans " ASC" ⟨[], [], " ASC"⟩ := scans_plain (by decide)
  have hdown : Scans " DESC" ⟨[], [], " DESC"⟩ := scans_plain (by decide)
  obtain ⟨field, direction⟩ := f
  cases direction with
  | ascending => exact hup.property_append (by decide) (by decide) field
  | descending => exact hdown.property_append (by decide) (by decide) field

theorem scans_orderText (fs : List SortField) :
    Scans (orderText fs) ⟨fs.map SortField.field, [], outsideOrder fs⟩ := by
  have hitems : List.Forall₂ Scans (fs.map orderItem) (fs.map orderParts) := by
    rw [List.forall₂_map_left_iff, List.forall₂_map_right_iff]
    exact List.forall₂_same.mpr fun f _ => scans_orderItem f
  have hnames : (fs.map orderParts).flatMap Parts.names = fs.map SortField.field := by
    rw [List.flatMap_map, List.map_eq_flatMap]
    rfl
  have hplaceholders : (fs.map orderParts).flatMap Parts.placeholders = [] := by
    rw [List.flatMap_map]
    exact List.flatMap_eq_nil_iff.mpr fun _ _ => rfl
  have htext := scans_intercalate hitems (by decide : IsPlain ", ") (by decide)
  rw [hnames, hplaceholders, List.map_map] at htext
  cases fs with
  | nil => exact scans_empty
  | cons f fs => exact htext.plain_append (by decide : IsPlain " ORDER BY ")

theorem outsideOrder_outline (fs : List SortField) :
    outsideOrder (fs.map SortField.outline) = outsideOrder fs := by
  cases fs with
  | nil => rfl
  | cons f fs =>
      rw [List.map_cons, outsideOrder, outsideOrder]
      · rw [← List.map_cons, List.map_map]
        rfl
      · exact List.cons_ne_nil _ _
      · exact List.cons_ne_nil _ _

/-- What the end of a search leaves outside of names. -/
def outsideWindow (w : Window) : String :=
  " RETURN " ++ nodeAlias ++ outsideOrder w.sort ++ (if 0 < w.skip then " SKIP $skip" else "") ++
    match w.limit with
    | some _ => " LIMIT $limit"
    | none => ""

theorem outsideWindow_outline (w : Window) : outsideWindow w.outline = outsideWindow w := by
  obtain ⟨skip, limit, sort⟩ := w
  have hskip : (0 < if 0 < skip then 1 else 0) ↔ 0 < skip := by split <;> omega
  simp only [outsideWindow, Window.outline, outsideOrder_outline, hskip]
  cases limit <;> rfl

/-- What a positive number of rows to skip puts behind a statement. -/
theorem Closed.skipping (h : t.Closed names bindings outside)
    (hname : "skip" ∉ bindings.map Prod.fst) (skip : Nat) :
    (if 0 < skip then t.andThen " SKIP $skip" "skip" (Json.ofNat skip) else t).Closed names
      (bindings ++ if 0 < skip then [("skip", Json.ofNat skip)] else [])
      (outside ++ if 0 < skip then " SKIP $skip" else "") := by
  by_cases hskip : 0 < skip
  · rw [if_pos hskip, if_pos hskip, if_pos hskip]
    exact h.andThen scans_skip (by decide) hname _
  · rw [if_neg hskip, if_neg hskip, if_neg hskip, List.append_nil, String.append_empty]
    exact h

/-- What a limit puts behind a statement. -/
theorem Closed.limited (h : t.Closed names bindings outside)
    (hname : "limit" ∉ bindings.map Prod.fst) (limit : Option Nat) :
    (match limit with
      | some n => t.andThen " LIMIT $limit" "limit" (Json.ofNat n)
      | none => t).Closed names
      (bindings ++ limit.toList.map fun n => ("limit", Json.ofNat n))
      (outside ++
        match limit with
        | some _ => " LIMIT $limit"
        | none => "") := by
  cases limit with
  | none =>
      rw [Option.toList_none, List.map_nil, List.append_nil, String.append_empty]
      exact h
  | some n => exact h.andThen scans_limit (by decide) hname _

/-- What a search begins with is closed before its rows are bounded. -/
theorem closed_returning (s : Scoped) (sort : List SortField) :
    (⟨(matching label s).text ++ (" RETURN " ++ nodeAlias ++ orderText sort),
        (matching label s).params⟩ : Statement).Closed
      (label :: (s.selection.allTerms.map Term.field ++ sort.map SortField.field)) s.bindings
      (outsideOf s ++ (" RETURN " ++ nodeAlias ++ outsideOrder sort)) := by
  have hreturn : StartsApart (" RETURN " ++ nodeAlias) := by decide
  exact (closed_matching label s).append
    ((scans_orderText sort).plain_append (by decide : IsPlain (" RETURN " ++ nodeAlias)))
    (hreturn.append _)

theorem closed_find (s : Scoped) (w : Window) :
    (find label s w.sort w.skip w.limit).Closed
      (label :: (s.selection.allTerms.map Term.field ++ w.sort.map SortField.field))
      (s.bindings ++ w.bindings) (outsideOf s ++ outsideWindow w) := by
  have hskipped := (closed_returning label s w.sort).skipping
    (not_mem_bindings s (by decide)) w.skip
  have hlimit : "limit" ∉ (s.bindings ++ if 0 < w.skip then [("skip", Json.ofNat w.skip)]
      else []).map Prod.fst := by
    rw [List.map_append, List.mem_append, not_or]
    refine ⟨not_mem_bindings s (by decide), ?_⟩
    split <;> simp
  have hlimited := hskipped.limited hlimit w.limit
  simp only [← String.append_assoc, List.append_assoc] at hlimited
  simp only [find, outsideWindow, Window.bindings, ← String.append_assoc]
  exact hlimited

end Cypher.Statement

/-! ## Requests -/

namespace Graph

open Cypher (Where nodeAlias)
open Cypher.Statement

/-- What the statement of a request leaves outside of names. -/
def outside : Backend.Request → String
  | .insert _ => "CREATE (n:)" ++ setProperties
  | .update s _ => outsideOf s ++ setProperties
  | .delete s => outsideOf s ++ " DETACH DELETE n RETURN count(n) AS deleted"
  | .first s => outsideOf s ++ outsideWindow .all
  | .find s w => outsideOf s ++ outsideWindow w
  | .count s => outsideOf s ++ " RETURN count(n) AS total"

theorem outside_outline (q : Backend.Request) : outside q.outline = outside q := by
  have hstart (s : Scoped) : outsideOf s.outline = outsideOf s :=
    congrArg ("MATCH " ++ "(n:)" ++ " WHERE " ++ ·)
      (Cypher.Condition.outside_ofSelection_outline nodeAlias s.selection)
  cases q with
  | insert members => rfl
  | update s members => exact congrArg (· ++ setProperties) (hstart s)
  | delete s => exact congrArg (· ++ _) (hstart s)
  | first s => exact congrArg (· ++ outsideWindow .all) (hstart s)
  | find s w => exact congrArg₂ (· ++ ·) (hstart s) (outsideWindow_outline w)
  | count s => exact congrArg (· ++ _) (hstart s)

theorem closed_request (label : String) (q : Backend.Request) :
    (statement label q).1.Closed (label :: q.fields) q.bindings (outside q) := by
  cases q with
  | insert members => exact closed_create label members
  | update s members => exact closed_update label s members
  | delete s => exact closed_delete label s
  | first s =>
      have hfind := closed_find label s .all
      have hfields : s.selection.allTerms.map Term.field ++ Window.all.sort.map SortField.field =
          s.selection.allTerms.map Term.field := List.append_nil _
      have hbindings : s.bindings ++ Window.all.bindings = s.bindings := List.append_nil _
      rw [hfields, hbindings] at hfind
      exact hfind
  | find s w => exact closed_find label s w
  | count s => exact closed_count label s

/-- A search begins with the condition of its selection. -/
theorem exists_text_find (label : String) (s : Scoped) (w : Window) :
    ∃ rest, (find label s w.sort w.skip w.limit).text =
      (matching label s).text ++ " RETURN n" ++ rest := by
  have hreturn : " RETURN n" = " RETURN " ++ nodeAlias := by decide
  rw [hreturn]
  unfold find
  split
  · split
    · refine ⟨orderText w.sort ++ (" SKIP $skip" ++ " LIMIT $limit"), ?_⟩
      simp only [andThen, String.append_assoc]
    · refine ⟨orderText w.sort ++ " SKIP $skip", ?_⟩
      simp only [andThen, String.append_assoc]
  · split
    · refine ⟨orderText w.sort ++ " LIMIT $limit", ?_⟩
      simp only [andThen, String.append_assoc]
    · refine ⟨orderText w.sort, ?_⟩
      simp only [String.append_assoc]

/-- Whatever its label, fields and values are, the text of a statement ends outside of names. Its
names are the label, the fields of the selection and those of the sort order, its placeholders are
the names of the parameters, each of which is there once, and the rest of the text is determined by
the outline of the request. Counting and finding the nodes of a selection begin alike, and have the
same parameters but for the bounds of the search. -/
theorem statement_closed :
    (∃ frame : Backend.Request → String, ∀ (label : String) (q : Backend.Request),
      let t := (statement label q).1
      Cypher.parts? t.text =
          some ⟨label :: q.fields, q.bindings.map Prod.fst, frame q.outline⟩ ∧
        t.params.Perm q.bindings ∧ (q.bindings.map Prod.fst).Nodup) ∧
      ∀ (label : String) (s : Scoped) (w : Window),
        let condition := Where.ofScoped s nodeAlias
        let start := "MATCH " ++ node label ++ " WHERE " ++ condition.clause
        let found := (statement label (.find s w)).1
        (statement label (.count s)).1 =
            ⟨start ++ " RETURN count(n) AS total", condition.params⟩ ∧
          (∃ rest, found.text = start ++ " RETURN n" ++ rest) ∧
          found.params.Perm (condition.params ++ w.bindings) := by
  refine ⟨⟨outside, fun label q => ?_⟩, fun label s w => ?_⟩
  · have hclosed := closed_request label q
    rw [outside_outline]
    exact ⟨hclosed.scans.parts?_eq, hclosed.params, hclosed.nodup⟩
  · have hfilter := (closed_matching label s).params
    refine ⟨?_, exists_text_find label s w, ?_⟩
    · simp only [statement, count, matching, String.append_assoc]
      rfl
    · exact (closed_find label s w).params.trans (hfilter.symm.append_right _)

end Graph

end TenantStore
