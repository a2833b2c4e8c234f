import TenantStore.Proofs.Cypher.Formula
import TenantStore.Proofs.Cypher.Token

/-!
# Parameters

The parameters of a condition are named by their numbers. Different numbers have different names
(`parameterName_inj`), so each value is kept under a name of its own (`perm_parameters`).
-/

namespace TenantStore.Cypher

theorem parameterName_inj {m n : Nat} : parameterName m = parameterName n ↔ m = n := by
  constructor
  · intro h
    have hlists := congrArg String.toList h
    unfold parameterName at hlists
    rw [String.toList_append, String.toList_append, List.append_cancel_left_eq,
      Nat.toString_eq_repr, Nat.toString_eq_repr, Nat.toList_repr, Nat.toList_repr] at hlists
    rw [← Nat.ofDigitChars_ten_toDigits (n := m), hlists, Nat.ofDigitChars_ten_toDigits]
  · exact fun h => h ▸ rfl

/-- A name of a parameter may stand without quotes. -/
theorem isIdentifier_parameterName (n : Nat) : IsIdentifier (parameterName n) := by
  unfold parameterName
  constructor
  · rw [String.toList_append]
    exact List.cons_ne_nil _ _
  · intro c hc
    rw [String.toList_append, Nat.toString_eq_repr, Nat.toList_repr] at hc
    rcases List.mem_append.mp hc with hc | hc
    · cases List.mem_singleton.mp hc
      decide
    · have hdigit : c.isDigit = true := Nat.isDigit_of_mem_toDigits (by decide) (by decide) hc
      unfold isWordChar Char.isAlphanum
      rw [hdigit, Bool.or_true]
      rfl

/-- Every value is kept under the name of its number. -/
theorem perm_parameters (values : List Json) :
    (parameters values).Perm (values.zipIdx.map fun (v, n) => (parameterName n, v)) := by
  refine Members.perm_ofList ?_
  rw [List.pairwise_map, List.pairwise_iff_getElem]
  intro i j hi hj hij h
  rw [List.getElem_zipIdx, List.getElem_zipIdx] at h
  have hnumbers := parameterName_inj.mp h
  omega

theorem supplies_parameters (values : List Json) :
    Supplies (Members.get? (parameters values)) 0 values := by
  intro n v hv
  have hsorted : Members.Sorted (parameters values) := Members.Sorted.ofList _
  rw [Members.get?_eq_some_iff_mem hsorted, (perm_parameters values).mem_iff, Nat.zero_add]
  refine List.mem_map.mpr ⟨(v, n), ?_, rfl⟩
  exact List.mk_mem_zipIdx_iff_getElem?.mpr hv

/-- A placeholder in front of a text is a token of its own. -/
theorem lex_placeholder {text : List Char} {ts : List Token} (htext : lex text = some ts)
    (hts : Apart ts) (n : Nat) :
    lex ((placeholder n).toList ++ text) = some (.parameter (parameterName n).toList :: ts) := by
  obtain ⟨hne, hchars⟩ := isIdentifier_parameterName n
  have hplain : backtick ∉ "$".toList ++ (parameterName n).toList := by
    intro h
    rcases List.mem_append.mp h with h | h
    · exact absurd h (by decide)
    · exact absurd (hchars backtick h) (by decide)
  rw [placeholder, String.toList_append, lex_append htext hplain, List.foldr_append,
    foldr_push_word hne hchars hts]
  rfl

end TenantStore.Cypher
