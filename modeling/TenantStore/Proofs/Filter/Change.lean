import TenantStore.Filter.Tree

/-!
# Changes to filter trees

A tree is changed at the node of a number. A change at a number that no node has changes nothing
(`Node.modify_of_forall_ne`), two changes at one node are one (`Node.modify_modify_self`), and a
change below a child that was adopted just before is a change of that child alone
(`Node.modify_adoptAll_of_forall_ne`). The nodes of a tree after an adoption are the adopted ones
and the old ones, of which one has more children (`Node.mem_preorder_modify_adoptAll`).
-/

namespace TenantStore.Node

/-- The node with more children behind the others. -/
def adoptAll (more : List Node) : Node → Node
  | mk id name predicate children => mk id name predicate (children ++ more)

theorem adopt_eq_adoptAll (child : Node) : adopt child = adoptAll [child] := by
  funext n
  cases n
  rfl

theorem id_adoptAll (more : List Node) (n : Node) : (adoptAll more n).id = n.id := by
  cases n
  rfl

theorem adoptAll_adoptAll (more others : List Node) (n : Node) :
    adoptAll others (adoptAll more n) = adoptAll (more ++ others) n := by
  cases n
  simp only [adoptAll, List.append_assoc]

theorem modifyList_append (target : Nat) (f : Node → Node) (ns ms : List Node) :
    modifyList target f (ns ++ ms) = modifyList target f ns ++ modifyList target f ms := by
  induction ns with
  | nil => rfl
  | cons n ns ih => simp only [List.cons_append, modifyList, ih]

mutual

/-- A change at a number that no node has changes nothing. -/
theorem modify_of_forall_ne {target : Nat} {f : Node → Node} : (n : Node) →
    (∀ m ∈ n.preorder, m.id ≠ target) → modify target f n = n
  | mk id name predicate children, h => by
      simp only [preorder, List.mem_cons, forall_eq_or_imp] at h
      obtain ⟨hid, hchildren⟩ := h
      have hid : id ≠ target := hid
      rw [modify, if_neg hid, modifyList_of_forall_ne children hchildren]

/-- A change at a number that none of the nodes has changes nothing. -/
theorem modifyList_of_forall_ne {target : Nat} {f : Node → Node} : (ns : List Node) →
    (∀ m ∈ preorderList ns, m.id ≠ target) → modifyList target f ns = ns
  | [], _ => rfl
  | n :: ns, h => by
      simp only [preorderList, List.mem_append] at h
      rw [modifyList, modify_of_forall_ne n fun m hm => h m (Or.inl hm),
        modifyList_of_forall_ne ns fun m hm => h m (Or.inr hm)]

end

mutual

/-- Adopting nothing changes nothing. -/
theorem modify_adoptAll_nil {target : Nat} : (n : Node) → n.modify target (adoptAll []) = n
  | mk id name predicate children => by
      rw [modify, adoptAll, List.append_nil, modifyList_adoptAll_nil children, ite_self]

/-- Adopting nothing changes nothing. -/
theorem modifyList_adoptAll_nil {target : Nat} : (ns : List Node) →
    modifyList target (adoptAll []) ns = ns
  | [] => rfl
  | n :: ns => by rw [modifyList, modify_adoptAll_nil n, modifyList_adoptAll_nil ns]

end

mutual

/-- Two changes at one node are one change, if the first leaves the number as it is. -/
theorem modify_modify_self {target : Nat} {f g : Node → Node} (hf : ∀ m, (f m).id = m.id) :
    (n : Node) → (n.modify target f).modify target g = n.modify target fun m => g (f m)
  | mk id name predicate children => by
      simp only [modify]
      by_cases hid : id = target
      · rw [if_pos hid, if_pos hid]
        have hid' : (f (mk id name predicate children)).id = target := (hf _).trans hid
        cases hm : f (mk id name predicate children) with
        | mk id' name' predicate' children' =>
            rw [hm] at hid'
            exact if_pos hid'
      · rw [if_neg hid, if_neg hid, modify, if_neg hid, modifyList_modifyList_self hf children]

/-- Two changes at one node are one change, if the first leaves the number as it is. -/
theorem modifyList_modifyList_self {target : Nat} {f g : Node → Node}
    (hf : ∀ m, (f m).id = m.id) : (ns : List Node) →
      modifyList target g (modifyList target f ns) = modifyList target (fun m => g (f m)) ns
  | [] => rfl
  | n :: ns => by
      rw [modifyList, modifyList, modifyList, modify_modify_self hf n,
        modifyList_modifyList_self hf ns]

end

mutual

/-- After an adoption, a change at a number that no old node has is a change of what was adopted. -/
theorem modify_adoptAll_of_forall_ne {target fresh : Nat} {more : List Node} {f : Node → Node} :
    (n : Node) → (∀ m ∈ n.preorder, m.id ≠ fresh) →
      (n.modify target (adoptAll more)).modify fresh f =
        n.modify target (adoptAll (modifyList fresh f more))
  | mk id name predicate children, h => by
      simp only [preorder, List.mem_cons, forall_eq_or_imp] at h
      obtain ⟨hid, hchildren⟩ := h
      have hid : id ≠ fresh := hid
      simp only [modify]
      by_cases htarget : id = target
      · rw [if_pos htarget, if_pos htarget, adoptAll, adoptAll, modify, if_neg hid,
          modifyList_append, modifyList_of_forall_ne children hchildren]
      · rw [if_neg htarget, if_neg htarget, modify, if_neg hid,
          modifyList_adoptAll_of_forall_ne children hchildren]

/-- After an adoption, a change at a number that no old node has is a change of what was adopted. -/
theorem modifyList_adoptAll_of_forall_ne {target fresh : Nat} {more : List Node}
    {f : Node → Node} : (ns : List Node) → (∀ m ∈ preorderList ns, m.id ≠ fresh) →
      modifyList fresh f (modifyList target (adoptAll more) ns) =
        modifyList target (adoptAll (modifyList fresh f more)) ns
  | [], _ => rfl
  | n :: ns, h => by
      simp only [preorderList, List.mem_append] at h
      rw [modifyList, modifyList, modifyList,
        modify_adoptAll_of_forall_ne n fun m hm => h m (Or.inl hm),
        modifyList_adoptAll_of_forall_ne ns fun m hm => h m (Or.inr hm)]

end

/-- The node `n` is `m`, but that it may have more children. -/
def Extends (m n : Node) : Prop :=
  n.id = m.id ∧ n.name = m.name ∧ (n.children = [] → m.children = [])

theorem Extends.refl (n : Node) : Extends n n :=
  ⟨rfl, rfl, fun h => h⟩

mutual

/-- The nodes after an adoption are the adopted ones and the old ones. -/
theorem mem_preorder_modify_adoptAll {target : Nat} {more : List Node} {k : Node} : (n : Node) →
    k ∈ (n.modify target (adoptAll more)).preorder →
      k ∈ preorderList more ∨ ∃ m ∈ n.preorder, Extends m k
  | mk id name predicate children, h => by
      simp only [modify] at h
      by_cases hid : id = target
      · rw [if_pos hid, adoptAll, preorder, preorderList_eq_flatMap, List.flatMap_append,
          ← preorderList_eq_flatMap, ← preorderList_eq_flatMap, List.mem_cons,
          List.mem_append] at h
        rcases h with rfl | h | h
        · refine Or.inr ⟨mk id name predicate children, by simp [preorder], rfl, rfl, ?_⟩
          intro hnil
          exact (List.append_eq_nil_iff.mp hnil).1
        · exact Or.inr ⟨k, by simp [preorder, h], Extends.refl k⟩
        · exact Or.inl h
      · rw [if_neg hid, preorder, List.mem_cons] at h
        rcases h with rfl | h
        · refine Or.inr ⟨mk id name predicate children, by simp [preorder], rfl, rfl, ?_⟩
          intro hnil
          cases children with
          | nil => rfl
          | cons c cs => simp [Node.children, modifyList] at hnil
        · rcases mem_preorderList_modifyList_adoptAll children h with h | ⟨m, hm, hext⟩
          · exact Or.inl h
          · exact Or.inr ⟨m, by simp [preorder, hm], hext⟩

/-- The nodes after an adoption are the adopted ones and the old ones. -/
theorem mem_preorderList_modifyList_adoptAll {target : Nat} {more : List Node} {k : Node} :
    (ns : List Node) → k ∈ preorderList (modifyList target (adoptAll more) ns) →
      k ∈ preorderList more ∨ ∃ m ∈ preorderList ns, Extends m k
  | [], h => by simp [modifyList, preorderList] at h
  | n :: ns, h => by
      rw [modifyList, preorderList, List.mem_append] at h
      rcases h with h | h
      · rcases mem_preorder_modify_adoptAll n h with h | ⟨m, hm, hext⟩
        · exact Or.inl h
        · exact Or.inr ⟨m, by simp [preorderList, hm], hext⟩
      · rcases mem_preorderList_modifyList_adoptAll ns h with h | ⟨m, hm, hext⟩
        · exact Or.inl h
        · exact Or.inr ⟨m, by simp [preorderList, hm], hext⟩

end

end TenantStore.Node
