import Mathlib.Data.List.Infix
import Mathlib.Order.Bounds.Basic
import TenantStore.Proofs.Access
import TenantStore.Proofs.Filter.Acceptance

/-!
# The depth of a filter tree

The depth of a tree is the greatest number of groups on a way down from the root. A tree that events
build grows at the end of one way, so it gets as deep as that way ever got (`Node.Grows.depth`). The
way leads to the innermost open group. Its length can be counted from the events: it passes the
groups that are open, and one more if the root was taken over by a group that started first and has
ended since (`FilterEvent.level`, `Draft.Consistent.weight_add_length`).

So the depth of the tree is the greatest level along the events
(`Draft.Consistent.isGreatest_depth`), which is the greatest number of groups that were open at
once, or one more (`Filter.depth_ofEvents`).
-/

namespace TenantStore

/-! ## Growing deeper -/

/-- The number of groups that a node of this name is. -/
def NodeName.weight : NodeName → Nat
  | .combinator _ => 1
  | _ => 0

namespace Node

theorem depth_mk (id : Nat) (name : NodeName) (predicate : Option Predicate)
    (children : List Node) :
    (mk id name predicate children).depth = name.weight + depthList children := by
  cases name <;> simp only [depth, NodeName.weight]

theorem depthList_append (ns ms : List Node) :
    depthList (ns ++ ms) = max (depthList ns) (depthList ms) := by
  induction ns with
  | nil => simp [depthList]
  | cons n ns ih => simp only [List.cons_append, depthList, ih, Nat.max_assoc]

theorem depthList_singleton (n : Node) : depthList [n] = n.depth :=
  Nat.max_zero _

/-- A group that has a name is one group. -/
theorem weight_eq_one {n : Node} (hgroup : n.IsGroup) (hnamed : n.name ≠ .unnamed) :
    n.name.weight = 1 := by
  cases hname : n.name with
  | unnamed => exact absurd hname hnamed
  | combinator c => rfl
  | field name => exact absurd hname (hgroup name)

namespace Grows

variable {new n grown : Node} {path : List Nat}

theorem isGroup (h : Grows new path n grown) : n.IsGroup := by
  cases h <;> assumption

theorem length_pos (h : Grows new path n grown) : 0 < path.length := by
  cases h <;> exact Nat.succ_pos _

/-- A node that grows gets as deep as the way to what it adopts, unless it was deeper. -/
theorem depth (h : Grows new path n grown)
    (hnamed : ∀ m ∈ preorderList n.children, m.name ≠ .unnamed) :
    grown.depth = max n.depth (n.name.weight + (path.length - 1) + new.depth) := by
  induction h with
  | @single id name predicate children hgroup =>
      rw [depth_mk, depth_mk, depthList_append, depthList_singleton, ← Nat.add_max_add_left]
      rfl
  | @cons id name predicate before child grown path hgroup hpath ih =>
      have hmem : ∀ m ∈ child.preorder, m.name ≠ .unnamed := by
        intro m hm
        refine hnamed m ?_
        rw [children, preorderList_append, preorderList, preorderList, List.append_nil]
        exact List.mem_append_right _ hm
      have hbelow : ∀ m ∈ preorderList child.children, m.name ≠ .unnamed := by
        intro m hm
        refine hmem m ?_
        cases child
        exact List.mem_cons_of_mem _ hm
      have hweight := weight_eq_one hpath.isGroup (hmem child (mem_preorder_self child))
      have hgrown := ih hbelow
      have hpos := hpath.length_pos
      rw [depth_mk, depth_mk, depthList_append, depthList_append, depthList_singleton,
        depthList_singleton, hgrown, hweight]
      simp only [Node.name, List.length_cons]
      omega

end Grows
end Node

/-! ## Levels -/

namespace FilterEvent

variable {es : List FilterEvent}

/-- The first event starts a group, and the group has ended. -/
def FirstGroupClosed (es : List FilterEvent) : Prop :=
  (∃ combinator, es.head? = some (groupStart combinator)) ∧ ¬ FirstGroupOpen es

open Classical in
/-- The number of groups around the events that follow: those that are open, and a group that took
over the root also after its end. -/
noncomputable def level (es : List FilterEvent) : Nat :=
  if FirstGroupClosed es then openAfter es + 1 else openAfter es

theorem level_of_firstGroupClosed (h : FirstGroupClosed es) : level es = openAfter es + 1 :=
  if_pos h

theorem level_of_not_firstGroupClosed (h : ¬ FirstGroupClosed es) : level es = openAfter es :=
  if_neg h

theorem level_nil : level [] = 0 :=
  level_of_not_firstGroupClosed fun ⟨⟨_, h⟩, _⟩ => nomatch h

theorem level_singleton (combinator : Combinator) : level [groupStart combinator] = 1 :=
  level_of_not_firstGroupClosed fun h => h.2 (firstGroupOpen_singleton combinator)

/-- An event that ends no group ends not the first one either. -/
theorem firstGroupClosed_append {e : FilterEvent} (hes : es ≠ [] ∨ e.isStart = false)
    (hend : e.isEnd = false) : FirstGroupClosed (es ++ [e]) ↔ FirstGroupClosed es := by
  rw [FirstGroupClosed, FirstGroupClosed, firstGroupOpen_append_of_not_isEnd hes hend]
  refine and_congr_left fun _ => ?_
  cases es with
  | nil =>
      have hstart : e.isStart = false := hes.resolve_left fun hne => hne rfl
      refine iff_of_false ?_ nofun
      rintro ⟨combinator, h⟩
      cases h
      cases hstart
  | cons first rest => exact Iff.rfl

theorem openAfter_append_comparison (es : List FilterEvent) (field : String) (operator : Operator)
    (operand : Operand) : openAfter (es ++ [comparison field operator operand]) = openAfter es := by
  simp [openAfter, isStart, isEnd]

theorem openAfter_append_groupStart (h : es.countP isEnd ≤ es.countP isStart)
    (combinator : Combinator) : openAfter (es ++ [groupStart combinator]) = openAfter es + 1 := by
  have hstart : (es ++ [groupStart combinator]).countP isStart = es.countP isStart + 1 := by
    simp [isStart]
  have hend : (es ++ [groupStart combinator]).countP isEnd = es.countP isEnd := by
    simp [isEnd]
  rw [openAfter, openAfter, hstart, hend, Nat.sub_add_comm h]

theorem openAfter_append_groupEnd (es : List FilterEvent) :
    openAfter (es ++ [groupEnd]) = openAfter es - 1 := by
  have hstart : (es ++ [groupEnd]).countP isStart = es.countP isStart := by
    simp [isStart]
  have hend : (es ++ [groupEnd]).countP isEnd = es.countP isEnd + 1 := by
    simp [isEnd]
  rw [openAfter, openAfter, hstart, hend, Nat.sub_add_eq]

/-- A comparison stays on the level. -/
theorem level_append_comparison (es : List FilterEvent) (field : String) (operator : Operator)
    (operand : Operand) : level (es ++ [comparison field operator operand]) = level es := by
  have hclosed : FirstGroupClosed (es ++ [comparison field operator operand]) ↔
      FirstGroupClosed es :=
    firstGroupClosed_append (.inr rfl) rfl
  rw [level, propext hclosed, openAfter_append_comparison, level]

/-- A group that does not start first leads one level down. -/
theorem level_append_groupStart (hes : es ≠ []) (h : es.countP isEnd ≤ es.countP isStart)
    (combinator : Combinator) : level (es ++ [groupStart combinator]) = level es + 1 := by
  have hclosed : FirstGroupClosed (es ++ [groupStart combinator]) ↔ FirstGroupClosed es :=
    firstGroupClosed_append (.inl hes) rfl
  rw [level, propext hclosed, openAfter_append_groupStart h, level]
  split <;> rfl

/-- The end of a group leads to no level below. -/
theorem level_append_groupEnd_le (h : 0 < openAfter es) : level (es ++ [groupEnd]) ≤ level es := by
  simp only [level, openAfter_append_groupEnd]
  split <;> split <;> omega

/-- The values that a number has along events. -/
def along (f : List FilterEvent → Nat) (es : List FilterEvent) : Set Nat :=
  {n | ∃ p, p <+: es ∧ f p = n}

theorem along_nil (f : List FilterEvent → Nat) : along f [] = {f []} := by
  ext n
  simp [along, eq_comm]

theorem along_append (f : List FilterEvent → Nat) (es : List FilterEvent) (e : FilterEvent) :
    along f (es ++ [e]) = insert (f (es ++ [e])) (along f es) := by
  ext n
  simp only [along, Set.mem_ofPred_eq, Set.mem_insert_iff, List.prefix_concat_iff, or_and_right,
    exists_or, exists_eq_left]
  exact or_congr_left eq_comm

theorem exists_isGreatest_along (f : List FilterEvent → Nat) (es : List FilterEvent) :
    ∃ n, IsGreatest (along f es) n := by
  induction es using List.reverseRecOn with
  | nil => exact ⟨f [], along_nil f ▸ isGreatest_singleton⟩
  | append_singleton es e ih =>
      obtain ⟨n, hn⟩ := ih
      exact ⟨_, along_append f es e ▸ hn.insert _⟩

/-! ## Later groups -/

/-- The first event starts a group, and behind its end a group that starts while no group is open
comes to the point where so many groups are open. -/
def LaterGroupReaches (es : List FilterEvent) (n : Nat) : Prop :=
  (∃ combinator, es.head? = some (groupStart combinator)) ∧
    ∃ before group after, es = before ++ group ++ after ∧ before ≠ [] ∧ openAfter before = 0 ∧
      FirstGroupOpen group ∧ openAfter group = n

theorem LaterGroupReaches.pos {n : Nat} (h : LaterGroupReaches es n) : 0 < n := by
  obtain ⟨-, -, group, -, -, -, -, hgroup, rfl⟩ := h
  exact Nat.sub_pos_of_lt hgroup.countP_lt

/-- The first group was open at first. -/
theorem FirstGroupClosed.one_mem_along {p : List FilterEvent} (h : FirstGroupClosed p)
    (hp : p <+: es) : 1 ∈ along openAfter es := by
  obtain ⟨⟨combinator, hhead⟩, -⟩ := h
  obtain ⟨rest, rfl⟩ := List.head?_eq_some_iff.mp hhead
  exact ⟨[groupStart combinator], (List.prefix_append _ rest).trans hp, rfl⟩

/-- At no point have more groups ended than started. -/
def Balanced (es : List FilterEvent) : Prop :=
  ∀ p, p <+: es → p.countP isEnd ≤ p.countP isStart

theorem Balanced.initial {p : List FilterEvent} (h : Balanced es) (hp : p <+: es) : Balanced p :=
  fun q hq => h q (hq.trans hp)

/-- Behind events that leave no group open, the others decide how many are open. -/
theorem openAfter_append_of_eq_zero {before : List FilterEvent} (group : List FilterEvent)
    (h : Balanced before) (hzero : openAfter before = 0) :
    openAfter (before ++ group) = openAfter group := by
  have hle := h before (List.prefix_refl before)
  simp only [openAfter, List.countP_append] at hzero ⊢
  omega

/-- Groups that are open lie in one that started when no group was open. -/
theorem exists_firstGroupOpen (h : Balanced es) (hopen : 0 < openAfter es) :
    ∃ before group, es = before ++ group ∧ openAfter before = 0 ∧ FirstGroupOpen group := by
  induction es using List.reverseRecOn with
  | nil => cases hopen
  | append_singleton es e ih =>
      have hes : Balanced es := h.initial (List.prefix_append es [e])
      rcases Nat.eq_zero_or_pos (openAfter es) with hzero | hpos
      · -- No group was open, so the last event is the start.
        cases e with
        | groupStart combinator =>
            exact ⟨es, _, rfl, hzero, firstGroupOpen_singleton combinator⟩
        | groupEnd => simp [openAfter_append_groupEnd, hzero] at hopen
        | comparison field operator operand =>
            simp [openAfter_append_comparison, hzero] at hopen
      · obtain ⟨before, group, rfl, hbefore, hgroup⟩ := ih hes hpos
        refine ⟨before, group ++ [e], List.append_assoc .., hbefore, ?_⟩
        rw [firstGroupOpen_append hgroup.ne_nil]
        refine ⟨hgroup, Nat.lt_of_sub_pos ?_⟩
        rwa [List.append_assoc,
          openAfter_append_of_eq_zero _ (hes.initial (List.prefix_append ..)) hbefore] at hopen

/-- A later group has so many groups open at some point exactly if so many are open at some point
behind the end of the first group. -/
theorem laterGroupReaches_iff (h : Balanced es) {n : Nat} (hn : 0 < n) :
    LaterGroupReaches es n ↔ ∃ p, p <+: es ∧ FirstGroupClosed p ∧ openAfter p = n := by
  constructor
  · rintro ⟨hhead, before, group, after, rfl, hne, hzero, -, hgroup⟩
    have hinitial : before ++ group <+: before ++ group ++ after := List.prefix_append ..
    refine ⟨before ++ group, hinitial, ⟨?_, fun hopen => ?_⟩, ?_⟩
    · obtain ⟨first, rest, rfl⟩ := List.exists_cons_of_ne_nil hne
      exact hhead
    · have hlt := hopen.2 before (List.prefix_append ..) hne
      simp only [openAfter] at hzero
      omega
    · rw [openAfter_append_of_eq_zero _
        ((h.initial hinitial).initial (List.prefix_append ..)) hzero, hgroup]
  · rintro ⟨p, ⟨after, rfl⟩, ⟨⟨combinator, hhead⟩, hclosed⟩, rfl⟩
    have hp : Balanced p := h.initial (List.prefix_append ..)
    obtain ⟨before, group, rfl, hzero, hgroup⟩ := exists_firstGroupOpen hp hn
    refine ⟨⟨combinator, ?_⟩, before, group, after, rfl, ?_, hzero, hgroup, ?_⟩
    · rw [List.head?_append, hhead]
      rfl
    · rintro rfl
      exact hclosed hgroup
    · rw [openAfter_append_of_eq_zero _ (hp.initial (List.prefix_append ..)) hzero]

end FilterEvent

open FilterEvent (openAfter level along LaterGroupReaches FirstGroupClosed FirstGroupOpen Balanced
  isStart isEnd)

/-! ## The depth of a draft -/

namespace Draft

variable {naming : Naming} {d : Draft} {es : List FilterEvent}

namespace Consistent

/-- The way to the innermost open group passes as many groups as the level says. -/
theorem weight_add_length (h : d.Consistent naming es) {path : List Nat}
    (hpath : Node.Spine path d.tree.root)
    (hscopes : FirstGroupOpen es ∧ d.scopes = 0 :: path ∨ ¬ FirstGroupOpen es ∧ d.scopes = path) :
    d.tree.root.name.weight + (path.length - 1) = level es := by
  have hname : d.tree.root.name = FilterEvent.rootName es := congrArg Prod.fst h.tree.label_root.1
  have hlength : d.scopes.length = openAfter es + 1 := by
    rw [← h.openGroups_eq, scopes, List.length_reverse]
    rfl
  have hpos := List.length_pos_iff.mpr hpath.ne_nil
  rcases hscopes with ⟨hopen, hscopes⟩ | ⟨hopen, hscopes⟩
  · obtain ⟨combinator, hhead⟩ := hopen.1
    rw [FilterEvent.level_of_not_firstGroupClosed fun hclosed => hclosed.2 hopen, hname,
      FilterEvent.rootName, hhead]
    rw [hscopes, List.length_cons] at hlength
    simp only [NodeName.weight]
    omega
  · rw [hscopes] at hlength
    by_cases hclosed : FirstGroupClosed es
    · obtain ⟨combinator, hhead⟩ := hclosed.1
      rw [FilterEvent.level_of_firstGroupClosed hclosed, hname, FilterEvent.rootName, hhead]
      simp only [NodeName.weight]
      omega
    · have hunnamed : FilterEvent.rootName es = .unnamed := by
        unfold FilterEvent.rootName
        split
        · rename_i combinator hhead
          exact absurd ⟨⟨combinator, hhead⟩, hopen⟩ hclosed
        · rfl
      rw [FilterEvent.level_of_not_firstGroupClosed hclosed, hname, hunnamed]
      simp only [NodeName.weight]
      omega

/-- All nodes below the root have a name. -/
theorem named (h : d.Consistent naming es) :
    ∀ m ∈ Node.preorderList d.tree.root.children, m.name ≠ .unnamed := by
  intro m hm hname
  have hlabel := List.mem_map_of_mem (f := Node.label) hm
  rw [h.tree.label_root.2] at hlabel
  obtain ⟨e, -, he⟩ := List.mem_filterMap.mp hlabel
  rcases FilterEvent.label?_cases he with ⟨field, predicate, hl⟩ | ⟨combinator, hl⟩
  · exact nomatch hname.symm.trans (congrArg Prod.fst hl)
  · exact nomatch hname.symm.trans (congrArg Prod.fst hl)

/-- A node that is added to the innermost open group lies below as many groups as the level says. -/
theorem depth_addNode (h : d.Consistent naming es) (name : NodeName)
    (predicate : Option Predicate) :
    (d.tree.addNode d.current name predicate).depth =
      max d.tree.depth (level es + name.weight) := by
  obtain ⟨path, hpath, hlast, hscopes⟩ := h.exists_spine
  have hgrows := hpath.grows h.tree.nodup hlast (.leaf d.tree.size name predicate)
  have hdepth := hgrows.depth h.named
  rwa [h.weight_add_length hpath hscopes, Node.leaf, Node.depth_mk] at hdepth

/-- An event leads a tree down to the level behind it, unless the tree is deeper. -/
theorem depth_accept (h : d.Consistent naming es) (hlevel : level es ≤ d.tree.depth)
    {e : FilterEvent} {next : Draft} (haccept : d.accept naming e = .ok next) :
    next.tree.depth = max d.tree.depth (level (es ++ [e])) := by
  cases e with
  | groupStart combinator =>
      cases haccept
      by_cases hes : es = []
      · subst hes
        rw [h.untouched rfl, List.nil_append, FilterEvent.level_singleton]
        rfl
      · have hle : es.countP isEnd ≤ es.countP isStart := h.balance ▸ Nat.le_add_right ..
        rw [FilterEvent.level_append_groupStart hes hle, Draft.startGroup,
          h.isUntouched_eq_false hes]
        exact h.depth_addNode (.combinator combinator) none
  | groupEnd =>
      rw [Draft.accept, Draft.endGroup] at haccept
      split at haccept
      · cases haccept
      · rename_i outer rest henclosing
        cases haccept
        have hpos : 0 < openAfter es := by
          rw [← h.openGroups_eq, openGroups, henclosing]
          exact Nat.succ_pos _
        exact (Nat.max_eq_left ((FilterEvent.level_append_groupEnd_le hpos).trans hlevel)).symm
  | comparison field operator operand =>
      rw [Draft.accept, Draft.addComparison] at haccept
      split at haccept
      · cases haccept
      · cases haccept
        rw [FilterEvent.level_append_comparison]
        exact h.depth_addNode _ _

/-- What holds of a draft and of the events that led to it holds after more events that are
accepted, if each event that is accepted preserves it. -/
theorem replay_induction {P : List FilterEvent → Draft → Prop}
    (hstep : ∀ {before : List FilterEvent} {e : FilterEvent} {d next : Draft},
      d.Consistent naming before → P before d → d.accept naming e = .ok next →
        P (before ++ [e]) next)
    {before : List FilterEvent} (h : d.Consistent naming before) (hd : P before d) {next : Draft}
    (hreplay : d.replay naming es = .ok next) : P (before ++ es) next := by
  induction es generalizing d before with
  | nil =>
      cases hreplay
      rwa [List.append_nil]
  | cons e es ih =>
      rw [replay] at hreplay
      cases haccept : d.accept naming e with
      | error err =>
          rw [haccept] at hreplay
          cases hreplay
      | ok d' =>
          rw [haccept] at hreplay
          rw [List.append_cons]
          exact ih (h.accept haccept) (hstep h hd haccept) hreplay

/-- Events that are accepted lead a tree down to the greatest level along them. -/
theorem isGreatest_depth {before : List FilterEvent} (h : d.Consistent naming before)
    (hdepth : IsGreatest (along level before) d.tree.depth) {next : Draft}
    (hreplay : d.replay naming es = .ok next) :
    IsGreatest (along level (before ++ es)) next.tree.depth := by
  refine replay_induction (P := fun events d => IsGreatest (along level events) d.tree.depth)
    (fun {before e d next} h hdepth haccept => ?_) h hdepth hreplay
  have hlevel : level before ≤ d.tree.depth := hdepth.2 ⟨before, List.prefix_refl _, rfl⟩
  rw [FilterEvent.along_append, h.depth_accept hlevel haccept, Nat.max_comm]
  exact hdepth.insert _

/-- Of events that are accepted, no more end a group than start one. -/
theorem balanced {before : List FilterEvent} (h : d.Consistent naming before)
    (hbefore : Balanced before) {next : Draft} (hreplay : d.replay naming es = .ok next) :
    Balanced (before ++ es) := by
  refine replay_induction (P := fun events _ => Balanced events)
    (fun {before e d next} h hbefore haccept => ?_) h hbefore hreplay
  intro p hp
  rcases List.prefix_concat_iff.mp hp with rfl | hp
  · exact (h.accept haccept).balance ▸ Nat.le_add_right ..
  · exact hbefore p hp

end Consistent
end Draft

/-- Let `n` be the greatest number of groups that are open at once along a stream of events. The
tree of the stream has the depth `n` or `n + 1`. It has the depth `n + 1` exactly if the first event
starts a group and behind its end another group that starts while none is open comes to `n` open
groups. -/
theorem Filter.depth_ofEvents {naming : Naming} {es : List FilterEvent} {tree : Tree}
    (h : Filter.ofEvents naming es = .ok tree) :
    ∃ n, IsGreatest (along openAfter es) n ∧ (tree.depth = n ∨ tree.depth = n + 1) ∧
      (tree.depth = n + 1 ↔ LaterGroupReaches es n) := by
  obtain ⟨d, hreplay, hfinish⟩ := exists_of_bind_eq_ok h
  have htree : d.tree = tree := by
    rw [Draft.finish] at hfinish
    split at hfinish
    · exact Except.ok.inj hfinish
    · cases hfinish
  have hempty := Draft.consistent_empty naming
  have hbalanced : Balanced es :=
    hempty.balanced (fun p hp => List.prefix_nil.mp hp ▸ Nat.le_refl _) hreplay
  have hdepth : IsGreatest (along level es) tree.depth := by
    rw [← htree]
    refine hempty.isGreatest_depth ?_ hreplay
    rw [FilterEvent.along_nil, FilterEvent.level_nil]
    exact isGreatest_singleton
  obtain ⟨n, hn⟩ := FilterEvent.exists_isGreatest_along openAfter es
  have hlow : n ≤ tree.depth := by
    obtain ⟨p, hp, rfl⟩ := hn.1
    refine le_trans ?_ (hdepth.2 ⟨p, hp, rfl⟩)
    unfold level
    split <;> omega
  obtain ⟨p, hp, hlevel⟩ := hdepth.1
  have hopen : openAfter p ≤ n := hn.2 ⟨p, hp, rfl⟩
  have hhigh : tree.depth ≤ n + 1 := by
    rw [← hlevel, level]
    split <;> omega
  refine ⟨n, hn, by omega, fun hdeep => ?_, fun hlater => ?_⟩
  · -- The greatest level is above the number of open groups, so the first group has ended.
    have hclosed : FirstGroupClosed p := by
      by_contra hnot
      rw [FilterEvent.level_of_not_firstGroupClosed hnot] at hlevel
      omega
    rw [FilterEvent.level_of_firstGroupClosed hclosed] at hlevel
    have hpn : openAfter p = n := by omega
    have hpos : 0 < n := hn.2 (hclosed.one_mem_along hp)
    exact (FilterEvent.laterGroupReaches_iff hbalanced hpos).mpr ⟨p, hp, hclosed, hpn⟩
  · obtain ⟨p, hp, hclosed, hpn⟩ :=
      (FilterEvent.laterGroupReaches_iff hbalanced hlater.pos).mp hlater
    have hle := hdepth.2 ⟨p, hp, rfl⟩
    rw [FilterEvent.level_of_firstGroupClosed hclosed] at hle
    omega

/-- A later group that is nested as deep as any counts once more, under the group at the root. -/
theorem Filter.depth_ofEvents_later_group :
    let es : List FilterEvent :=
      [.groupStart .all, .groupEnd, .groupStart .any, .groupStart .all, .groupEnd, .groupEnd]
    ∃ tree, Filter.ofEvents Naming.document es = .ok tree ∧ IsGreatest (along openAfter es) 2 ∧
      LaterGroupReaches es 2 ∧ tree.depth = 3 := by
  intro es
  have hgreatest : IsGreatest (along openAfter es) 2 := by
    refine ⟨⟨_, List.take_prefix 4 es, rfl⟩, ?_⟩
    rintro _ ⟨p, hp, rfl⟩
    have hall : ∀ p ∈ es.inits, openAfter p ≤ 2 := by decide
    exact hall p ((List.mem_inits p es).mpr hp)
  have hlater : LaterGroupReaches es 2 := by
    refine ⟨⟨.all, rfl⟩, [.groupStart .all, .groupEnd], [.groupStart .any, .groupStart .all], _,
      rfl, List.cons_ne_nil _ _, rfl, ?_, rfl⟩
    have hgroup : FirstGroupOpen ([.groupStart .any] ++ [.groupStart .all]) ↔
        FirstGroupOpen [.groupStart .any] :=
      FilterEvent.firstGroupOpen_append_of_not_isEnd (.inl (List.cons_ne_nil _ _)) rfl
    exact hgroup.mpr (FilterEvent.firstGroupOpen_singleton .any)
  obtain ⟨tree, htree⟩ : ∃ tree, Filter.ofEvents Naming.document es = .ok tree := ⟨_, rfl⟩
  obtain ⟨n, hn, -, hdeep⟩ := Filter.depth_ofEvents htree
  cases hn.unique hgreatest
  exact ⟨tree, htree, hgreatest, hlater, hdeep.mpr hlater⟩

end TenantStore
