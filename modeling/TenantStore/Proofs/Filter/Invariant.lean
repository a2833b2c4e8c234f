import TenantStore.Filter.Draft
import TenantStore.Proofs.Filter.Listing

/-!
# Drafts after any events

Whatever events a draft is given, balanced or not, and however many of them it refuses, its open
groups lie on the right edge of its tree, so the tree grows at its right edge only. It follows that
the nodes in order are the nodes in the order of their creation, and the conditions of the tree from
left to right are the comparisons that were accepted, in the order of the events
(`Draft.regular_replayAll`).

What carries the induction is `Draft.Consistent`: the labels of the nodes in order can be read off
the accepted events, and the open groups are a way down along last children, in front of which the
root stands once more as long as a group that took over the root is open.
-/

namespace TenantStore

namespace FilterEvent

/-- The first event starts a group, and the group is still open: all events from the first to any
other start more groups than they end. -/
def FirstGroupOpen (es : List FilterEvent) : Prop :=
  (∃ combinator, es.head? = some (groupStart combinator)) ∧
    ∀ p, p <+: es → p ≠ [] → p.countP isEnd < p.countP isStart

variable {es : List FilterEvent}

/-- The first group stays open as long as fewer groups end than start. -/
theorem firstGroupOpen_append (h : es ≠ []) (e : FilterEvent) :
    FirstGroupOpen (es ++ [e]) ↔
      FirstGroupOpen es ∧ (es ++ [e]).countP isEnd < (es ++ [e]).countP isStart := by
  have hhead : (es ++ [e]).head? = es.head? := by
    cases es with
    | nil => exact absurd rfl h
    | cons first rest => rfl
  rw [FirstGroupOpen, FirstGroupOpen, hhead, and_assoc]
  refine and_congr_right fun _ =>
    ⟨fun hall => ⟨fun p hp => ?_, ?_⟩, fun ⟨hall, hlast⟩ p hp hne => ?_⟩
  · exact hall p (hp.trans (List.prefix_append _ _))
  · exact hall _ (List.prefix_refl _) (by simp)
  · rcases List.prefix_concat_iff.mp hp with rfl | hp
    · exact hlast
    · exact hall p hp hne

theorem not_firstGroupOpen_nil : ¬ FirstGroupOpen [] := by
  rintro ⟨⟨combinator, h⟩, -⟩
  cases h

theorem FirstGroupOpen.ne_nil (h : FirstGroupOpen es) : es ≠ [] := by
  rintro rfl
  exact not_firstGroupOpen_nil h

theorem FirstGroupOpen.countP_lt (h : FirstGroupOpen es) :
    es.countP isEnd < es.countP isStart :=
  h.2 es (List.prefix_refl es) h.ne_nil

/-- A group that starts first is open. -/
theorem firstGroupOpen_singleton (combinator : Combinator) :
    FirstGroupOpen [groupStart combinator] := by
  refine ⟨⟨combinator, rfl⟩, fun p hp hne => ?_⟩
  have hp : p <+: [] ++ [groupStart combinator] := hp
  rcases List.prefix_concat_iff.mp hp with rfl | hp
  · exact Nat.one_pos
  · exact absurd (List.prefix_nil.mp hp) hne

/-- An event that ends no group leaves the first group open, and opens it only as the first event.
-/
theorem firstGroupOpen_append_of_not_isEnd {e : FilterEvent} (hes : es ≠ [] ∨ e.isStart = false)
    (hend : e.isEnd = false) : FirstGroupOpen (es ++ [e]) ↔ FirstGroupOpen es := by
  by_cases hnil : es = []
  · have hstart : e.isStart = false := hes.resolve_left fun hne => hne hnil
    subst hnil
    refine iff_of_false ?_ not_firstGroupOpen_nil
    rintro ⟨⟨combinator, h⟩, -⟩
    cases h
    cases hstart
  · rw [firstGroupOpen_append hnil, List.countP_append, List.countP_append, and_iff_left_iff_imp]
    intro h
    have hlt := h.countP_lt
    have hone : [e].countP isEnd = 0 := by simp [hend]
    omega

end FilterEvent

namespace Draft

open FilterEvent (FirstGroupOpen isStart isEnd)

/-- The root and the nodes of the open groups, from the outside in. -/
def scopes (d : Draft) : List Nat :=
  (d.current :: d.enclosing).reverse

/-- The events that the draft accepts of those that it is given one after the other. -/
def accepted (naming : Naming) : Draft → List FilterEvent → List FilterEvent
  | _, [] => []
  | d, e :: es =>
    match d.accept naming e with
    | .ok next => e :: accepted naming next es
    | .error _ => accepted naming d es

/-! ## One event -/

/-- The draft is one that accepted the events. -/
structure Consistent (naming : Naming) (es : List FilterEvent) (d : Draft) : Prop where
  /-- The tree lists the events. -/
  tree : d.tree.Lists naming es
  /-- The open groups are a way down along last children, with the root once more in front of it
  while the group that took it over is open. -/
  spine : ∃ path, Node.Spine path d.tree.root ∧
    (FirstGroupOpen es ∧ d.scopes = 0 :: path ∨ ¬ FirstGroupOpen es ∧ d.scopes = path)
  /-- The groups that are open are those that started and did not end. -/
  balance : es.countP isStart = es.countP isEnd + d.enclosing.length
  head : es.head? ≠ some .groupEnd
  untouched : es = [] → d = .empty

theorem consistent_empty (naming : Naming) : empty.Consistent naming [] where
  tree := by
    refine ⟨rfl, rfl, fun m hm field _ => ?_⟩
    cases List.mem_singleton.mp hm
    rfl
  spine := ⟨[0], .single (fun _ h => nomatch h), .inr ⟨FilterEvent.not_firstGroupOpen_nil, rfl⟩⟩
  balance := rfl
  head := nofun
  untouched _ := rfl

namespace Consistent

variable {naming : Naming} {es : List FilterEvent} {d : Draft}

/-- The way down along last children ends at the current node. -/
theorem exists_spine (h : d.Consistent naming es) :
    ∃ path, Node.Spine path d.tree.root ∧ path.getLast? = some d.current ∧
      (FirstGroupOpen es ∧ d.scopes = 0 :: path ∨ ¬ FirstGroupOpen es ∧ d.scopes = path) := by
  obtain ⟨path, hpath, hscopes⟩ := h.spine
  have hlast : d.scopes.getLast? = some d.current := List.getLast?_reverse
  refine ⟨path, hpath, ?_, hscopes⟩
  rcases hscopes with ⟨-, hscopes⟩ | ⟨-, hscopes⟩
  · rwa [hscopes, List.getLast?_cons_of_ne_nil hpath.ne_nil] at hlast
  · rwa [hscopes] at hlast

/-- A draft that accepted an event has no node any more that a group could take over. -/
theorem isUntouched_eq_false (h : d.Consistent naming es) (hes : es ≠ []) :
    d.isUntouched = false := by
  unfold isUntouched
  split
  · rename_i node hfind
    have hmem : node ∈ d.tree.root.preorder := List.mem_of_find?_eq_some hfind
    by_cases hname : node.name = .unnamed
    · simp [h.tree.children_ne_nil hes h.head hmem hname]
    · simp [hname]
  · rfl

theorem head?_append (h : d.Consistent naming es) {e : FilterEvent}
    (he : es = [] → e ≠ .groupEnd) : (es ++ [e]).head? ≠ some .groupEnd := by
  cases es with
  | nil => exact fun heq => he rfl (Option.some.inj heq)
  | cons first rest => exact h.head

/-- A comparison leaves the groups open that are. -/
theorem addComparison (h : d.Consistent naming es) (field : String) (operator : Operator)
    (operand : Operand) :
    Consistent naming (es ++ [.comparison field operator operand])
      { d with
        tree := d.tree.addNode d.current (.field (naming.native field))
          (some (Predicate.ofComparison operator operand)) } := by
  obtain ⟨path, hpath, hlast, hscopes⟩ := h.exists_spine
  have hgrows := hpath.grows h.tree.nodup hlast
    (.leaf d.tree.size (.field (naming.native field))
      (some (Predicate.ofComparison operator operand)))
  have hopen : FirstGroupOpen (es ++ [.comparison field operator operand]) ↔ FirstGroupOpen es :=
    FilterEvent.firstGroupOpen_append_of_not_isEnd (.inr rfl) rfl
  refine ⟨h.tree.addNode hpath hlast (.inr rfl) rfl, ⟨path, hgrows.spine, ?_⟩, ?_,
    h.head?_append nofun, fun hnil => absurd hnil (by simp)⟩
  · rw [hopen]
    exact hscopes
  · rw [List.countP_append, List.countP_append, h.balance]
    exact Nat.add_right_comm _ _ _

/-- A group that starts first takes over the root. -/
theorem startGroup_empty (naming : Naming) (combinator : Combinator) :
    (empty.startGroup combinator).Consistent naming [.groupStart combinator] where
  tree := by
    refine ⟨rfl, rfl, fun m hm field _ => ?_⟩
    cases List.mem_singleton.mp hm
    rfl
  spine := by
    refine ⟨[0], .single (fun _ h => nomatch h), .inl ⟨?_, rfl⟩⟩
    exact FilterEvent.firstGroupOpen_singleton combinator
  balance := rfl
  head := nofun
  untouched := nofun

/-- A group that starts behind an event is open inside the groups that are. -/
theorem startGroup (h : d.Consistent naming es) (combinator : Combinator) :
    (d.startGroup combinator).Consistent naming (es ++ [.groupStart combinator]) := by
  by_cases hes : es = []
  · subst hes
    rw [h.untouched rfl]
    exact startGroup_empty naming combinator
  obtain ⟨path, hpath, hlast, hscopes⟩ := h.exists_spine
  have hgrows := hpath.grows h.tree.nodup hlast
    (.leaf d.tree.size (.combinator combinator) none)
  have hopen : FirstGroupOpen (es ++ [.groupStart combinator]) ↔ FirstGroupOpen es :=
    FilterEvent.firstGroupOpen_append_of_not_isEnd (.inl hes) rfl
  -- Behind an event there is no root any more that could be taken over.
  have hstart : d.startGroup combinator =
      ⟨d.tree.addNode d.current (.combinator combinator) none, d.tree.size,
        d.current :: d.enclosing⟩ := by
    rw [Draft.startGroup, h.isUntouched_eq_false hes]
    rfl
  have hinner : (d.startGroup combinator).scopes = d.scopes ++ [d.tree.size] := by
    rw [hstart, scopes, List.reverse_cons]
    rfl
  refine ⟨?_, ⟨path ++ [d.tree.size], ?_, ?_⟩, ?_, h.head?_append nofun,
    fun hnil => absurd hnil (by simp)⟩
  · rw [hstart]
    exact h.tree.addNode hpath hlast (.inl hes) rfl
  · rw [hstart]
    exact hgrows.spine_append nofun
  · rw [hinner, hopen]
    refine hscopes.imp ?_ ?_
    · rintro ⟨hfirst, hscopes⟩
      exact ⟨hfirst, by rw [hscopes, List.cons_append]⟩
    · rintro ⟨hfirst, hscopes⟩
      exact ⟨hfirst, by rw [hscopes]⟩
  · rw [hstart, List.countP_append, List.countP_append, h.balance]
    rfl

/-- When a group ends, the way ends at the group around it; if there is none, the root is not there
twice any more. -/
theorem endGroup (h : d.Consistent naming es) {outer : Nat} {rest : List Nat}
    (henclosing : d.enclosing = outer :: rest) :
    Consistent naming (es ++ [.groupEnd]) ⟨d.tree, outer, rest⟩ := by
  obtain ⟨path, hpath, hscopes⟩ := h.spine
  have hes : es ≠ [] := by
    intro hes
    rw [h.untouched hes] at henclosing
    cases henclosing
  have hscopes' : d.scopes = (outer :: rest).reverse ++ [d.current] := by
    rw [scopes, henclosing, List.reverse_cons]
  have hbalance := h.balance
  rw [henclosing, List.length_cons] at hbalance
  have hends : (es ++ [FilterEvent.groupEnd]).countP isEnd = es.countP isEnd + 1 := by
    rw [List.countP_append]
    rfl
  have hstarts : (es ++ [FilterEvent.groupEnd]).countP isStart = es.countP isStart := by
    rw [List.countP_append]
    rfl
  refine ⟨⟨h.tree.numbers, ?_, h.tree.fields⟩, ?_, ?_, h.head?_append fun hnil => absurd hnil hes,
    fun hnil => absurd hnil (by simp)⟩
  · rw [FilterEvent.labels_append (.inl hes), h.tree.labels]
    exact (List.append_nil _).symm
  · rw [FilterEvent.firstGroupOpen_append hes, hends, hstarts]
    rcases hscopes with ⟨hfirst, hscopes⟩ | ⟨hfirst, hscopes⟩
    · -- The root stands in front of the way: what is left is the root alone, or a shorter way.
      obtain ⟨init, x, rfl⟩ := (List.eq_nil_or_concat' path).resolve_left hpath.ne_nil
      rw [hscopes', ← List.cons_append] at hscopes
      obtain ⟨hinit, -⟩ := List.append_inj' hscopes rfl
      have hlength : rest.length = init.length := by
        have := congrArg List.length hinit
        simpa using this
      by_cases hnil : init = []
      · subst hnil
        -- Every group that started has ended, and the first one with them.
        refine ⟨[x], hpath, .inr ⟨fun hopen => ?_, ?_⟩⟩
        · have hlt := hopen.2
          rw [List.length_nil] at hlength
          omega
        · have hroot := hpath.head?_eq
          rw [h.tree.id_root] at hroot
          cases hroot
          exact hinit
      · refine ⟨init, hpath.of_append hnil, .inl ⟨⟨hfirst, ?_⟩, hinit⟩⟩
        have hpos := List.length_pos_iff.mpr hnil
        omega
    · rw [← hscopes, hscopes'] at hpath
      exact ⟨_, hpath.of_append (by simp), .inr ⟨fun hopen => hfirst hopen.1, rfl⟩⟩
  · rw [hends, hstarts, hbalance]
    exact (Nat.succ_add_eq_add_succ _ _).symm

/-- An accepted event is one event more. -/
theorem accept (h : d.Consistent naming es) {e : FilterEvent} {next : Draft}
    (haccept : d.accept naming e = .ok next) : next.Consistent naming (es ++ [e]) := by
  cases e with
  | groupStart combinator =>
      cases haccept
      exact h.startGroup combinator
  | groupEnd =>
      rw [Draft.accept, Draft.endGroup] at haccept
      split at haccept
      · cases haccept
      · rename_i outer rest henclosing
        cases haccept
        exact h.endGroup henclosing
  | comparison field operator operand =>
      rw [Draft.accept, Draft.addComparison] at haccept
      split at haccept
      · cases haccept
      · cases haccept
        exact h.addComparison field operator operand

/-- Events that are refused leave no trace. -/
theorem replayAll (h : d.Consistent naming es) (events : List FilterEvent) :
    (d.replayAll naming events).Consistent naming (es ++ d.accepted naming events) := by
  induction events generalizing d es with
  | nil => rwa [accepted, List.append_nil]
  | cons e events ih =>
      rw [Draft.replayAll, List.foldl_cons, acceptOrSkip, accepted]
      cases haccept : d.accept naming e with
      | ok next =>
          have hnext := ih (h.accept haccept)
          rwa [List.append_assoc] at hnext
      | error err => exact ih h

end Consistent

/-! ## Any events -/

theorem accepted_append (naming : Naming) (before after : List FilterEvent) (d : Draft) :
    d.accepted naming (before ++ after) =
      d.accepted naming before ++ (d.replayAll naming before).accepted naming after := by
  induction before generalizing d with
  | nil => rfl
  | cons e before ih =>
      rw [List.cons_append, accepted, accepted, replayAll, List.foldl_cons, acceptOrSkip]
      cases d.accept naming e with
      | ok next => exact congrArg (e :: ·) (ih next)
      | error err => exact ih d

/-- What is known of a draft that accepted some events. -/
structure Regular (naming : Naming) (es : List FilterEvent) (d : Draft) : Prop where
  /-- The open groups start at the root, and each is the last child of the one around it. While the
  first event has started a group that is open, the root stands in front once more. -/
  scopes : ∃ path, path.head? = some 0 ∧
    path.IsChain (fun outer inner =>
      ∃ n, d.tree.find? outer = some n ∧ n.children.getLast?.map Node.id = some inner) ∧
    (FirstGroupOpen es ∧ d.scopes = 0 :: path ∨ ¬ FirstGroupOpen es ∧ d.scopes = path)
  /-- What is open is a node, and it is the root or a group. -/
  groups : ∀ i ∈ d.scopes, ∃ n, d.tree.find? i = some n ∧ n.IsGroup ∧
    (i = 0 ∨ ∃ combinator, n.name = .combinator combinator)
  /-- The nodes in order are the nodes in the order of their creation. -/
  order : d.tree.root.preorder.map Node.id = List.range d.tree.size
  /-- Every node but the root is one child of exactly one node, which is older. -/
  parent : ∀ i, 0 < i → i < d.tree.size → ∃ p ∈ d.tree.root.preorder, p.id < i ∧
    (p.children.map Node.id).count i = 1 ∧
      ∀ q ∈ d.tree.root.preorder, i ∈ q.children.map Node.id → q = p
  /-- A condition on a field has a predicate and no children. -/
  field : ∀ n ∈ d.tree.root.preorder, ∀ field, n.name = .field field →
    n.predicate.isSome ∧ n.children = []
  /-- Groups have no predicate, and the root is not a condition on a field. -/
  group : d.tree.root.IsGroup ∧ ∀ n ∈ d.tree.root.preorder, n.IsGroup → n.predicate = none
  /-- Only the root may have no name. -/
  unnamed : ∀ n ∈ d.tree.root.preorder, n.name = .unnamed → n = d.tree.root
  /-- The conditions from left to right are the comparisons in order. -/
  terms : d.tree.root.clause.terms = es.filterMap (FilterEvent.term? naming) ∧
    d.tree.selection.allTerms = es.filterMap (FilterEvent.term? naming)

theorem Consistent.regular {naming : Naming} {es : List FilterEvent} {d : Draft}
    (h : d.Consistent naming es) : d.Regular naming es := by
  obtain ⟨path, hpath, hscopes⟩ := h.spine
  have hfind : ∀ {n}, n ∈ d.tree.root.preorder → d.tree.find? n.id = some n :=
    fun hn => Node.find?_eq_some h.tree.nodup hn
  -- A node is listed before its children, and numbers grow along the list.
  have hsorted : (d.tree.root.preorder.map Node.id).Pairwise (· < ·) := by
    rw [h.tree.numbers]
    exact List.pairwise_lt_range
  have hnode : ∀ i ∈ path, ∃ n, d.tree.find? i = some n ∧ n.IsGroup ∧
      (i = 0 ∨ ∃ combinator, n.name = .combinator combinator) := by
    intro i hi
    obtain ⟨n, hn, rfl, hgroup⟩ := hpath.exists_mem hi
    refine ⟨n, hfind hn, hgroup, ?_⟩
    rcases h.tree.classify hn with ⟨field, -, hname, -⟩ | ⟨combinator, hname, -⟩ | ⟨rfl, -⟩
    · exact absurd hname (hgroup field)
    · exact .inr ⟨combinator, hname⟩
    · exact .inl h.tree.id_root
  have hhead : path.head? = some 0 := by rw [hpath.head?_eq, h.tree.id_root]
  refine ⟨⟨path, hhead, ?_, hscopes⟩, ?_, h.tree.numbers, ?_, ?_, ⟨h.tree.isGroup_root, ?_⟩, ?_,
    h.tree.terms_clause, ?_⟩
  · refine hpath.isChain.imp ?_
    rintro outer inner ⟨n, hn, rfl, hlast⟩
    exact ⟨n, hfind hn, hlast⟩
  · intro i hi
    rcases hscopes with ⟨-, hscopes⟩ | ⟨-, hscopes⟩ <;> rw [hscopes] at hi
    · rcases List.mem_cons.mp hi with rfl | hi
      · exact hnode 0 (List.mem_of_head? hhead)
      · exact hnode i hi
    · exact hnode i hi
  · intro i hpos hlt
    have hi : i ∈ d.tree.root.preorder.map Node.id := by
      rw [h.tree.numbers]
      exact List.mem_range.mpr hlt
    have hroot : i ≠ d.tree.root.id := by
      rw [h.tree.id_root]
      exact Nat.ne_of_gt hpos
    obtain ⟨p, hp, hcount, hunique⟩ := Node.exists_parent h.tree.nodup hi hroot
    obtain ⟨c, hc, rfl⟩ := List.mem_map.mp (List.count_pos_iff.mp (hcount ▸ Nat.one_pos))
    exact ⟨p, hp, Node.id_lt_id_of_mem_children hsorted hp hc, hcount, hunique⟩
  · intro n hn field hfield
    rcases h.tree.classify hn with ⟨_, predicate, -, hpredicate, hleaf⟩ | ⟨_, hname, -⟩ |
      ⟨-, hname, -⟩
    · exact ⟨by rw [hpredicate]; rfl, hleaf⟩
    · rw [hname] at hfield
      cases hfield
    · rw [hname] at hfield
      cases hfield
  · intro n hn hgroup
    rcases h.tree.classify hn with ⟨field, -, hname, -⟩ | ⟨-, -, hpredicate⟩ | ⟨-, -, hpredicate⟩
    · exact absurd hname (hgroup field)
    · exact hpredicate
    · exact hpredicate
  · exact fun n hn hunnamed => h.tree.eq_root_of_unnamed hn hunnamed
  · rw [Tree.allTerms_selection h.tree.isGroup_root, h.tree.terms_clause]

/-- Whatever events a new draft is given, it is regular for those that it accepts, and once its root
has a name it keeps the name. -/
theorem regular_replayAll (naming : Naming) (events : List FilterEvent) :
    (empty.replayAll naming events).Regular naming (empty.accepted naming events) ∧
      ∀ before after, events = before ++ after →
        (empty.replayAll naming before).tree.root.name = .unnamed ∨
          (empty.replayAll naming events).tree.root.name =
            (empty.replayAll naming before).tree.root.name := by
  have hconsistent : ∀ events,
      (empty.replayAll naming events).Consistent naming (empty.accepted naming events) :=
    fun events => (consistent_empty naming).replayAll events
  have hname : ∀ events, (empty.replayAll naming events).tree.root.name =
      FilterEvent.rootName (empty.accepted naming events) :=
    fun events => congrArg Prod.fst (hconsistent events).tree.label_root.1
  -- The name is that of the first accepted event, which stays the first.
  refine ⟨(hconsistent events).regular, ?_⟩
  rintro before after rfl
  rw [hname, hname, accepted_append]
  by_cases hnil : empty.accepted naming before = []
  · rw [hnil]
    exact .inl rfl
  · exact .inr (FilterEvent.rootName_append hnil _)

end Draft
end TenantStore
