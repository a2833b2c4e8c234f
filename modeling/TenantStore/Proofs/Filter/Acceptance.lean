import TenantStore.Proofs.Filter.Invariant

/-!
# Which events make a filter

An event has a fault if it ends a group where none is open, or if it is a comparison without a
field. Whether it has one can be told by counting the groups that start and end in front of it
(`FilterEvent.fault?`), and a draft refuses exactly the events that have one
(`Draft.accept_eq_error_iff`). So a stream of events without a fault is taken to its end, and it
makes a filter if as many groups end as start (`Draft.exists_replay_of_sound`).

`Draft.edit` takes an event by writes to a draft in place, one after the other, which a refusal may
interrupt. It does so before the first write (`Draft.edit_of_accept_eq_error`), so a caller who goes
on after a refusal goes on with the draft of the events that were accepted
(`Draft.replay_accepted`).
-/

namespace TenantStore

/-! ## Faults -/

namespace FilterEvent

/-- The number of groups that start and do not end. -/
def openAfter (es : List FilterEvent) : Nat :=
  es.countP isStart - es.countP isEnd

/-- What is wrong with an event where so many groups are open. -/
def fault? (groups : Nat) : FilterEvent → Option FilterError
  | groupStart _ => none
  | groupEnd => if groups = 0 then some .unbalancedGroupEnd else none
  | comparison field _ _ => if Text.isBlank field then some .emptyField else none

/-- No event has a fault where it stands. -/
def Sound (es : List FilterEvent) : Prop :=
  ∀ before e after, es = before ++ e :: after → e.fault? (openAfter before) = none

/-- The first event with a fault has this one. -/
def FirstFault (es : List FilterEvent) (err : FilterError) : Prop :=
  ∃ before e after, es = before ++ e :: after ∧ Sound before ∧
    e.fault? (openAfter before) = some err

/-- If no fault is the first, there is none. -/
theorem sound_of_forall_not_firstFault {es : List FilterEvent} (h : ∀ err, ¬ FirstFault es err) :
    Sound es := by
  intro before
  induction hlength : before.length using Nat.strong_induction_on generalizing before with
  | _ n ih =>
      intro e after hes
      have hbefore : Sound before := by
        intro p x rest hp
        refine ih p.length ?_ p rfl x (rest ++ e :: after) ?_
        · rw [← hlength, hp, List.length_append, List.length_cons]
          omega
        · rw [hes, hp, List.append_assoc, List.cons_append]
      cases hfault : e.fault? (openAfter before) with
      | none => rfl
      | some err => exact absurd ⟨before, e, after, hes, hbefore, hfault⟩ (h err)

end FilterEvent

open FilterEvent (openAfter Sound FirstFault isStart isEnd)

/-- A node that is added without a condition and then given one might as well be added with it, if
its number is new. -/
theorem Tree.putPredicate_addNode {t : Tree} (h : ∀ n ∈ t.root.preorder, n.id ≠ t.size)
    (parent : Nat) (name : NodeName) (predicate : Predicate) :
    (t.addNode parent name none).putPredicate t.size predicate =
      t.addNode parent name (some predicate) := by
  have hleaf : Node.modifyList t.size (Node.putPredicate predicate) [.leaf t.size name none] =
      [.leaf t.size name (some predicate)] := by
    simp [Node.leaf, Node.modifyList, Node.modify, Node.putPredicate]
  simp only [Tree.addNode, Tree.putPredicate, Node.adopt_eq_adoptAll,
    Node.modify_adoptAll_of_forall_ne t.root h, hleaf]

namespace Draft

variable {naming : Naming} {d : Draft} {es : List FilterEvent}

/-- A draft refuses an event exactly if the event has a fault. -/
theorem accept_eq_error_iff {e : FilterEvent} {err : FilterError} :
    d.accept naming e = .error err ↔ e.fault? d.openGroups = some err := by
  cases e with
  | groupStart combinator => simp [accept, FilterEvent.fault?]
  | groupEnd =>
      obtain ⟨tree, current, enclosing⟩ := d
      cases enclosing with
      | nil => simp [accept, endGroup, FilterEvent.fault?, openGroups]
      | cons outer rest => simp [accept, endGroup, FilterEvent.fault?, openGroups]
  | comparison field operator operand =>
      by_cases hblank : Text.isBlank field = true
      · simp [accept, addComparison, FilterEvent.fault?, hblank]
      · simp [accept, addComparison, FilterEvent.fault?, hblank]

theorem exists_accept {e : FilterEvent} (h : e.fault? d.openGroups = none) :
    ∃ next, d.accept naming e = .ok next := by
  cases haccept : d.accept naming e with
  | ok next => exact ⟨next, rfl⟩
  | error err =>
      rw [accept_eq_error_iff.mp haccept] at h
      cases h

/-- The groups that are open are those that started and did not end. -/
theorem Consistent.openGroups_eq (h : d.Consistent naming es) : d.openGroups = openAfter es := by
  rw [openAfter, h.balance, openGroups]
  exact (Nat.add_sub_cancel_left ..).symm

/-! ## Events up to the first that is refused -/

theorem replay_append_of_ok {next : Draft} (h : d.replay naming es = .ok next)
    (more : List FilterEvent) : d.replay naming (es ++ more) = next.replay naming more := by
  induction es generalizing d with
  | nil =>
      cases h
      rfl
  | cons e es ih =>
      rw [replay] at h
      rw [List.cons_append, replay]
      cases haccept : d.accept naming e with
      | ok d' =>
          rw [haccept] at h
          exact ih h
      | error err =>
          rw [haccept] at h
          cases h

/-- Events without a fault are all taken. -/
theorem Consistent.exists_replay {before : List FilterEvent} (h : d.Consistent naming before)
    (hsound : Sound (before ++ es)) :
    ∃ next, d.replay naming es = .ok next ∧ next.Consistent naming (before ++ es) := by
  induction es generalizing d before with
  | nil => exact ⟨d, rfl, by rwa [List.append_nil]⟩
  | cons e es ih =>
      have hfault := hsound before e es rfl
      rw [← h.openGroups_eq] at hfault
      obtain ⟨next, haccept⟩ := exists_accept hfault
      have hassoc : before ++ e :: es = before ++ [e] ++ es := List.append_cons ..
      rw [hassoc] at hsound ⊢
      rw [replay, haccept]
      exact ih (h.accept haccept) hsound

theorem exists_replay_of_sound (naming : Naming) (h : Sound es) :
    ∃ d, empty.replay naming es = .ok d ∧ d.Consistent naming es :=
  (consistent_empty naming).exists_replay h

/-- A stream of events is refused for the first fault in it. -/
theorem ofEvents_of_firstFault {err : FilterError} (h : FirstFault es err) :
    Filter.ofEvents naming es = .error err := by
  obtain ⟨before, e, after, rfl, hsound, hfault⟩ := h
  obtain ⟨d, hreplay, hd⟩ := exists_replay_of_sound naming hsound
  rw [← hd.openGroups_eq] at hfault
  rw [Filter.ofEvents, replay_append_of_ok hreplay, replay, accept_eq_error_iff.mpr hfault]
  rfl

/-- A stream without a fault is a filter unless groups stay open. -/
theorem ofEvents_of_sound (naming : Naming) (h : Sound es) :
    ∃ tree, Filter.ofEvents naming es =
      if openAfter es = 0 then .ok tree else .error (.unclosedGroups (openAfter es)) := by
  obtain ⟨d, hreplay, hd⟩ := exists_replay_of_sound naming h
  refine ⟨d.tree, ?_⟩
  rw [Filter.ofEvents, hreplay, ← hd.openGroups_eq]
  show d.finish = _
  rw [finish]
  cases d.openGroups <;> rfl

/-! ## Events in place -/

/-- Writes to a draft in place, which a refusal may interrupt. -/
abbrev Edit : Type :=
  ExceptT FilterError (StateM Draft) Unit

/-- Takes an event by writing to the tree and the open groups one after the other. -/
def edit (naming : Naming) : FilterEvent → Edit
  | .groupStart combinator => do
    let d ← get
    if d.isUntouched then
      modify fun now => { now with tree := now.tree.makeGroup d.current combinator }
      modify fun now => { now with current := d.current, enclosing := d.current :: now.enclosing }
    else
      modify fun now =>
        { now with tree := now.tree.addNode d.current (.combinator combinator) none }
      modify fun now => { now with current := d.tree.size, enclosing := d.current :: now.enclosing }
  | .groupEnd => do
    match (← get).enclosing with
    | [] => throw .unbalancedGroupEnd
    | outer :: rest => modify fun now => { now with current := outer, enclosing := rest }
  | .comparison field operator operand => do
    if Text.isBlank field then throw .emptyField
    let d ← get
    modify fun now =>
      { now with tree := now.tree.addNode d.current (.field (naming.native field)) none }
    modify fun now =>
      { now with
        tree := now.tree.putPredicate d.tree.size (Predicate.ofComparison operator operand) }

/-- An event that is accepted has written what is accepted. -/
theorem edit_of_accept_eq_ok (h : ∀ n ∈ d.tree.root.preorder, n.id ≠ d.tree.size)
    {e : FilterEvent} {next : Draft} (haccept : d.accept naming e = .ok next) :
    edit naming e d = (.ok (), next) := by
  cases e with
  | groupStart combinator =>
      cases haccept
      change (if d.isUntouched = true then _ else _ : Edit) d = _
      by_cases huntouched : d.isUntouched = true
      · rw [if_pos huntouched, startGroup, if_pos huntouched]
        rfl
      · rw [if_neg huntouched, startGroup, if_neg huntouched]
        rfl
  | groupEnd =>
      obtain ⟨tree, current, enclosing⟩ := d
      cases enclosing with
      | nil => cases haccept
      | cons outer rest =>
          cases haccept
          rfl
  | comparison field operator operand =>
      by_cases hblank : Text.isBlank field = true
      · rw [accept, addComparison, if_pos hblank] at haccept
        cases haccept
      · rw [accept, addComparison, if_neg hblank, ← Tree.putPredicate_addNode h] at haccept
        cases haccept
        rw [edit, if_neg hblank]
        rfl

/-- An event that is refused has written nothing. -/
theorem edit_of_accept_eq_error {e : FilterEvent} {err : FilterError}
    (haccept : d.accept naming e = .error err) : edit naming e d = (.error err, d) := by
  cases e with
  | groupStart combinator => cases haccept
  | groupEnd =>
      obtain ⟨tree, current, enclosing⟩ := d
      cases enclosing with
      | nil =>
          cases haccept
          rfl
      | cons outer rest => cases haccept
  | comparison field operator operand =>
      by_cases hblank : Text.isBlank field = true
      · rw [accept, addComparison, if_pos hblank] at haccept
        cases haccept
        rw [edit, if_pos hblank]
        rfl
      · rw [accept, addComparison, if_neg hblank] at haccept
        cases haccept

/-! ## Events that go on after a refusal -/

/-- The draft after events in place, going on after those that are refused. -/
def editAll (naming : Naming) (d : Draft) (es : List FilterEvent) : Draft :=
  es.foldl (fun d e => (edit naming e d).2) d

/-- The next number is new. -/
theorem Consistent.id_ne_size (h : d.Consistent naming es) :
    ∀ n ∈ d.tree.root.preorder, n.id ≠ d.tree.size := by
  intro n hn
  have hid : n.id ∈ d.tree.root.preorder.map Node.id := List.mem_map_of_mem hn
  rw [h.tree.numbers, List.mem_range] at hid
  exact Nat.ne_of_lt hid

/-- Events in place lead where events one after the other lead. -/
theorem Consistent.editAll_eq (h : d.Consistent naming es) (events : List FilterEvent) :
    d.editAll naming events = d.replayAll naming events := by
  induction events generalizing d es with
  | nil => rfl
  | cons e events ih =>
      rw [editAll, Draft.replayAll, List.foldl_cons, List.foldl_cons, acceptOrSkip]
      cases haccept : d.accept naming e with
      | ok next =>
          rw [edit_of_accept_eq_ok h.id_ne_size haccept]
          exact ih (h.accept haccept)
      | error err =>
          rw [edit_of_accept_eq_error haccept]
          exact ih h

/-- The events that were accepted lead to the same draft without those that were refused. -/
theorem replay_accepted (naming : Naming) (d : Draft) (events : List FilterEvent) :
    d.replay naming (d.accepted naming events) = .ok (d.replayAll naming events) := by
  induction events generalizing d with
  | nil => rfl
  | cons e events ih =>
      rw [accepted, replayAll, List.foldl_cons, acceptOrSkip]
      cases haccept : d.accept naming e with
      | ok next =>
          simp only [replay, haccept]
          exact ih next
      | error err => exact ih d

theorem replayAll_concat (naming : Naming) (d : Draft) (events : List FilterEvent)
    (e : FilterEvent) :
    d.replayAll naming (events ++ [e]) = (d.replayAll naming events).acceptOrSkip naming e :=
  List.foldl_concat ..

/-- A stream of events is refused for the first fault in it. If there is none it is a filter, unless
more groups start than end. A caller who goes on after each refusal has, after any part of the
stream, the draft of the events that were accepted: an event is refused exactly if it has a fault
among the groups that are open, it has written nothing then, and the groups that are open are those
that started and did not end. -/
theorem acceptance (naming : Naming) (es : List FilterEvent) :
    (∀ err, FirstFault es err → Filter.ofEvents naming es = .error err) ∧
    ((∀ err, ¬ FirstFault es err) → ∃ tree, Filter.ofEvents naming es =
      if openAfter es = 0 then .ok tree else .error (.unclosedGroups (openAfter es))) ∧
    (∀ before e after, es = before ++ e :: after →
      let d := empty.replayAll naming before
      (∀ next, d.accept naming e = .ok next →
        e.fault? d.openGroups = none ∧ edit naming e d = (.ok (), next) ∧
          empty.replayAll naming (before ++ [e]) = next) ∧
      ∀ err, d.accept naming e = .error err →
        e.fault? d.openGroups = some err ∧ edit naming e d = (.error err, d) ∧
          empty.replayAll naming (before ++ [e]) = d) ∧
    empty.editAll naming es = empty.replayAll naming es ∧
    empty.replay naming (empty.accepted naming es) = .ok (empty.replayAll naming es) ∧
    Filter.ofEvents naming (empty.accepted naming es) = (empty.replayAll naming es).finish ∧
    ∀ before, before <+: es →
      (empty.accepted naming before).countP isStart =
        (empty.accepted naming before).countP isEnd +
          (empty.replayAll naming before).openGroups := by
  have hconsistent : ∀ events,
      (empty.replayAll naming events).Consistent naming (empty.accepted naming events) :=
    fun events => (consistent_empty naming).replayAll events
  have hreplay := replay_accepted naming empty es
  refine ⟨fun err => ofEvents_of_firstFault, fun h =>
    ofEvents_of_sound naming (FilterEvent.sound_of_forall_not_firstFault h), ?_,
    (consistent_empty naming).editAll_eq es, hreplay, ?_,
    fun before _ => (hconsistent before).balance⟩
  · intro before e after _ d
    refine ⟨fun next haccept => ⟨?_, ?_, ?_⟩, fun err haccept => ⟨?_, ?_, ?_⟩⟩
    · cases hfault : e.fault? d.openGroups with
      | none => rfl
      | some err =>
          rw [accept_eq_error_iff.mpr hfault] at haccept
          cases haccept
    · exact edit_of_accept_eq_ok (hconsistent before).id_ne_size haccept
    · rw [replayAll_concat, acceptOrSkip, haccept]
    · exact accept_eq_error_iff.mp haccept
    · exact edit_of_accept_eq_error haccept
    · rw [replayAll_concat, acceptOrSkip, haccept]
  · rw [Filter.ofEvents, hreplay]
    rfl

end Draft
end TenantStore
