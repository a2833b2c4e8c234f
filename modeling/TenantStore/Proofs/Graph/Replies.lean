import TenantStore.Entity.User
import TenantStore.Proofs.Graph.Statements

/-!
# What a graph repository makes of replies

The reply of a session decides what a request to its backend answers. `Graph.Answers` says which
reply a repository gives to an operation when the session answers with rows, whatever these hold: a
search whose rows are not all entities fails as a whole, and a number that is none counts as zero.
An operation that is not refused sends its requests one after the other as long as the session does
not fail, and fails with the first failure (`Graph.run_completes_or_fails`).
-/

namespace TenantStore

open Cypher (Statement)

/-! ## Sessions and their replies -/

/-- The rows of a reply. -/
def SessionReply.answer : SessionReply → Except StoreError (List (Members Json))
  | rows rs => .ok rs
  | failure message => .error (.backend message)

namespace Session

/-- The reply to the statement behind the next `n`: no rows once the script is over. -/
def reply (t : Session) (n : Nat) : SessionReply :=
  t.replies[n]?.getD (.rows [])

/-- The session after it was given statements. -/
def after (t : Session) (sent : List (Statement × AccessMode)) : Session :=
  ⟨t.replies.drop sent.length, t.statements ++ sent⟩

theorem reply_after (t : Session) (sent : List (Statement × AccessMode)) (n : Nat) :
    (t.after sent).reply n = t.reply (sent.length + n) := by
  rw [reply, after, List.getElem?_drop, reply]

theorem after_after (t : Session) (sent more : List (Statement × AccessMode)) :
    (t.after sent).after more = t.after (sent ++ more) := by
  rw [after, after, after, List.drop_drop, List.length_append, List.append_assoc]

/-- A statement is answered by the next reply. -/
theorem run_apply (statement : Statement) (mode : AccessMode) (t : Session) :
    run statement mode t = ((t.reply 0).answer, t.after [(statement, mode)]) := by
  obtain ⟨replies, statements⟩ := t
  cases replies with
  | nil => rfl
  | cons r replies => cases r <;> rfl

end Session

namespace Graph

variable {α : Type} [Entity α]

/-! ## Answers -/

/-- The rows hold these entities, one each. -/
def Holds (rows : List (Members Json)) (es : List α) : Prop :=
  List.Forall₂
    (fun row e =>
      ∃ node, Members.get? row Cypher.nodeAlias = some node ∧ Entity.ofJson node = .ok e)
    rows es

variable (α) in
/-- The row has no node, or one that is not read as an entity. -/
def Broken (row : Members Json) : Prop :=
  ∀ node, Members.get? row Cypher.nodeAlias = some node →
    ∃ err, (Entity.ofJson node : Except DecodeError α) = .error err

/-- The first row has this number in a column, or the number is zero and the first row has none
there that is whole and has 64 bits. -/
def Reports (rows : List (Members Json)) (column : String) (n : Nat) : Prop :=
  (n < Nat.pow 2 64 ∧ ∃ row, rows.head? = some row ∧
    Members.get? row column = some (.number (.whole n))) ∨
  (n = 0 ∧ ∀ row (m : Nat), rows.head? = some row → m < Nat.pow 2 64 →
    Members.get? row column ≠ some (.number (.whole m)))

/-- An operation that searches replies with what the rows hold, and fails if one of them is broken.
-/
def Finds (op : Operation α) (rows : List (Members Json)) (found : List α → Reply α)
    (reply : Reply α) : Prop :=
  (∃ es, Holds rows es ∧ reply = found es) ∨
    (∃ row ∈ rows, Broken α row) ∧ ∃ message, reply = op.refused (.infrastructure message)

/-- The reply to an operation when the session answers the statements of the operation with these
rows. -/
def Answers (op : Operation α) (answers : List (List (Members Json))) (reply : Reply α) : Prop :=
  match op, answers with
  | .insert e, [_] => reply = .entity (.matched e)
  | .update e, [rows] => reply = .entity (if rows = [] then .missed none else .matched e)
  | .deleteById _ _, [rows] | .deleteByIds _ _, [rows] | .deleteAll _, [rows]
  | .deleteByFilter _ _, [rows] =>
    ∃ n, Reports rows Cypher.deletedColumn n ∧
      reply = .count (if 0 < n then .matched n else .missed (some 0))
  | .findById _ _, [rows] =>
    Finds op rows (fun es => .entity (es.head?.elim (.missed none) .matched)) reply
  | .findByIds _ _, [rows] | .findAll _, [rows] | .findList _ _, [rows] =>
    Finds op rows (fun es => .entities (if es = [] then .missed (some []) else .matched es)) reply
  | .findPaging q, [counted, rows] =>
    ∃ total : Nat, Reports counted Cypher.totalColumn total ∧
      Finds op rows
        (fun es => .page (.ofParts (some es) (min (total : Int) maxInteger) (some q) none)) reply
  | _, _ => False

theorem natural?_eq_some_iff {v : Json} {n : Nat} :
    v.natural? = some n ↔ n < Nat.pow 2 64 ∧ v = .number (.whole n) := by
  have hpow : Int.pow 2 64 = (Nat.pow 2 64 : Nat) := by decide
  constructor
  · intro h
    unfold Json.natural? at h
    split at h
    · next z =>
        rw [hpow] at h
        split at h
        · next hz =>
            cases h
            refine ⟨by omega, ?_⟩
            rw [Int.toNat_of_nonneg hz.1]
        · cases h
    · cases h
  · rintro ⟨hn, rfl⟩
    rw [Json.natural?, hpow, if_pos ⟨by omega, by omega⟩, Int.toNat_natCast]

/-- The number in a column is what the first row reports. -/
theorem reports_countColumn (rows : List (Members Json)) (column : String) :
    Reports rows column (countColumn rows column) := by
  unfold countColumn
  cases hrow : rows.head?.bind fun row => (Members.get? row column).bind Json.natural? with
  | none =>
      refine .inr ⟨rfl, ?_⟩
      intro row m hhead hm hvalue
      rw [hhead, Option.bind_some, hvalue, Option.bind_some,
        natural?_eq_some_iff.mpr ⟨hm, rfl⟩] at hrow
      cases hrow
  | some n =>
      obtain ⟨row, hhead, hvalue⟩ := Option.bind_eq_some_iff.mp hrow
      obtain ⟨v, hv, hn⟩ := Option.bind_eq_some_iff.mp hvalue
      obtain ⟨hbound, rfl⟩ := natural?_eq_some_iff.mp hn
      exact .inl ⟨hbound, row, hhead, hv⟩

theorem rowEntity_spec (row : Members Json) :
    (∃ node e, Members.get? row Cypher.nodeAlias = some node ∧ Entity.ofJson node = .ok e ∧
        (rowEntity row : Except StoreError α) = .ok e) ∨
      Broken α row ∧
        ∃ message, (rowEntity row : Except StoreError α) = .error (.infrastructure message) := by
  unfold rowEntity
  cases hnode : Members.get? row Cypher.nodeAlias with
  | none => exact .inr ⟨fun node h => (nomatch hnode.symm.trans h), _, rfl⟩
  | some node =>
      cases hread : (Entity.ofJson node : Except DecodeError α) with
      | ok e => exact .inl ⟨node, e, rfl, hread, by simp only [hread, Except.mapError]⟩
      | error err =>
          refine .inr ⟨fun node' h => ?_, "serialization failed: " ++ err.message, ?_⟩
          · cases hnode.symm.trans h
            exact ⟨err, hread⟩
          · simp only [hread, Except.mapError]
            rfl

theorem entities_spec (rows : List (Members Json)) :
    (∃ es : List α, Holds rows es ∧ entities rows = .ok es) ∨
      (∃ row ∈ rows, Broken α row) ∧
        ∃ message,
          (entities rows : Except StoreError (List α)) = .error (.infrastructure message) := by
  unfold entities
  induction rows with
  | nil => exact .inl ⟨[], .nil, rfl⟩
  | cons row rows ih =>
      rw [List.mapM_cons]
      rcases rowEntity_spec (α := α) row with
        ⟨node, e, hnode, hread, hrow⟩ | ⟨hbroken, message, hrow⟩
      · rw [hrow]
        rcases ih with ⟨es, hholds, hes⟩ | ⟨⟨row', hrow', hbroken⟩, message, hes⟩
        · rw [hes]
          exact .inl ⟨e :: es, .cons ⟨node, hnode, hread⟩ hholds, rfl⟩
        · rw [hes]
          exact .inr ⟨⟨row', .tail _ hrow', hbroken⟩, message, rfl⟩
      · rw [hrow]
        exact .inr ⟨⟨row, List.mem_cons_self, hbroken⟩, message, rfl⟩

/-! ## What the backend answers -/

section Backend

variable (label : String) (t : Session)

theorem search_apply (statement : Statement) :
    (search statement : Access Session (List α)) t =
      ((t.reply 0).answer >>= entities, t.after [(statement, .read)]) := by
  rw [search, Access.bind_apply, Session.run_apply]
  cases (t.reply 0).answer <;> rfl

theorem insert_apply {e : α} {ms : Members Json} (hmembers : Entity.members e = .ok ms) :
    (backend label).insert e t =
      ((t.reply 0).answer.map fun _ => (), t.after [statement label (.insert ms)]) := by
  show ((liftM (Entity.members e) : Access Session _) >>= fun ms =>
    Session.run (.create label ms) .write >>= fun _ => pure ()) t = _
  rw [hmembers]
  show (Session.run (.create label ms) .write >>= fun _ => pure ()) t = _
  rw [Access.bind_pure_apply, Session.run_apply]
  rfl

theorem update_apply {e : α} {ms : Members Json} (hmembers : Entity.members e = .ok ms)
    (s : Scoped) :
    (backend label).update s e t =
      ((t.reply 0).answer.map fun rows => !rows.isEmpty,
        t.after [statement label (.update s ms)]) := by
  show ((liftM (Entity.members e) : Access Session _) >>= fun ms =>
    Session.run (.update label s ms) .write >>= fun rows => pure !rows.isEmpty) t = _
  rw [hmembers]
  show (Session.run (.update label s ms) .write >>= fun rows => pure !rows.isEmpty) t = _
  rw [Access.bind_pure_apply, Session.run_apply]
  rfl

theorem delete_apply (s : Scoped) :
    (backend label : Backend Session α).delete s t =
      ((t.reply 0).answer.map (countColumn · Cypher.deletedColumn),
        t.after [statement label (.delete s)]) := by
  show (Session.run (.delete label s) .write >>= fun rows =>
    pure (countColumn rows Cypher.deletedColumn)) t = _
  rw [Access.bind_pure_apply, Session.run_apply]
  rfl

theorem count_apply (s : Scoped) :
    (backend label : Backend Session α).count s t =
      ((t.reply 0).answer.map (countColumn · Cypher.totalColumn),
        t.after [statement label (.count s)]) := by
  show (Session.run (.count label s) .read >>= fun rows =>
    pure (countColumn rows Cypher.totalColumn)) t = _
  rw [Access.bind_pure_apply, Session.run_apply]
  rfl

theorem find_apply (s : Scoped) (w : Window) :
    (backend label : Backend Session α).find s w t =
      ((t.reply 0).answer >>= entities, t.after [statement label (.find s w)]) :=
  search_apply t _

theorem first_apply (s : Scoped) :
    (backend label : Backend Session α).first s t =
      (((t.reply 0).answer >>= entities).map List.head?, t.after [statement label (.first s)]) := by
  show (search (.find label s [] 0 none) >>= fun found => pure found.head?) t = _
  rw [Access.bind_pure_apply, search_apply]
  rfl

end Backend

/-! ## Operations -/

/-- The operation is a batch. -/
def IsBatch (op : Operation α) : Prop :=
  ∃ es, op = .insertMany es ∨ op = .updateMany es

/-- Whether the statements of an operation change the graph. -/
def mode : Operation α → AccessMode
  | .insert _ | .insertMany _ | .update _ | .updateMany _ => .write
  | .deleteById _ _ | .deleteByIds _ _ | .deleteAll _ | .deleteByFilter _ _ => .write
  | .findById _ _ | .findByIds _ _ | .findAll _ | .findList _ _ | .findPaging _ => .read

/-- What an operation asks the backend for: a page for the number of all rows and then for its own,
and any other operation for one thing. -/
def Asks (r : Repository Session α) (op : Operation α) (qs : List Backend.Request) : Prop :=
  match op with
  | .findPaging q => ∃ s w, r.pageRequest q = .ok (s, w) ∧ qs = [.count s, .find s w]
  | _ => ∃ q, r.request op = .ok (some q) ∧ qs = [q]

/-- The reply to an operation that was performed. -/
def settled (op : Operation α) : Except StoreError (Reply α) → Reply α
  | .ok reply => reply
  | .error e => op.refused e

/-- The operation runs the statement of one request, and replies to all rows as it has to. -/
def Converses (parser : FilterParser) (label : String) (op : Operation α) (q : Backend.Request) :
    Prop :=
  (statement label q).2 = mode op ∧
    ∃ reading : List (Members Json) → Except StoreError (Reply α),
      (∀ t, (⟨parser, backend label⟩ : Repository Session α).perform op t =
        ((t.reply 0).answer >>= reading, t.after [statement label q])) ∧
      ∀ rows, Answers op [rows] (settled op (reading rows))

section Operations

variable {parser : FilterParser} {label : String} {op : Operation α}

theorem finds_entities (rows : List (Members Json)) (found : List α → Reply α) :
    Finds op rows found (settled op ((entities rows).map found)) := by
  rcases entities_spec (α := α) rows with ⟨es, hholds, hes⟩ | ⟨hbroken, message, herror⟩
  · rw [hes]
    exact .inl ⟨es, hholds, rfl⟩
  · rw [herror]
    exact .inr ⟨hbroken, message, rfl⟩

theorem converses_insert {e : α} {q : Backend.Request}
    (hrequest : Repository.insertRequest e = .ok q) : Converses parser label (.insert e) q := by
  obtain ⟨tenant, htenant, hrequest⟩ := exists_of_bind_eq_ok hrequest
  obtain ⟨ms, hmembers, hrequest⟩ := exists_of_bind_eq_ok hrequest
  cases hrequest
  refine ⟨rfl, fun _ => .ok (.entity (.matched e)), fun t => ?_, fun rows => rfl⟩
  rw [Repository.perform, Repository.replying, Access.bind_pure_apply, Repository.tryInsert,
    htenant]
  show (((backend label).insert e t).1.map _, ((backend label).insert e t).2) = _
  rw [insert_apply label t hmembers]
  cases (t.reply 0).answer <;> rfl

theorem converses_update {e : α} {q : Backend.Request}
    (hrequest : (⟨parser, backend label⟩ : Repository Session α).updateRequest e = .ok q) :
    Converses parser label (.update e) q := by
  obtain ⟨s, hs, hrequest⟩ := exists_of_bind_eq_ok hrequest
  obtain ⟨ms, hmembers, hrequest⟩ := exists_of_bind_eq_ok hrequest
  cases hrequest
  refine ⟨rfl, fun rows => .ok (.entity (if rows = [] then .missed none else .matched e)),
    fun t => ?_, fun rows => rfl⟩
  rw [Repository.perform, Repository.replying, Access.bind_pure_apply, Repository.tryUpdate, hs]
  show (((backend label).update s e t).1.map _, ((backend label).update s e t).2) = _
  rw [update_apply label t hmembers]
  cases (t.reply 0).answer with
  | error err => rfl
  | ok rows => cases rows <;> rfl

/-- The reply of a delete. -/
def deletedReply (rows : List (Members Json)) : Except StoreError (Reply α) :=
  .ok (.count (.ofCount (countColumn rows Cypher.deletedColumn)))

/-- The reply of a search for one entity. -/
def firstReply (rows : List (Members Json)) : Except StoreError (Reply α) :=
  (entities rows).map fun es => .entity (es.head?.elim (.missed none) .matched)

/-- The reply of a search for entities. -/
def listReply (rows : List (Members Json)) : Except StoreError (Reply α) :=
  (entities rows).map fun es => .entities (if es = [] then .missed (some []) else .matched es)

theorem performDelete_apply (s : Scoped) (t : Session) :
    (⟨parser, backend label⟩ : Repository Session α).performDelete (.ok s) t =
      ((t.reply 0).answer >>= deletedReply, t.after [statement label (.delete s)]) := by
  rw [Repository.performDelete, Repository.replying, Access.bind_pure_apply]
  show (((backend label : Backend Session α).delete s t).1.map _,
    ((backend label : Backend Session α).delete s t).2) = _
  rw [delete_apply]
  cases (t.reply 0).answer <;> rfl

theorem performFindOne_apply (s : Scoped) (t : Session) :
    (⟨parser, backend label⟩ : Repository Session α).performFindOne (.ok s) t =
      ((t.reply 0).answer >>= firstReply, t.after [statement label (.first s)]) := by
  rw [Repository.performFindOne, Repository.replying, Access.bind_pure_apply]
  show (((backend label : Backend Session α).first s t).1.map _,
    ((backend label : Backend Session α).first s t).2) = _
  rw [first_apply]
  cases (t.reply 0).answer with
  | error err => rfl
  | ok rows =>
      show (((entities rows).map List.head?).map _, _) = ((entities rows).map _, _)
      cases (entities rows : Except StoreError (List α)) with
      | error err => rfl
      | ok es => cases es <;> rfl

theorem performFindMany_apply (s : Scoped) (t : Session) :
    (⟨parser, backend label⟩ : Repository Session α).performFindMany (.ok s) t =
      ((t.reply 0).answer >>= listReply, t.after [statement label (.find s .all)]) := by
  rw [Repository.performFindMany, Repository.replying, Access.bind_pure_apply]
  show (((backend label : Backend Session α).find s .all t).1.map _,
    ((backend label : Backend Session α).find s .all t).2) = _
  rw [find_apply]
  cases (t.reply 0).answer with
  | error err => rfl
  | ok rows =>
      show ((entities rows).map _, _) = ((entities rows).map _, _)
      cases (entities rows : Except StoreError (List α)) with
      | error err => rfl
      | ok es => cases es <;> rfl

omit [Entity α] in
theorem exists_reports_ofCount (rows : List (Members Json)) (column : String) :
    ∃ n, Reports rows column n ∧
      (.count (.ofCount (countColumn rows column)) : Reply α) =
        .count (if 0 < n then .matched n else .missed (some 0)) := by
  refine ⟨_, reports_countColumn rows column, ?_⟩
  cases countColumn rows column <;> rfl

/-- An operation that asks for one thing and is no batch converses by it. -/
theorem converses_of_asks {q : Backend.Request} (hbatch : ¬ IsBatch op)
    (hasks : Asks ⟨parser, backend label⟩ op [q]) : Converses parser label op q := by
  cases op with
  | insertMany es => exact absurd ⟨es, .inl rfl⟩ hbatch
  | updateMany es => exact absurd ⟨es, .inr rfl⟩ hbatch
  | findPaging query =>
      obtain ⟨s, w, -, hqs⟩ := hasks
      cases hqs
  | insert e =>
      obtain ⟨_, hrequest, ⟨⟩⟩ := hasks
      obtain ⟨q, hq, hsome⟩ := exists_of_bind_eq_ok hrequest
      cases hsome
      exact converses_insert hq
  | update e =>
      obtain ⟨_, hrequest, ⟨⟩⟩ := hasks
      obtain ⟨q, hq, hsome⟩ := exists_of_bind_eq_ok hrequest
      cases hsome
      exact converses_update hq
  | deleteById tenant id | deleteByIds tenant ids | deleteAll tenant
  | deleteByFilter tenant filter =>
      obtain ⟨_, hrequest, ⟨⟩⟩ := hasks
      obtain ⟨s, hs, hsome⟩ := exists_of_bind_eq_ok hrequest
      cases hsome
      refine ⟨rfl, deletedReply, fun t => ?_, fun rows => exists_reports_ofCount rows _⟩
      rw [Repository.perform, hs]
      exact performDelete_apply s t
  | findById tenant id =>
      obtain ⟨_, hrequest, ⟨⟩⟩ := hasks
      obtain ⟨s, hs, hsome⟩ := exists_of_bind_eq_ok hrequest
      cases hsome
      refine ⟨rfl, firstReply, fun t => ?_, fun rows => finds_entities rows _⟩
      rw [Repository.perform, hs]
      exact performFindOne_apply s t
  | findByIds tenant ids | findAll tenant | findList tenant filter =>
      obtain ⟨_, hrequest, ⟨⟩⟩ := hasks
      obtain ⟨s, hs, hsome⟩ := exists_of_bind_eq_ok hrequest
      cases hsome
      refine ⟨rfl, listReply, fun t => ?_, fun rows => finds_entities rows _⟩
      rw [Repository.perform, hs]
      exact performFindMany_apply s t

omit [Entity α] in
theorem exists_some_of_map {β : Type} {x : Except StoreError β} {f : β → Backend.Request}
    (h : (x >>= fun b => (pure (some (f b)) : Except StoreError (Option Backend.Request))).map
      (fun _ => ()) = .ok ()) :
    ∃ q, (x >>= fun b => (pure (some (f b)) : Except StoreError (Option Backend.Request))) =
      .ok (some q) := by
  cases x with
  | error e => cases h
  | ok b => exact ⟨f b, rfl⟩

/-- An operation that passes its checks and is no batch has something to ask for. -/
theorem exists_asks (hcheck : op.check parser = .ok ()) (hbatch : ¬ IsBatch op) (label : String) :
    ∃ qs, Asks ⟨parser, backend label⟩ op qs := by
  have hrequest := (⟨parser, backend label⟩ : Repository Session α).request_check op
  rw [hcheck] at hrequest
  have hone : ∃ q, (⟨parser, backend label⟩ : Repository Session α).request op = .ok (some q) := by
    cases op with
    | insertMany es => exact absurd ⟨es, .inl rfl⟩ hbatch
    | updateMany es => exact absurd ⟨es, .inr rfl⟩ hbatch
    | insert e | update e => exact exists_some_of_map hrequest
    | deleteById tenant id | findById tenant id => exact exists_some_of_map hrequest
    | deleteByIds tenant ids | findByIds tenant ids => exact exists_some_of_map hrequest
    | deleteAll tenant | findAll tenant => exact exists_some_of_map hrequest
    | deleteByFilter tenant filter | findList tenant filter => exact exists_some_of_map hrequest
    | findPaging q => exact exists_some_of_map hrequest
  obtain ⟨q, hq⟩ := hone
  cases op with
  | findPaging query =>
      obtain ⟨⟨s, w⟩, hpage, -⟩ := exists_of_bind_eq_ok hq
      exact ⟨_, s, w, hpage, rfl⟩
  | _ => exact ⟨[q], q, hq, rfl⟩

/-! ## Conversations -/

/-- The operation got rows for everything that it asked for, and replies to them. -/
def Completes (r : Repository Session α) (label : String) (op : Operation α)
    (qs : List Backend.Request) (t : Session) : Prop :=
  ∃ answers, answers.length = qs.length ∧
    (∀ i rows, answers[i]? = some rows → t.reply i = .rows rows) ∧
    (r.run op t).2 = t.after (qs.map (statement label)) ∧ Answers op answers (r.run op t).1

/-- One of the statements of the operation failed, behind those that were answered with rows. With
it the operation ends and fails. -/
def Fails (r : Repository Session α) (label : String) (op : Operation α)
    (qs : List Backend.Request) (t : Session) : Prop :=
  ∃ done q rest message, qs = done ++ q :: rest ∧
    (∀ i < done.length, ∃ rows, t.reply i = .rows rows) ∧
    t.reply done.length = .failure message ∧
    r.run op t = (op.refused (.backend message), t.after ((done ++ [q]).map (statement label)))

theorem run_apply (op : Operation α) (t : Session) (r : Repository Session α) :
    r.run op t = (settled op (r.perform op t).1, (r.perform op t).2) := by
  rw [Repository.run_eq_perform]
  cases (r.perform op t).1 <;> rfl

/-- An operation that converses by one request completes or fails with it. -/
theorem Converses.completes_or_fails {q : Backend.Request} (h : Converses parser label op q)
    (t : Session) :
    Completes ⟨parser, backend label⟩ label op [q] t ∨
      Fails ⟨parser, backend label⟩ label op [q] t := by
  obtain ⟨-, reading, hperform, hanswers⟩ := h
  have hrun := run_apply op t ⟨parser, backend label⟩
  rw [hperform] at hrun
  cases hreply : t.reply 0 with
  | rows rows =>
      rw [hreply] at hrun
      refine .inl ⟨[rows], rfl, ?_, congrArg Prod.snd hrun, ?_⟩
      · intro i rows' hi
        obtain ⟨rfl, rfl⟩ : i = 0 ∧ rows = rows' := by
          cases i with
          | zero => exact ⟨rfl, Option.some.inj hi⟩
          | succ i => cases hi
        exact hreply
      · rw [hrun]
        exact hanswers rows
  | failure message =>
      rw [hreply] at hrun
      exact .inr ⟨[], q, [], message, rfl, fun i hi => absurd hi (Nat.not_lt_zero i), hreply, hrun⟩

/-- The reply of a search for a page. -/
def pageReply (q : PageQuery) (total : Nat) (rows : List (Members Json)) :
    Except StoreError (Reply α) :=
  (entities rows).map fun es =>
    .page (.ofParts (some es) (min (total : Int) maxInteger) (some q) none)

section Page

variable {query : PageQuery} {s : Scoped} {w : Window}
  (hpage : (⟨parser, backend label⟩ : Repository Session α).pageRequest query = .ok (s, w))
  (t : Session)

include hpage

/-- If the rows cannot be counted, they are not asked for. -/
theorem performFindPaging_of_failure {message : String} (hcount : t.reply 0 = .failure message) :
    (⟨parser, backend label⟩ : Repository Session α).perform (.findPaging query) t =
      (.error (.backend message), t.after [statement label (.count s)]) := by
  rw [Repository.perform, Repository.replying, Access.bind_pure_apply,
    Repository.tryFindPaging_apply hpage, count_apply, hcount]
  rfl

/-- Once the rows are counted, those of the page are asked for. -/
theorem performFindPaging_of_rows {counted : List (Members Json)}
    (hcount : t.reply 0 = .rows counted) :
    (⟨parser, backend label⟩ : Repository Session α).perform (.findPaging query) t =
      ((t.reply 1).answer >>= pageReply query (countColumn counted Cypher.totalColumn),
        t.after [statement label (.count s), statement label (.find s w)]) := by
  rw [Repository.perform, Repository.replying, Access.bind_pure_apply,
    Repository.tryFindPaging_apply hpage, count_apply, hcount]
  show ((((backend label).find s w (t.after [statement label (.count s)])).1.map _).map _,
    ((backend label : Backend Session α).find s w (t.after [statement label (.count s)])).2) = _
  rw [find_apply, Session.reply_after, Session.after_after]
  refine congrArg (·, _) ?_
  show (((t.reply 1).answer >>= entities).map _).map _ = _
  cases (t.reply 1).answer with
  | error err => rfl
  | ok rows =>
      show ((entities rows).map _).map _ = (entities rows).map _
      cases (entities rows : Except StoreError (List α)) <;> rfl

/-- A page is counted, and then found. -/
theorem completes_or_fails_findPaging :
    Completes (⟨parser, backend label⟩ : Repository Session α) label (.findPaging query)
        [.count s, .find s w] t ∨
      Fails (⟨parser, backend label⟩ : Repository Session α) label (.findPaging query)
        [.count s, .find s w] t := by
  have hrun := run_apply (.findPaging query) t (⟨parser, backend label⟩ : Repository Session α)
  cases hcount : t.reply 0 with
  | failure message =>
      rw [performFindPaging_of_failure hpage t hcount] at hrun
      exact .inr ⟨[], _, _, message, rfl, fun i hi => absurd hi (Nat.not_lt_zero i), hcount, hrun⟩
  | rows counted =>
      rw [performFindPaging_of_rows hpage t hcount] at hrun
      cases hfind : t.reply 1 with
      | failure message =>
          rw [hfind] at hrun
          refine .inr ⟨[.count s], .find s w, [], message, rfl, ?_, hfind, hrun⟩
          intro i hi
          obtain rfl : i = 0 := by simpa using hi
          exact ⟨counted, hcount⟩
      | rows rows =>
          rw [hfind] at hrun
          refine .inl ⟨[counted, rows], rfl, ?_, congrArg Prod.snd hrun, ?_⟩
          · intro i answer hi
            match i, hi with
            | 0, hi => exact Option.some.inj hi ▸ hcount
            | 1, hi => exact Option.some.inj hi ▸ hfind
          · rw [hrun]
            exact ⟨_, reports_countColumn counted _, finds_entities rows _⟩

end Page

/-- An operation that passes its checks and is no batch asks for what it needs, in the mode of its
kind. It replies to the rows that the session answers with, or fails with the first statement that
the session fails, and then sends no more. -/
theorem run_completes_or_fails (hcheck : op.check parser = .ok ()) (hbatch : ¬ IsBatch op)
    (label : String) (t : Session) :
    let r : Repository Session α := ⟨parser, backend label⟩
    ∃ qs, Asks r op qs ∧ (∀ q ∈ qs, (statement label q).2 = mode op) ∧
      (Completes r label op qs t ∨ Fails r label op qs t) := by
  intro r
  obtain ⟨qs, hasks⟩ := exists_asks hcheck hbatch label
  refine ⟨qs, hasks, ?_⟩
  cases op with
  | findPaging query =>
      obtain ⟨s, w, hpage, rfl⟩ := hasks
      refine ⟨?_, completes_or_fails_findPaging hpage t⟩
      intro q hq
      rcases List.mem_pair.mp hq with rfl | rfl <;> rfl
  | _ =>
      obtain ⟨q, hq, rfl⟩ := id hasks
      have hconverses := converses_of_asks hbatch hasks
      refine ⟨?_, hconverses.completes_or_fails t⟩
      intro q' hq'
      rw [List.mem_singleton.mp hq']
      exact hconverses.1

end Operations

/-- A row without a node spoils a search for one user, also behind a row with that user. -/
theorem run_completes_or_fails_findById_users :
    let parser : FilterParser := .ofTable []
    let op : Operation User := .findById "acme" "u1"
    let r : Repository Session User := ⟨parser, backend "User"⟩
    let u : User := ⟨"u1", "acme", "Ann", 30⟩
    let t : Session := .ofReplies [.rows [[("n", u.toJson)], [("m", u.toJson)]]]
    op.check parser = .ok () ∧ ¬ IsBatch op ∧
      (rowEntity [("n", u.toJson)] : Except StoreError User) = .ok u ∧
      ∃ message, (r.run op t).1 = .entity (.failed none (.infrastructure message)) := by
  intro parser op r u t
  have hcheck : op.check parser = .ok () := eq_ok_of_toOption (by decide +kernel)
  have hbatch : ¬ IsBatch (.findById "acme" "u1" : Operation User) := by
    rintro ⟨es, h | h⟩ <;> cases h
  have hrow : (rowEntity [("n", u.toJson)] : Except StoreError User) = .ok u :=
    eq_ok_of_toOption (by decide +kernel)
  refine ⟨hcheck, hbatch, hrow, ?_⟩
  obtain ⟨qs, ⟨q, -, rfl⟩, -, hcompletes | hfails⟩ := run_completes_or_fails hcheck hbatch "User" t
  · obtain ⟨answers, hlength, hanswers, -, hreply⟩ := hcompletes
    obtain ⟨rows, rfl⟩ := List.length_eq_one_iff.mp hlength
    have hrows := hanswers 0 rows rfl
    cases hrows
    rcases hreply with ⟨es, hholds, -⟩ | ⟨-, message, hmessage⟩
    · -- The second row has no column of that name.
      rcases hholds with _ | ⟨-, _ | ⟨⟨node, hnode, -⟩, -⟩⟩
      exact nomatch hnode
    · exact ⟨message, hmessage⟩
  · obtain ⟨done, q', rest, message, hqs, -, hfailure, -⟩ := hfails
    cases done with
    | nil => cases hfailure
    | cons q'' done => cases done <;> cases hqs

end Graph

end TenantStore
