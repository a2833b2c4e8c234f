import TenantStore.Proofs.Access
import TenantStore.Stream.Journal

/-!
# Streams do not see each other

What a journal answers to a request depends on the stream of the request alone, and so does what the
request leaves there (`Journal.run_fst`, `Journal.stream_run`). So a run may be cut down to the
requests on some of the streams without any difference to these (`Journal.runAll_filter`): neither
the answers nor the streams show that there were other requests. `Journal.noninterference` says this
of one stream and of all streams of a tenant, and that requests on two streams may change places.
-/

namespace TenantStore

namespace Stream

/-- What the stream answers to a request on it. -/
def answer (s : Stream) (r : StreamRequest) : Except StoreError StreamAnswer :=
  r.stream.validate.map fun _ =>
    match r with
    | .append now a => .appended ⟨(s.arriving now a.events).map RecordedEvent.sequence⟩
    | .load a => .loaded (s.load a.stream)
    | .saveSnapshot _ => .saved {}

/-- The stream after a request on it. -/
def after (s : Stream) (r : StreamRequest) : Stream :=
  match r.stream.validate with
  | .error _ => s
  | .ok () =>
    match r with
    | .append now a => s.append now a.events
    | .load _ => s
    | .saveSnapshot a => s.saveSnapshot a.snapshot

end Stream

namespace Journal

/-! ## One request -/

/-- A request with a key that is refused leaves the journal as it is. -/
theorem run_of_validate_eq_error {r : StreamRequest} {e : StoreError}
    (h : r.stream.validate = .error e) (j : Journal) : store.run r j = (.error e, j) := by
  cases r with
  | append now a =>
      have h : a.stream.validate = .error e := h
      simp only [EventStore.run, store, append, h]
      rfl
  | load a =>
      have h : a.stream.validate = .error e := h
      simp only [EventStore.run, store, load, h]
      rfl
  | saveSnapshot a =>
      have h : a.stream.validate = .error e := h
      simp only [EventStore.run, store, saveSnapshot, h]
      rfl

/-- A request with a key that is in order is answered by its stream, which is stored again unless it
was only loaded. -/
theorem run_of_validate_eq_ok {r : StreamRequest} (h : r.stream.validate = .ok ()) (j : Journal) :
    store.run r j =
      ((j.stream r.stream).answer r,
        match r with
        | .load _ => j
        | r => j.put r.stream ((j.stream r.stream).after r)) := by
  cases r with
  | append now a =>
      have h : a.stream.validate = .ok () := h
      simp only [EventStore.run, store, append, Stream.answer, Stream.after,
        StreamRequest.stream, h]
      rfl
  | load a =>
      have h : a.stream.validate = .ok () := h
      simp only [EventStore.run, store, load, Stream.answer, StreamRequest.stream, h]
      rfl
  | saveSnapshot a =>
      have h : a.stream.validate = .ok () := h
      simp only [EventStore.run, store, saveSnapshot, Stream.answer, Stream.after,
        StreamRequest.stream, h]
      rfl

/-- A request is answered by its stream. -/
theorem run_fst (r : StreamRequest) (j : Journal) :
    (store.run r j).1 = (j.stream r.stream).answer r := by
  cases h : r.stream.validate with
  | error e =>
      rw [run_of_validate_eq_error h, Stream.answer.eq_def, h]
      rfl
  | ok _ => rw [run_of_validate_eq_ok h]

/-- A request changes its own stream at most. -/
theorem stream_run (r : StreamRequest) (j : Journal) (key : StreamKey) :
    (store.run r j).2.stream key =
      if key = r.stream then (j.stream key).after r else j.stream key := by
  cases h : r.stream.validate with
  | error e =>
      rw [run_of_validate_eq_error h, Stream.after.eq_def, h, ite_self]
  | ok _ =>
      rw [run_of_validate_eq_ok h]
      by_cases hkey : key = r.stream
      · subst hkey
        rw [if_pos rfl]
        cases r with
        | load a => simp only [Stream.after, h]
        | append now a => exact stream_put_self j _ _
        | saveSnapshot a => exact stream_put_self j _ _
      · rw [if_neg hkey]
        cases r with
        | load a => rfl
        | append now a => exact stream_put_of_ne hkey _
        | saveSnapshot a => exact stream_put_of_ne hkey _

/-! ## Requests one after the other -/

theorem runAll_cons (r : StreamRequest) (rs : List StreamRequest) (j : Journal) :
    store.runAll j (r :: rs) =
      ((store.run r j).1 :: (store.runAll (store.run r j).2 rs).1,
        (store.runAll (store.run r j).2 rs).2) :=
  rfl

theorem runAll_append (rs others : List StreamRequest) (j : Journal) :
    store.runAll j (rs ++ others) =
      ((store.runAll j rs).1 ++ (store.runAll (store.runAll j rs).2 others).1,
        (store.runAll (store.runAll j rs).2 others).2) := by
  induction rs generalizing j with
  | nil => rfl
  | cons r rs ih => rw [List.cons_append, runAll_cons, ih, runAll_cons, List.cons_append]

/-- Every request has an answer. -/
theorem length_runAll (rs : List StreamRequest) (j : Journal) :
    (store.runAll j rs).1.length = rs.length := by
  induction rs generalizing j with
  | nil => rfl
  | cons r rs ih => rw [runAll_cons, List.length_cons, List.length_cons, ih]

/-- The streams that pass a test are the same in both journals. -/
def AgreeOn (p : StreamKey → Bool) (j j' : Journal) : Prop :=
  ∀ key, p key = true → j.stream key = j'.stream key

variable {p : StreamKey → Bool} {j j' : Journal}

/-- A request on a stream that does not pass the test changes none that does. -/
theorem AgreeOn.run_left (h : AgreeOn p j j') {r : StreamRequest} (hr : p r.stream = false) :
    AgreeOn p (store.run r j).2 j' := by
  intro key hkey
  have hne : key ≠ r.stream := by
    rintro rfl
    rw [hr] at hkey
    exact Bool.false_ne_true hkey
  rw [stream_run, if_neg hne, h key hkey]

/-- A request leaves the same in streams that were the same. -/
theorem AgreeOn.run (h : AgreeOn p j j') (r : StreamRequest) :
    AgreeOn p (store.run r j).2 (store.run r j').2 := by
  intro key hkey
  rw [stream_run, stream_run, h key hkey]

/-- Without the requests on streams that do not pass a test, the other requests are answered as
before, and their streams are the same in the end. -/
theorem runAll_filter (h : AgreeOn p j j') (rs : List StreamRequest) :
    (rs.zip (store.runAll j rs).1).filter (fun exchange => p exchange.1.stream) =
        (rs.filter fun r => p r.stream).zip
          (store.runAll j' (rs.filter fun r => p r.stream)).1 ∧
      AgreeOn p (store.runAll j rs).2 (store.runAll j' (rs.filter fun r => p r.stream)).2 := by
  induction rs generalizing j j' with
  | nil => exact ⟨rfl, h⟩
  | cons r rs ih =>
      rw [runAll_cons, List.zip_cons_cons, List.filter_cons, List.filter_cons]
      -- A request that is left out changes only streams on which the journals may differ.
      by_cases hr : p r.stream = true
      · have hanswer : (store.run r j).1 = (store.run r j').1 := by
          rw [run_fst, run_fst, h r.stream hr]
        obtain ⟨hanswers, hfinal⟩ := ih (h.run r)
        rw [if_pos hr, if_pos hr, runAll_cons, List.zip_cons_cons, hanswers, hanswer]
        exact ⟨rfl, hfinal⟩
      · rw [if_neg hr, if_neg hr]
        exact ih (h.run_left (Bool.eq_false_iff.mpr hr))

/-- Journals with the same streams answer the same. -/
theorem runAll_congr (h : ∀ key, j.stream key = j'.stream key) (rs : List StreamRequest) :
    (store.runAll j rs).1 = (store.runAll j' rs).1 ∧
      ∀ key, (store.runAll j rs).2.stream key = (store.runAll j' rs).2.stream key := by
  -- Nothing is filtered out by a test that every stream passes.
  have hall : AgreeOn (fun _ => true) j j' := fun key _ => h key
  have hkept : rs.filter (fun _ => true) = rs := List.filter_eq_self.mpr fun _ _ => rfl
  obtain ⟨hanswers, hfinal⟩ := runAll_filter hall rs
  rw [hkept, List.filter_eq_self.mpr fun _ _ => rfl] at hanswers
  rw [hkept] at hfinal
  refine ⟨?_, fun key => hfinal key rfl⟩
  have hzip := congrArg (List.map Prod.snd) hanswers
  have hlength : ∀ j, (store.runAll j rs).1.length ≤ rs.length :=
    fun j => Nat.le_of_eq (length_runAll rs j)
  rwa [List.map_snd_zip (hlength j), List.map_snd_zip (hlength j')] at hzip

/-! ## Streams apart -/

/-- Two requests on different streams may change places. -/
theorem runAll_swap {a b : StreamRequest} (hab : a.stream ≠ b.stream)
    (after : List StreamRequest) (j : Journal) :
    ∃ x y zs, (store.runAll j (a :: b :: after)).1 = x :: y :: zs ∧
      (store.runAll j (b :: a :: after)).1 = y :: x :: zs ∧
      ∀ key, (store.runAll j (a :: b :: after)).2.stream key =
        (store.runAll j (b :: a :: after)).2.stream key := by
  -- Neither request touches the stream of the other, whichever comes first.
  have hstreams : ∀ key, (store.run b (store.run a j).2).2.stream key =
      (store.run a (store.run b j).2).2.stream key := by
    intro key
    simp only [stream_run]
    by_cases ha : key = a.stream
    · subst ha
      rw [if_neg hab, if_neg hab]
    · rw [if_neg ha, if_neg ha]
  have hfirst : (store.run a (store.run b j).2).1 = (store.run a j).1 := by
    rw [run_fst, run_fst, stream_run, if_neg hab]
  have hsecond : (store.run b (store.run a j).2).1 = (store.run b j).1 := by
    rw [run_fst, run_fst, stream_run, if_neg (Ne.symm hab)]
  obtain ⟨hanswers, hfinal⟩ := runAll_congr hstreams after
  refine ⟨(store.run a j).1, (store.run b j).1,
    (store.runAll (store.run b (store.run a j).2).2 after).1, ?_, ?_, hfinal⟩
  · simp only [runAll_cons, hsecond]
  · simp only [runAll_cons, hfirst, hanswers]

/-- The requests on the streams that pass a test, with their answers, in a run on a new journal. -/
def exchanges (p : StreamKey → Bool) (rs : List StreamRequest) :
    List (StreamRequest × Except StoreError StreamAnswer) :=
  (rs.zip (store.runAll empty rs).1).filter fun exchange => p exchange.1.stream

/-- The streams after a run on a new journal. -/
def finalStream (rs : List StreamRequest) (key : StreamKey) : Stream :=
  (store.runAll empty rs).2.stream key

/-- Two runs with the same requests on the streams that pass a test have the same answers to them,
and leave these streams the same. -/
theorem exchanges_eq_of_filter_eq {rs others : List StreamRequest}
    (h : (rs.filter fun r => p r.stream) = others.filter fun r => p r.stream) :
    exchanges p rs = exchanges p others ∧
      ∀ key, p key = true → finalStream rs key = finalStream others key := by
  have hnew : AgreeOn p empty empty := fun _ _ => rfl
  obtain ⟨hanswers, hfinal⟩ := runAll_filter hnew rs
  obtain ⟨hothers, hfinal'⟩ := runAll_filter hnew others
  refine ⟨?_, fun key hkey => ?_⟩
  · rw [exchanges, exchanges, hanswers, hothers, h]
  · rw [finalStream, finalStream, hfinal key hkey, hfinal' key hkey, h]

/-- A stream has the answers and the contents that it has if there are no requests on other streams.
What a tenant sees is the same in any two runs with the same requests of the tenant. Two requests
that follow each other on different streams may change places, and take their answers with them. -/
theorem noninterference (rs : List StreamRequest) :
    (∀ key,
      let alone := rs.filter fun r => r.stream = key
      exchanges (fun k => k = key) rs = alone.zip (store.runAll empty alone).1 ∧
        finalStream rs key = finalStream alone key) ∧
    (∀ tenant others,
      (rs.filter fun r => r.stream.tenant = tenant) =
          (others.filter fun r => r.stream.tenant = tenant) →
        exchanges (fun k => k.tenant = tenant) rs = exchanges (fun k => k.tenant = tenant) others ∧
          ∀ key, key.tenant = tenant → finalStream rs key = finalStream others key) ∧
    (∀ before a b after, rs = before ++ a :: b :: after → a.stream ≠ b.stream →
      let swapped := before ++ b :: a :: after
      ∃ xs x y zs, xs.length = before.length ∧
        (store.runAll empty rs).1 = xs ++ x :: y :: zs ∧
        (store.runAll empty swapped).1 = xs ++ y :: x :: zs ∧
        ∀ key, finalStream rs key = finalStream swapped key) := by
  refine ⟨fun key => ?_, fun tenant others h => ?_, ?_⟩
  · have hnew : AgreeOn (fun k => k = key) empty empty := fun _ _ => rfl
    obtain ⟨hanswers, hfinal⟩ := runAll_filter hnew rs
    exact ⟨hanswers, hfinal key (decide_eq_true rfl)⟩
  · obtain ⟨hanswers, hfinal⟩ := exchanges_eq_of_filter_eq (p := fun k => k.tenant = tenant) h
    exact ⟨hanswers, fun key hkey => hfinal key (decide_eq_true hkey)⟩
  · rintro before a b after rfl hab swapped
    obtain ⟨x, y, zs, hanswers, hswapped, hfinal⟩ :=
      runAll_swap hab after (store.runAll empty before).2
    refine ⟨(store.runAll empty before).1, x, y, zs, length_runAll before empty, ?_, ?_, ?_⟩
    · rw [runAll_append, hanswers]
    · rw [runAll_append, hswapped]
    · intro key
      rw [finalStream, finalStream, runAll_append, runAll_append]
      exact hfinal key

/-- Tenants with aggregates of the same name do not see each other, also if one of them saves a
snapshot with a number of its own choice before the other one loads the stream. -/
theorem noninterference_same_aggregate :
    let now : Instant := ⟨⟨2026, 1, 15⟩, 10, 0, 0, 0⟩
    let acme : StreamKey := ⟨"acme", "o1", "order"⟩
    let zeta : StreamKey := ⟨"zeta", "o1", "order"⟩
    let placed : SubmittedEvent := .ofData "e1" "OrderPlaced" .null
    let rs : List StreamRequest :=
      [.append now ⟨acme, [placed]⟩, .saveSnapshot ⟨zeta, .null, "r9", [], 9⟩, .load ⟨acme⟩]
    zeta ≠ acme ∧
      (finalStream rs acme).events.length = 1 ∧
      ∀ key, finalStream rs key =
        finalStream
          [.append now ⟨acme, [placed]⟩, .load ⟨acme⟩, .saveSnapshot ⟨zeta, .null, "r9", [], 9⟩]
          key := by
  intro now acme zeta placed rs
  have hne : zeta ≠ acme := by decide
  obtain ⟨xs, x, y, zs, -, -, -, hfinal⟩ :=
    (noninterference rs).2.2 [.append now ⟨acme, [placed]⟩] _ _ [] rfl hne
  exact ⟨hne, by decide +kernel, hfinal⟩

end Journal
end TenantStore
