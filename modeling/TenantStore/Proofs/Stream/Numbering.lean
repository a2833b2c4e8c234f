import TenantStore.Proofs.Stream.Locality

/-!
# The numbers of events

A journal numbers the events of each stream from one on and leaves no gap, whatever requests on
other streams, loads and snapshots come between (`Journal.numbering`). The number of the next event
is read off the last event that is stored, so what carries the proof is that the last number of a
stream is the number of its events (`Stream.Records.lastSequence_eq_length`). That the numbers
handed out are those that are stored holds of any stream (`Stream.sequences_after`).
-/

namespace TenantStore

/-! ## What a request submits -/

/-- What a client submits of an event and gets back when it loads the stream. -/
def SubmittedEvent.content (e : SubmittedEvent) : String × String × String × Json :=
  (e.id, e.type, e.version, e.data)

/-- What a record keeps of the event that was submitted. -/
def RecordedEvent.content (e : RecordedEvent) : String × String × String × Json :=
  (e.id, e.type, e.version, e.data)

/-- The events that a request adds to its stream. -/
def StreamRequest.submitted (r : StreamRequest) : List SubmittedEvent :=
  match r.stream.validate, r with
  | .ok (), .append _ a => a.events
  | _, _ => []

/-- The sequence numbers that an answer hands out. -/
def StreamAnswer.numbers : Except StoreError StreamAnswer → List Nat
  | .ok (.appended a) => a.sequences
  | _ => []

namespace Stream

/-! ## One request -/

theorem sequences_record (now : Instant) (next : Nat) (es : List SubmittedEvent) :
    (record now next es).map RecordedEvent.sequence = List.range' next es.length := by
  induction es generalizing next with
  | nil => rfl
  | cons e es ih => rw [record, List.map_cons, ih, List.length_cons, List.range'_succ]; rfl

theorem contents_record (now : Instant) (next : Nat) (es : List SubmittedEvent) :
    (record now next es).map RecordedEvent.content = es.map SubmittedEvent.content := by
  induction es generalizing next with
  | nil => rfl
  | cons e es ih => rw [record, List.map_cons, ih, List.map_cons]; rfl

theorem length_record (now : Instant) (next : Nat) (es : List SubmittedEvent) :
    (record now next es).length = es.length := by
  rw [← List.length_map, contents_record, List.length_map]

/-- The numbers that a request adds to the stream are those that it is answered. -/
theorem sequences_after (s : Stream) (r : StreamRequest) :
    (s.after r).events.map RecordedEvent.sequence =
      s.events.map RecordedEvent.sequence ++ StreamAnswer.numbers (s.answer r) := by
  unfold after answer
  cases h : r.stream.validate with
  | error e => exact (List.append_nil _).symm
  | ok _ =>
      cases r with
      | append now a => exact List.map_append
      | load a => exact (List.append_nil _).symm
      | saveSnapshot a => exact (List.append_nil _).symm

/-- The stream records the events: they are numbered from one on, in the given order. -/
structure Records (s : Stream) (es : List SubmittedEvent) : Prop where
  sequences : s.events.map RecordedEvent.sequence = List.range' 1 s.events.length
  contents : s.events.map RecordedEvent.content = es.map SubmittedEvent.content

theorem Records.empty : Stream.empty.Records [] :=
  ⟨rfl, rfl⟩

variable {s : Stream} {es : List SubmittedEvent}

/-- The last number of a stream is the number of its events. -/
theorem Records.lastSequence_eq_length (h : s.Records es) : s.lastSequence = s.events.length := by
  -- The last of the numbers from one on says how many there are.
  have hlast : s.lastSequence = ((s.events.map RecordedEvent.sequence).getLast?).getD 0 := by
    rw [lastSequence, List.getLast?_map]
    cases s.events.getLast? <;> rfl
  rw [hlast, h.sequences, List.getLast?_range']
  split <;> simp only [Option.getD_none, Option.getD_some] <;> omega

/-- Events that arrive get the numbers behind those that are taken. -/
theorem Records.sequences_arriving (h : s.Records es) (now : Instant)
    (new : List SubmittedEvent) :
    (s.arriving now new).map RecordedEvent.sequence =
      List.range' (s.events.length + 1) new.length := by
  rw [arriving, sequences_record, h.lastSequence_eq_length]

/-- Appended events are recorded behind the others. -/
theorem Records.append (h : s.Records es) (now : Instant) (new : List SubmittedEvent) :
    (s.append now new).Records (es ++ new) := by
  refine ⟨?_, ?_⟩
  · show (s.events ++ s.arriving now new).map RecordedEvent.sequence =
      List.range' 1 (s.events ++ s.arriving now new).length
    rw [List.map_append, h.sequences, h.sequences_arriving, List.length_append, arriving,
      length_record, Nat.add_comm _ 1, List.range'_append_1]
  · show (s.events ++ s.arriving now new).map RecordedEvent.content = _
    rw [List.map_append, List.map_append, h.contents, arriving, contents_record]

/-- A request adds the events that it submits to those that are recorded. -/
theorem Records.after (h : s.Records es) (r : StreamRequest) :
    (s.after r).Records (es ++ r.submitted) := by
  unfold Stream.after StreamRequest.submitted
  cases hvalid : r.stream.validate with
  | error e => exact ⟨h.sequences, by rw [List.append_nil]; exact h.contents⟩
  | ok _ =>
      cases r with
      | append now a => exact h.append now a.events
      | load a => exact ⟨h.sequences, by rw [List.append_nil]; exact h.contents⟩
      | saveSnapshot a => exact ⟨h.sequences, by rw [List.append_nil]; exact h.contents⟩

end Stream

namespace Journal

/-! ## Requests one after the other -/

/-- The events that requests add to a stream. -/
def submitted (key : StreamKey) (rs : List StreamRequest) : List SubmittedEvent :=
  (rs.filter fun r => r.stream = key).flatMap StreamRequest.submitted

/-- What requests on a stream contribute, one after the other. -/
theorem flatMap_requests_cons {β : Type} (f : StreamRequest → List β) (key : StreamKey)
    (r : StreamRequest) (rs : List StreamRequest) :
    ((r :: rs).filter fun r => r.stream = key).flatMap f =
      (if r.stream = key then f r else []) ++ (rs.filter fun r => r.stream = key).flatMap f := by
  rw [List.filter_cons]
  by_cases h : r.stream = key
  · rw [if_pos (decide_eq_true h), if_pos h, List.flatMap_cons]
  · rw [if_neg (by simpa using h), if_neg h, List.nil_append]

theorem submitted_cons (key : StreamKey) (r : StreamRequest) (rs : List StreamRequest) :
    submitted key (r :: rs) =
      (if r.stream = key then r.submitted else []) ++ submitted key rs :=
  flatMap_requests_cons StreamRequest.submitted key r rs

/-- A stream that records some events records those of the run behind them. -/
theorem records_runAll {j : Journal} {key : StreamKey} {es : List SubmittedEvent}
    (h : (j.stream key).Records es) (rs : List StreamRequest) :
    ((store.runAll j rs).2.stream key).Records (es ++ submitted key rs) := by
  induction rs generalizing j es with
  | nil => rwa [submitted, List.filter_nil, List.flatMap_nil, List.append_nil]
  | cons r rs ih =>
      rw [runAll_cons, submitted_cons, ← List.append_assoc]
      refine ih ?_
      rw [stream_run]
      by_cases hkey : key = r.stream
      · rw [if_pos hkey, if_pos hkey.symm]
        exact h.after r
      · rw [if_neg hkey, if_neg (Ne.symm hkey), List.append_nil]
        exact h

theorem records_finalStream (rs : List StreamRequest) (key : StreamKey) :
    (finalStream rs key).Records (submitted key rs) :=
  records_runAll (j := empty) Stream.Records.empty rs

/-- The numbers in a stream are those that were there and those that the run hands out. -/
theorem sequences_runAll (rs : List StreamRequest) (j : Journal) (key : StreamKey) :
    ((store.runAll j rs).2.stream key).events.map RecordedEvent.sequence =
      (j.stream key).events.map RecordedEvent.sequence ++
        ((rs.zip (store.runAll j rs).1).filter fun exchange => exchange.1.stream = key).flatMap
          fun exchange => StreamAnswer.numbers exchange.2 := by
  induction rs generalizing j with
  | nil => exact (List.append_nil _).symm
  | cons r rs ih =>
      rw [runAll_cons, ih, stream_run, List.zip_cons_cons, List.filter_cons]
      by_cases hkey : key = r.stream
      · subst hkey
        rw [if_pos rfl, if_pos (decide_eq_true rfl), List.flatMap_cons, Stream.sequences_after,
          List.append_assoc, run_fst]
      · rw [if_neg hkey, if_neg (by simpa using Ne.symm hkey)]

/-- In any run on a new journal, the events of a stream carry the numbers from one on, in the order
of the requests and with the contents that were submitted, and these are the numbers that the
answers hand out, each once. An append is answered with the numbers behind those of the events that
are there, unless its key is refused, and a request with a key that is refused changes no stream. -/
theorem numbering (rs : List StreamRequest) (key : StreamKey) :
    let s := finalStream rs key
    s.events.map RecordedEvent.sequence = List.range' 1 s.events.length ∧
    s.events.map RecordedEvent.content = (submitted key rs).map SubmittedEvent.content ∧
    ((exchanges (fun k => k = key) rs).flatMap fun exchange => StreamAnswer.numbers exchange.2) =
      List.range' 1 s.events.length ∧
    (∀ before now a after, rs = before ++ .append now a :: after →
      (store.runAll empty rs).1[before.length]? =
        some (a.stream.validate.map fun _ =>
          .appended ⟨List.range' ((finalStream before a.stream).events.length + 1)
            a.events.length⟩)) ∧
    ∀ before r after, rs = before ++ r :: after → ¬ r.stream.Valid →
      (∃ e, r.stream.validate = .error e ∧
        (store.runAll empty rs).1[before.length]? = some (.error e)) ∧
      ∀ other, finalStream (before ++ [r]) other = finalStream before other := by
  intro s
  obtain ⟨hsequences, hcontents⟩ := records_finalStream rs key
  -- A request is answered by the stream that the requests before it left.
  have hanswer : ∀ before r after, rs = before ++ r :: after →
      (store.runAll empty rs).1[before.length]? =
        some ((finalStream before r.stream).answer r) := by
    rintro before r after rfl
    rw [runAll_append, List.getElem?_append_right (Nat.le_of_eq (length_runAll before empty)),
      length_runAll, Nat.sub_self, runAll_cons, List.getElem?_cons_zero, run_fst]
    rfl
  refine ⟨hsequences, hcontents, ?_, ?_, ?_⟩
  · exact (sequences_runAll rs empty key).symm.trans hsequences
  · rintro before now a after hrs
    rw [hanswer before _ after hrs, Stream.answer]
    have harriving := (records_finalStream before a.stream).sequences_arriving now a.events
    simp only [StreamRequest.stream, harriving]
  · rintro before r after hrs hinvalid
    cases hvalid : r.stream.validate with
    | ok _ => exact absurd (StreamKey.validate_eq_ok_iff.mp hvalid) hinvalid
    | error e =>
        refine ⟨⟨e, rfl, ?_⟩, fun other => ?_⟩
        · rw [hanswer before r after hrs, Stream.answer.eq_def, hvalid]
          rfl
        · rw [finalStream, runAll_append, runAll_cons, run_of_validate_eq_error hvalid]
          rfl

/-- Neither a snapshot with a number of its own choice nor an append that is refused takes a number
of the stream. -/
theorem numbering_behind_snapshot :
    let now : Instant := ⟨⟨2026, 1, 15⟩, 10, 0, 0, 0⟩
    let key : StreamKey := ⟨"acme", "o1", "order"⟩
    let blank : StreamKey := ⟨"acme", " ", "order"⟩
    let event (id : String) : SubmittedEvent := .ofData id "OrderPlaced" .null
    let before : List StreamRequest :=
      [.append now ⟨key, [event "e1", event "e2"]⟩, .saveSnapshot ⟨key, .null, "r7", [], 7⟩]
    let refused : StreamRequest := .append now ⟨blank, [event "e3"]⟩
    let rs := before ++ [refused, .append now ⟨key, [event "e4"]⟩]
    (finalStream rs key).events.map RecordedEvent.sequence = [1, 2, 3] ∧
      ((exchanges (fun k => k = key) rs).map fun exchange => StreamAnswer.numbers exchange.2) =
        [[1, 2], [], [3]] ∧
      ¬ blank.Valid ∧
      ∀ other, finalStream (before ++ [refused]) other = finalStream before other := by
  intro now key blank event before refused rs
  have hblank : ¬ blank.Valid := fun h => absurd h.2.1 (by decide)
  obtain ⟨hsequences, -, -, -, hrefused⟩ := numbering rs key
  refine ⟨?_, by decide +kernel, hblank, (hrefused before refused _ rfl hblank).2⟩
  have hlength : (finalStream rs key).events.length = 3 := by decide +kernel
  rw [hsequences, hlength]
  rfl

end Journal
end TenantStore
