import TenantStore.Proofs.Stream.Numbering

/-!
# What a load shows

Loading a stream gives its latest snapshot (`Stream.IsLatest`) and the events behind it. As the
events are numbered from one on without gaps, those behind a number are what is left when as many
events are dropped (`Stream.Records.events_load`). So a load of any stream is known from the
events and snapshots that clients asked to store there: `Journal.load_after_run` says all of it.

A client chooses the number of a snapshot, and an append does not look at snapshots. Whether a load
shows what was appended therefore depends on the snapshots: `Journal.visible_iff` says that it does
exactly if none of them is ahead of the events.
-/

namespace TenantStore

/-! ## What a request saves -/

/-- What a client saves of a snapshot and gets back when it loads the stream: the state of the
aggregate, its version, the metadata and the number. -/
def SnapshotRequest.content (r : SnapshotRequest) : Json × String × Members String × Nat :=
  (r.data, r.version, r.metadata, r.sequence)

/-- What a stream keeps of the snapshot that was saved. -/
def Snapshot.content (s : Snapshot) : Json × String × Members String × Nat :=
  (s.data, s.revision, s.metadata, s.sequence)

/-- The snapshots that a request saves in its stream. -/
def StreamRequest.saved (r : StreamRequest) : List SnapshotRequest :=
  match r.stream.validate, r with
  | .ok (), .saveSnapshot a => [a]
  | _, _ => []

namespace Stream

/-! ## The latest snapshot -/

section Latest

variable {α β : Type} {number : α → Nat} {b : α} {xs : List α}

/-- The element has the greatest number of all, and of those with this number it is the last one. -/
def IsLatest (number : α → Nat) (b : α) (xs : List α) : Prop :=
  ∃ before after, xs = before ++ b :: after ∧
    (∀ x ∈ before, number x ≤ number b) ∧ ∀ x ∈ after, number x < number b

theorem IsLatest.number_le (h : IsLatest number b xs) {x : α} (hx : x ∈ xs) :
    number x ≤ number b := by
  obtain ⟨before, after, rfl, hbefore, hafter⟩ := h
  rcases List.mem_append.mp hx with hx | hx
  · exact hbefore x hx
  · rcases List.mem_cons.mp hx with rfl | hx
    · exact Nat.le_refl _
    · exact Nat.le_of_lt (hafter x hx)

/-- Which element is the latest one depends on nothing but what the number is read off. -/
theorem isLatest_map_iff {f : β → α} {ys : List β} :
    IsLatest number b (ys.map f) ↔ ∃ y, IsLatest (fun y => number (f y)) y ys ∧ f y = b := by
  constructor
  · rintro ⟨before, after, hys, hbefore, hafter⟩
    obtain ⟨front, back, rfl, rfl, hback⟩ := List.map_eq_append_iff.mp hys
    obtain ⟨y, rest, rfl, rfl, rfl⟩ := List.map_eq_cons_iff.mp hback
    exact ⟨y, ⟨front, rest, rfl, List.forall_mem_map.mp hbefore, List.forall_mem_map.mp hafter⟩,
      rfl⟩
  · rintro ⟨y, ⟨before, after, rfl, hbefore, hafter⟩, rfl⟩
    exact ⟨before.map f, after.map f, by rw [List.map_append, List.map_cons],
      List.forall_mem_map.mpr hbefore, List.forall_mem_map.mpr hafter⟩

end Latest

variable {b c : Snapshot} {ss : List Snapshot}

/-- Snapshots with smaller numbers do not replace a snapshot. -/
theorem foldl_later_of_lt (h : ∀ x ∈ ss, x.sequence < b.sequence) :
    ss.foldl later (some b) = some b := by
  induction ss with
  | nil => rfl
  | cons x ss ih =>
      have hx : ¬ b.sequence ≤ x.sequence := Nat.not_le.mpr (h x List.mem_cons_self)
      rw [List.foldl_cons, later, if_neg hx]
      exact ih fun y hy => h y (List.mem_cons_of_mem x hy)

/-- Once there is a snapshot, what is found is the latest of it and those behind it. -/
theorem exists_foldl_later (c : Snapshot) (ss : List Snapshot) :
    ∃ b, ss.foldl later (some c) = some b ∧ IsLatest Snapshot.sequence b (c :: ss) := by
  induction ss generalizing c with
  | nil => exact ⟨c, rfl, [], [], rfl, by simp, by simp⟩
  | cons x ss ih =>
      rw [List.foldl_cons, later]
      by_cases hle : c.sequence ≤ x.sequence
      · obtain ⟨b, hb, hlatest⟩ := ih x
        have hx : x.sequence ≤ b.sequence := hlatest.number_le List.mem_cons_self
        obtain ⟨before, after, hss, hbefore, hafter⟩ := hlatest
        rw [if_pos hle]
        refine ⟨b, hb, c :: before, after, by rw [hss]; rfl, ?_, hafter⟩
        exact List.forall_mem_cons.mpr ⟨Nat.le_trans hle hx, hbefore⟩
      · obtain ⟨b, hb, hlatest⟩ := ih c
        have hc : c.sequence ≤ b.sequence := hlatest.number_le List.mem_cons_self
        obtain ⟨before, after, hss, hbefore, hafter⟩ := hlatest
        rw [if_neg hle]
        -- The smaller snapshot stands behind `c`, which may be the latest one itself.
        cases before with
        | nil =>
            obtain ⟨rfl, rfl⟩ := List.cons.inj hss
            refine ⟨c, hb, [], x :: ss, rfl, by simp, ?_⟩
            exact List.forall_mem_cons.mpr ⟨Nat.not_le.mp hle, hafter⟩
        | cons d before =>
            obtain ⟨rfl, rfl⟩ := List.cons.inj hss
            obtain ⟨-, hbefore⟩ := List.forall_mem_cons.mp hbefore
            refine ⟨b, hb, c :: x :: before, after, rfl, ?_, hafter⟩
            exact List.forall_mem_cons.mpr
              ⟨hc, List.forall_mem_cons.mpr ⟨by omega, hbefore⟩⟩

/-- Loading finds the latest snapshot and nothing else. -/
theorem latestSnapshot_eq_some_iff (s : Stream) :
    s.latestSnapshot = some b ↔ IsLatest Snapshot.sequence b s.snapshots := by
  rw [latestSnapshot]
  constructor
  · intro h
    cases hss : s.snapshots with
    | nil =>
        rw [hss] at h
        cases h
    | cons c ss =>
        rw [hss] at h
        obtain ⟨d, hd, hlatest⟩ := exists_foldl_later c ss
        obtain rfl : d = b := Option.some.inj (hd.symm.trans h)
        exact hlatest
  · rintro ⟨before, after, hss, hbefore, hafter⟩
    rw [hss, List.foldl_append, List.foldl_cons]
    have hb : later (before.foldl later none) b = some b := by
      cases before with
      | nil => rfl
      | cons c before =>
          obtain ⟨d, hd, hlatest⟩ := exists_foldl_later c before
          obtain ⟨pre, post, hsplit, -, -⟩ := hlatest
          have hle : d.sequence ≤ b.sequence := hbefore d (hsplit ▸ by simp)
          rw [List.foldl_cons, later, hd, later, if_pos hle]
    rw [hb]
    exact foldl_later_of_lt hafter

theorem latestSnapshot_eq_none_iff (s : Stream) : s.latestSnapshot = none ↔ s.snapshots = [] := by
  rw [latestSnapshot]
  cases s.snapshots with
  | nil => simp
  | cons c ss =>
      obtain ⟨b, hb, -⟩ := exists_foldl_later c ss
      rw [List.foldl_cons, later, hb]
      simp

/-! ## The events behind a number -/

/-- Of events that are numbered from `a + 1` on, those behind `a + k` are left when `k` are
dropped. -/
theorem filter_sequence_eq_drop {es : List RecordedEvent} {a : Nat}
    (h : es.map RecordedEvent.sequence = List.range' (a + 1) es.length) (k : Nat) :
    es.filter (fun e => decide (a + k < e.sequence)) = es.drop k := by
  induction es generalizing a k with
  | nil => simp
  | cons e es ih =>
      cases k with
      | zero =>
          rw [List.drop_zero, List.filter_eq_self]
          intro x hx
          have hmem := List.mem_map_of_mem (f := RecordedEvent.sequence) hx
          rw [h, List.mem_range'_1] at hmem
          exact decide_eq_true (by omega)
      | succ k =>
          rw [List.map_cons, List.length_cons, List.range'_succ] at h
          obtain ⟨he, hes⟩ := List.cons.inj h
          have hskip : ¬ a + (k + 1) < e.sequence := by omega
          have hrest := ih hes k
          rw [Nat.add_right_comm] at hrest
          rw [List.filter_cons_of_neg (by simpa using hskip), List.drop_succ_cons, ← hrest]
          rfl

end Stream

/-- The number of the snapshot that a load shows, zero if it shows none. -/
def LoadAnswer.snapshotSequence (a : LoadAnswer) : Nat :=
  (a.snapshot.map Snapshot.sequence).getD 0

namespace Stream

variable {s : Stream} {es : List SubmittedEvent} (key : StreamKey)

/-- No snapshot is ahead of the one that a load shows. -/
theorem snapshotSequence_load_le_iff (s : Stream) (n : Nat) :
    (s.load key).snapshotSequence ≤ n ↔ ∀ x ∈ s.snapshots, x.sequence ≤ n := by
  rw [LoadAnswer.snapshotSequence, load]
  cases hlatest : s.latestSnapshot with
  | none => simp [(latestSnapshot_eq_none_iff s).mp hlatest]
  | some b =>
      have hb := (latestSnapshot_eq_some_iff s).mp hlatest
      constructor
      · exact fun hn x hx => Nat.le_trans (hb.number_le hx) hn
      · obtain ⟨before, after, hss, -, -⟩ := hb
        exact fun hall => hall b (hss ▸ by simp)

/-- A load shows the events that are left when those up to its snapshot are dropped. -/
theorem Records.events_load (h : s.Records es) :
    (s.load key).events = s.events.drop (s.load key).snapshotSequence := by
  have hdrop := filter_sequence_eq_drop (a := 0) h.sequences (s.load key).snapshotSequence
  rwa [Nat.zero_add] at hdrop

/-- The events that a load shows are numbered from its snapshot on. -/
theorem Records.sequences_load (h : s.Records es) :
    (s.load key).events.map RecordedEvent.sequence =
      List.range' ((s.load key).snapshotSequence + 1)
        (s.events.length - (s.load key).snapshotSequence) := by
  rw [h.events_load, List.map_drop, h.sequences, List.drop_range', Nat.mul_one, Nat.add_comm 1]

/-- The last number that a load knows of is that of the last event, unless its snapshot is ahead. -/
theorem Records.lastSequence_load (h : s.Records es) :
    (s.load key).lastSequence = max s.events.length (s.load key).snapshotSequence := by
  have hlast := congrArg List.getLast? (h.sequences_load key)
  rw [List.getLast?_map, List.getLast?_range'] at hlast
  rw [LoadAnswer.lastSequence]
  cases he : (s.load key).events.getLast? with
  | some e =>
      rw [he, Option.map_some] at hlast
      split at hlast
      · cases hlast
      · have hsequence := Option.some.inj hlast
        simp only [hsequence]
        omega
  | none =>
      rw [he, Option.map_none] at hlast
      split at hlast
      · -- There are no events behind the snapshot.
        have hbehind : s.events.length ≤ (s.load key).snapshotSequence := by omega
        rw [Nat.max_eq_right hbehind, LoadAnswer.snapshotSequence]
        cases (s.load key).snapshot <;> rfl
      · cases hlast

/-- A load shows something exactly if there is something in the stream. -/
theorem Records.isEmpty_load (h : s.Records es) :
    (s.load key).isEmpty = true ↔ s.events = [] ∧ s.snapshots = [] := by
  rw [LoadAnswer.isEmpty, Bool.and_eq_true, Option.isNone_iff_eq_none, List.isEmpty_iff,
    ← latestSnapshot_eq_none_iff, and_comm]
  refine and_congr_left fun hnone => ?_
  -- Without a snapshot no event is left out.
  have hnumber : (s.load key).snapshotSequence = 0 := by
    rw [LoadAnswer.snapshotSequence, hnone]
    rfl
  rw [h.events_load, hnumber, List.drop_zero]

/-- A request adds the snapshots that it saves to those of the stream. -/
theorem contents_snapshots_after (s : Stream) (r : StreamRequest) :
    (s.after r).snapshots.map Snapshot.content =
      s.snapshots.map Snapshot.content ++ r.saved.map SnapshotRequest.content := by
  unfold after StreamRequest.saved
  cases r.stream.validate with
  | error e => exact (List.append_nil _).symm
  | ok _ =>
      cases r with
      | append now a => exact (List.append_nil _).symm
      | load a => exact (List.append_nil _).symm
      | saveSnapshot a => exact List.map_append

/-- A stream shows the latest of the snapshots that were saved in it. -/
theorem content_latestSnapshot_iff {s : Stream} {rs : List SnapshotRequest}
    (h : s.snapshots.map Snapshot.content = rs.map SnapshotRequest.content)
    (content : Json × String × Members String × Nat) :
    s.latestSnapshot.map Snapshot.content = some content ↔
      ∃ r, IsLatest SnapshotRequest.sequence r rs ∧ r.content = content := by
  -- Both lists number their elements by the last part of the content.
  let number (c : Json × String × Members String × Nat) : Nat := c.2.2.2
  have hsaved : IsLatest number content (rs.map SnapshotRequest.content) ↔
      ∃ r, IsLatest SnapshotRequest.sequence r rs ∧ r.content = content :=
    isLatest_map_iff
  rw [← h, isLatest_map_iff] at hsaved
  rw [Option.map_eq_some_iff]
  simp only [latestSnapshot_eq_some_iff]
  exact hsaved

end Stream

namespace Journal

/-! ## Loads after a run -/

/-- The snapshots that requests save in a stream. -/
def saved (key : StreamKey) (rs : List StreamRequest) : List SnapshotRequest :=
  (rs.filter fun r => r.stream = key).flatMap StreamRequest.saved

theorem saved_cons (key : StreamKey) (r : StreamRequest) (rs : List StreamRequest) :
    saved key (r :: rs) = (if r.stream = key then r.saved else []) ++ saved key rs :=
  flatMap_requests_cons StreamRequest.saved key r rs

/-- The snapshots of a stream are those that were there and those that the run saves. -/
theorem contents_snapshots_runAll (rs : List StreamRequest) (j : Journal) (key : StreamKey) :
    ((store.runAll j rs).2.stream key).snapshots.map Snapshot.content =
      (j.stream key).snapshots.map Snapshot.content ++
        (saved key rs).map SnapshotRequest.content := by
  induction rs generalizing j with
  | nil => exact (List.append_nil _).symm
  | cons r rs ih =>
      rw [runAll_cons, ih, stream_run, saved_cons, List.map_append]
      by_cases hkey : key = r.stream
      · rw [if_pos hkey, if_pos hkey.symm, Stream.contents_snapshots_after, List.append_assoc]
      · rw [if_neg hkey, if_neg (Ne.symm hkey)]
        rfl

theorem contents_snapshots_finalStream (rs : List StreamRequest) (key : StreamKey) :
    (finalStream rs key).snapshots.map Snapshot.content =
      (saved key rs).map SnapshotRequest.content :=
  contents_snapshots_runAll rs empty key

theorem snapshots_finalStream_eq_nil_iff (rs : List StreamRequest) (key : StreamKey) :
    (finalStream rs key).snapshots = [] ↔ saved key rs = [] := by
  rw [← List.map_eq_nil_iff (f := Snapshot.content), contents_snapshots_finalStream,
    List.map_eq_nil_iff]

/-- A load of a stream with a key that is in order shows the stream and changes nothing. -/
theorem run_load {key : StreamKey} (hkey : key.Valid) (j : Journal) :
    store.run (.load ⟨key⟩) j = (.ok (.loaded ((j.stream key).load key)), j) := by
  have hvalid : (StreamRequest.load ⟨key⟩).stream.validate = .ok () :=
    StreamKey.validate_eq_ok_iff.mpr hkey
  rw [run_of_validate_eq_ok hvalid, Stream.answer, hvalid]
  rfl

/-- After any run on a new journal, a load of a stream with a key that is in order shows the latest
of the snapshots that clients saved, as they saved it, and exactly the events behind its number, in
order. The last number that it knows of is that of the last event or of the snapshot, whichever is
greater, and it is empty exactly if nothing was stored in the stream. -/
theorem load_after_run (rs : List StreamRequest) {key : StreamKey} (hkey : key.Valid) :
    let j := (store.runAll empty rs).2
    let stored := (finalStream rs key).events
    ∃ a, store.run (.load ⟨key⟩) j = (.ok (.loaded a), j) ∧ a.stream = key ∧
      stored.map RecordedEvent.content = (submitted key rs).map SubmittedEvent.content ∧
      stored.map RecordedEvent.sequence = List.range' 1 stored.length ∧
      (∀ content, a.snapshot.map Snapshot.content = some content ↔
        ∃ r, Stream.IsLatest SnapshotRequest.sequence r (saved key rs) ∧ r.content = content) ∧
      (a.snapshot = none ↔ saved key rs = []) ∧
      a.events = stored.drop a.snapshotSequence ∧
      a.events.map RecordedEvent.sequence =
        List.range' (a.snapshotSequence + 1) (stored.length - a.snapshotSequence) ∧
      a.lastSequence = max stored.length a.snapshotSequence ∧
      (a.isEmpty = true ↔ stored = [] ∧ saved key rs = []) := by
  intro j stored
  have hrecords := records_finalStream rs key
  rw [← snapshots_finalStream_eq_nil_iff]
  exact ⟨(finalStream rs key).load key, run_load hkey j, rfl, hrecords.contents,
    hrecords.sequences,
    Stream.content_latestSnapshot_iff (contents_snapshots_finalStream rs key),
    Stream.latestSnapshot_eq_none_iff _, hrecords.events_load key, hrecords.sequences_load key,
    hrecords.lastSequence_load key, hrecords.isEmpty_load key⟩

/-- Of two snapshots with the same number the one that was saved last is shown, with the state, the
version and the metadata that it was saved with, also if one with a smaller number is saved behind
them. -/
theorem load_after_run_tie :
    let now : Instant := ⟨⟨2026, 1, 15⟩, 10, 0, 0, 0⟩
    let key : StreamKey := ⟨"acme", "o1", "order"⟩
    let event (id : String) : SubmittedEvent := .ofData id "OrderPlaced" .null
    let state (name : String) : Json := .object [("state", .string name)]
    let paid : SnapshotRequest := ⟨key, state "paid", "v2", [("by", "alice")], 2⟩
    let rs : List StreamRequest :=
      [.append now ⟨key, [event "e1", event "e2", event "e3"]⟩,
        .saveSnapshot ⟨key, state "placed", "v1", [], 2⟩, .saveSnapshot paid,
        .saveSnapshot ⟨key, state "new", "v3", [], 1⟩]
    key.Valid ∧
      ∃ a, store.run (.load ⟨key⟩) (store.runAll empty rs).2 =
          (.ok (.loaded a), (store.runAll empty rs).2) ∧
        a.snapshot = some ⟨state "paid", "v2", 2, [("by", "alice")]⟩ ∧
        a.events.map RecordedEvent.sequence = [3] ∧ a.lastSequence = 3 ∧ a.isEmpty = false := by
  intro now key event state paid rs
  have hkey : key.Valid := ⟨by decide, by decide, by decide⟩
  have hlength : (finalStream rs key).events.length = 3 := by decide +kernel
  have hlatest : Stream.IsLatest SnapshotRequest.sequence paid (saved key rs) :=
    ⟨[⟨key, state "placed", "v1", [], 2⟩], [⟨key, state "new", "v3", [], 1⟩],
      by decide +kernel, by simp [paid], by simp [paid]⟩
  obtain ⟨a, hrun, -, -, -, hsnapshot, -, -, hsequences, hlast, hempty⟩ := load_after_run rs hkey
  obtain ⟨b, hb, hcontent⟩ := Option.map_eq_some_iff.mp ((hsnapshot _).mpr ⟨paid, hlatest, rfl⟩)
  have ha : a.snapshot = some ⟨state "paid", "v2", 2, [("by", "alice")]⟩ := by
    obtain ⟨data, revision, sequence, metadata⟩ := b
    cases hcontent
    exact hb
  have hnumber : a.snapshotSequence = 2 := by
    rw [LoadAnswer.snapshotSequence, ha]
    rfl
  refine ⟨hkey, a, hrun, ha, ?_, ?_, ?_⟩
  · rw [hsequences, hlength, hnumber]
    rfl
  · rw [hlast, hlength, hnumber]
    rfl
  · refine Bool.eq_false_iff.mpr fun h => ?_
    rw [(hempty.mp h).1] at hlength
    exact absurd hlength (by decide)

/-! ## What is seen of an append -/

/-- An append continues the numbers that a load knows of, a load right after it shows the events
that were appended behind all others, and the last number that it knows of is the last one that was
handed out. -/
def Visible (j : Journal) (key : StreamKey) (now : Instant) (es : List SubmittedEvent) : Prop :=
  ∃ before numbers after,
    (store.runAll j [.load ⟨key⟩, .append now ⟨key, es⟩, .load ⟨key⟩]).1 =
      [.ok (.loaded before), .ok (.appended ⟨numbers⟩), .ok (.loaded after)] ∧
    numbers.head? = some (before.lastSequence + 1) ∧
    (∃ appended : List RecordedEvent,
      appended.map RecordedEvent.content = es.map SubmittedEvent.content ∧
        appended.map RecordedEvent.sequence = numbers ∧ appended <:+ after.events) ∧
    numbers.getLast? = some after.lastSequence

/-- What a load, an append and a load are answered one after the other. -/
theorem runAll_load_append_load {key : StreamKey} (hkey : key.Valid) (j : Journal) (now : Instant)
    (es : List SubmittedEvent) :
    (store.runAll j [.load ⟨key⟩, .append now ⟨key, es⟩, .load ⟨key⟩]).1 =
      [.ok (.loaded ((j.stream key).load key)),
        .ok (.appended ⟨((j.stream key).arriving now es).map RecordedEvent.sequence⟩),
        .ok (.loaded (((j.stream key).append now es).load key))] := by
  have hvalid : (StreamRequest.append now ⟨key, es⟩).stream.validate = .ok () :=
    StreamKey.validate_eq_ok_iff.mpr hkey
  have hstream : (store.run (.append now ⟨key, es⟩) j).2.stream key =
      (j.stream key).append now es := by
    refine (stream_run _ j key).trans ((if_pos rfl).trans ?_)
    rw [Stream.after, hvalid]
  simp only [runAll_cons, run_load hkey, hstream]
  rw [run_fst, Stream.answer, hvalid]
  rfl

/-- An append is seen by loads exactly if the snapshot that they show is not ahead of the events. -/
theorem visible_iff_snapshotSequence_le {j : Journal} {key : StreamKey} (hkey : key.Valid)
    {old new : List SubmittedEvent} (h : (j.stream key).Records old) (now : Instant)
    (hnew : new ≠ []) :
    Visible j key now new ↔
      ((j.stream key).load key).snapshotSequence ≤ (j.stream key).events.length := by
  have hanswers := runAll_load_append_load hkey j now new
  generalize j.stream key = s at *
  have hlength : (s.arriving now new).length = new.length := Stream.length_record ..
  have hnumbers := h.sequences_arriving now new
  have hcount : 0 < new.length := List.length_pos_iff.mpr hnew
  constructor
  · rintro ⟨before, numbers, after, hall, hfirst, -⟩
    rw [hanswers] at hall
    simp only [List.cons.injEq, Except.ok.injEq, StreamAnswer.loaded.injEq,
      StreamAnswer.appended.injEq, AppendAnswer.mk.injEq, and_true] at hall
    obtain ⟨rfl, rfl, -⟩ := hall
    -- The first number is the one behind the events.
    rw [hnumbers, List.head?_range', if_neg (Nat.ne_of_gt hcount), h.lastSequence_load] at hfirst
    have hmax := Option.some.inj hfirst
    omega
  · intro hle
    have hnext := h.append now new
    refine ⟨_, _, _, hanswers, ?_, ⟨s.arriving now new, Stream.contents_record .., rfl, ?_⟩, ?_⟩
    · rw [hnumbers, List.head?_range', if_neg (Nat.ne_of_gt hcount), h.lastSequence_load,
        Nat.max_eq_left hle]
    · rw [hnext.events_load]
      -- Both loads show the same snapshot.
      show _ <:+ (s.events ++ s.arriving now new).drop (s.load key).snapshotSequence
      rw [List.drop_append_of_le_length hle]
      exact List.suffix_append _ _
    · rw [hnumbers, List.getLast?_range', if_neg (Nat.ne_of_gt hcount), hnext.lastSequence_load]
      show _ = some (max (s.events ++ s.arriving now new).length (s.load key).snapshotSequence)
      rw [List.length_append, hlength]
      congr 1
      omega

/-- After any run on a new journal, an append of events to a stream with a key that is in order is
seen by loads, and its numbers go on from the last one that loads know of, exactly if no snapshot of
the stream has a number beyond the events that are there. -/
theorem visible_iff (rs : List StreamRequest) {key : StreamKey} (hkey : key.Valid) (now : Instant)
    {es : List SubmittedEvent} (hes : es ≠ []) :
    Visible (store.runAll empty rs).2 key now es ↔
      ∀ x ∈ saved key rs, x.sequence ≤ (finalStream rs key).events.length := by
  rw [visible_iff_snapshotSequence_le hkey (records_finalStream rs key) now hes,
    Stream.snapshotSequence_load_le_iff]
  -- Both lists have the same contents, and so the same numbers.
  have hcontents := contents_snapshots_finalStream rs key
  have hnumbers := congrArg (fun cs => ∀ c ∈ cs, c.2.2.2 ≤ (finalStream rs key).events.length)
    hcontents
  simp only [List.forall_mem_map] at hnumbers
  exact iff_of_eq hnumbers

/-- A snapshot of the last event leaves the append behind it visible. -/
theorem visible_iff_last_event :
    let now : Instant := ⟨⟨2026, 1, 15⟩, 10, 0, 0, 0⟩
    let key : StreamKey := ⟨"acme", "o1", "order"⟩
    let event (id : String) : SubmittedEvent := .ofData id "OrderPlaced" .null
    let rs : List StreamRequest :=
      [.append now ⟨key, [event "e1", event "e2"]⟩, .saveSnapshot ⟨key, .null, "r2", [], 2⟩]
    key.Valid ∧ [event "e3"] ≠ [] ∧ Visible (store.runAll empty rs).2 key now [event "e3"] := by
  intro now key event rs
  have hkey : key.Valid := ⟨by decide, by decide, by decide⟩
  have hes : [event "e3"] ≠ [] := List.cons_ne_nil _ _
  exact ⟨hkey, hes, (visible_iff rs hkey now hes).mpr (by decide +kernel)⟩

/-- Behind a snapshot with a number of its own choice, an append starts from one although loads know
of seven, and no load shows what was appended. -/
theorem not_visible_behind_snapshot :
    let now : Instant := ⟨⟨2026, 1, 15⟩, 10, 0, 0, 0⟩
    let key : StreamKey := ⟨"acme", "o1", "order"⟩
    let placed : SubmittedEvent := .ofData "e1" "OrderPlaced" .null
    let j := (store.runAll empty [.saveSnapshot ⟨key, .null, "r7", [], 7⟩]).2
    let shown : LoadAnswer := ⟨key, some ⟨.null, "r7", 7, []⟩, []⟩
    key.Valid ∧
      (store.runAll j [.load ⟨key⟩, .append now ⟨key, [placed]⟩, .load ⟨key⟩]).1 =
        [.ok (.loaded shown), .ok (.appended ⟨[1]⟩), .ok (.loaded shown)] ∧
      shown.lastSequence = 7 ∧ ¬ Visible j key now [placed] := by
  intro now key placed j shown
  have hkey : key.Valid := ⟨by decide, by decide, by decide⟩
  have hbefore : (j.stream key).load key = shown := by decide +kernel
  have hafter : ((j.stream key).append now [placed]).load key = shown := by decide +kernel
  have hnumbers : ((j.stream key).arriving now [placed]).map RecordedEvent.sequence = [1] := by
    decide +kernel
  have hanswers := runAll_load_append_load hkey j now [placed]
  rw [hbefore, hafter, hnumbers] at hanswers
  refine ⟨hkey, hanswers, rfl, ?_⟩
  rintro ⟨before, numbers, after, hall, hfirst, -⟩
  rw [hanswers] at hall
  simp only [List.cons.injEq, Except.ok.injEq, StreamAnswer.loaded.injEq,
    StreamAnswer.appended.injEq, AppendAnswer.mk.injEq, and_true] at hall
  obtain ⟨rfl, rfl, -⟩ := hall
  exact absurd hfirst (by decide)

end Journal
end TenantStore
