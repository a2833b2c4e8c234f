import TenantStore.Proofs.Instant
import TenantStore.Proofs.Json.Parts
import TenantStore.Stream.Contract

/-!
# Contracts

A type of a contract is written as JSON and read from it, and its schema says how the JSON value
looks (`Contract`). What is written is in full form, and what is read fits: its numbers are of 64
bits and its times are instants. So a value survives being written and read, what was read once is
not changed by being written and read again, and members of unknown names never matter
(`Contract.Survives`). `contracts_survive` says so of every type.

A type with a stream's key among its members is read in two passes over one object, one for the
members of the key and one for its own; each finds its own members only
(`StreamKey.withMembers_ofMembers`).
-/

namespace TenantStore

/-! ## Instants as members -/

namespace Instant

theorem ofMember_eq {ms : Members Json} {name : String} {t : Instant} (ht : t.Valid)
    (h : Members.get? ms name = some t.toJson) : ofMember ms name = t := by
  have htext : Json.textAt ms name = t.text := by
    rw [Json.textAt, h]
    rfl
  rw [ofMember, htext, read_text ht]

/-- A member that conforms is an instant. -/
theorem valid_ofMember {ms : Members Json} {name : String} {v w : Json}
    (hv : Instant.schema.conform v = .ok w) (h : Members.get? ms name = some w) :
    (ofMember ms name).Valid := by
  cases v with
  | string s =>
      rw [Instant.schema, Schema.conform] at hv
      cases hread : read s with
      | error flaw =>
          rw [hread] at hv
          cases hv
      | ok t =>
          rw [hread] at hv
          cases hv
          have htext : Json.textAt ms name = s := by
            rw [Json.textAt, h]
            rfl
          rw [ofMember, htext, hread]
          exact valid_of_read hread
  | null | bool _ | number _ | array _ | object _ => simp [Instant.schema, Schema.conform] at hv

theorem conform_toJson {t : Instant} (h : t.Valid) : schema.conform t.toJson = .ok t.toJson := by
  rw [schema, toJson, Schema.conform, read_text h]

end Instant

/-! ## Keys among other members -/

open Schema (Full Fills Widens conform_string conform_any conform_texts conform_natural
  conform_integer conform_list conform_ofMembers conformMembers_ofList schemaOf?_of_subset)

theorem StreamKey.full_members (key : StreamKey) : Full fields key.members :=
  .cons ⟨rfl, conform_string _⟩ (.cons ⟨rfl, conform_string _⟩ (.cons ⟨rfl, conform_string _⟩ .nil))

/-- Two passes read a key and the other members of an object that has both, and neither takes
anything of the other. -/
theorem StreamKey.withMembers_ofMembers {own : Schema.Fields} {pairs : List (String × Json)}
    (hfull : Full own pairs) (hnodup : ((fields ++ own).map Prod.fst).Nodup) (key : StreamKey)
    (name : String) :
    withMembers name own (Json.ofMembers (key.members ++ pairs)) =
      .ok (key, Members.ofList pairs) := by
  have hkey := key.full_members
  have hnames : ((key.members ++ pairs).map Prod.fst).Nodup := by
    rw [List.map_append, hkey.fills.map_fst, hfull.fills.map_fst, ← List.map_append]
    exact hnodup
  rw [Json.ofMembers, withMembers,
    conformMembers_ofList hfull (List.subset_append_right _ _) hnames,
    conformMembers_ofList hkey (List.subset_append_left _ _) hnames]
  rfl

/-- Neither of the passes reads members of unknown names. -/
theorem StreamKey.withMembers_widens {name : String} {own : Schema.Fields}
    (hnodup : ((fields ++ own).map Prod.fst).Nodup) {v w : Json} {answer : StreamKey × Members Json}
    (hv : withMembers name own v = .ok answer) (h : Widens (.record name (fields ++ own)) v w) :
    withMembers name own w = .ok answer := by
  cases v with
  | object ms =>
      obtain ⟨ns, rfl, hns⟩ := h.conformMembers
      obtain ⟨read, hread, hv⟩ := exists_of_bind_eq_ok hv
      obtain ⟨key, hkey, hv⟩ := exists_of_bind_eq_ok hv
      have hown : own ⊆ fields ++ own := List.subset_append_right _ _
      have hfields : fields ⊆ fields ++ own := List.subset_append_left _ _
      rw [withMembers, hns own (fun _ _ => schemaOf?_of_subset hnodup hown) read hread,
        hns fields (fun _ _ => schemaOf?_of_subset hnodup hfields) key hkey]
      exact hv
  | null | bool _ | number _ | string _ | array _ => cases hv

theorem StreamKey.exists_fills_of_withMembers {name : String} {own : Schema.Fields}
    (hnodup : (own.map Prod.fst).Nodup) {v : Json} {key : StreamKey} {ms : Members Json}
    (h : withMembers name own v = .ok (key, ms)) :
    ∃ pairs, Fills own pairs ∧ ms = Members.ofList pairs := by
  cases v with
  | object ns =>
      obtain ⟨full, hfull, h⟩ := exists_of_bind_eq_ok h
      obtain ⟨_, -, h⟩ := exists_of_bind_eq_ok h
      cases h
      exact Schema.exists_fills_of_conformMembers hnodup hfull
  | null | bool _ | number _ | string _ | array _ => cases h

/-! ## Contracts -/

/-- A type that is written as JSON and read from it. -/
class Contract (α : Type) where
  schema : Schema
  toJson : α → Json
  ofJson : Json → Except DecodeError α
  /-- The numbers are of 64 bits and the times are instants. -/
  Fits : α → Prop

namespace Contract

/-- What is written is read again. -/
structure Survives (α : Type) [Contract α] : Prop where
  /-- What is written is in full form. -/
  conform_toJson : ∀ x : α, Fits x → (schema α).conform (toJson x) = .ok (toJson x)
  /-- What is written reads as the value. -/
  ofJson_toJson : ∀ x : α, Fits x → ofJson (toJson x) = .ok x
  /-- What was read fits, and it reads again from what it is written as. -/
  ofJson_toJson_of_ofJson : ∀ (v : Json) (x : α), ofJson v = .ok x →
    Fits x ∧ ofJson (toJson x) = .ok x
  /-- Members of unknown names do not change what is read. -/
  ofJson_of_widens : ∀ (v w : Json) (x : α), ofJson v = .ok x → (schema α).Widens v w →
    ofJson w = .ok x

variable {α : Type} [Contract α]

theorem Survives.of
    (hfull : ∀ x : α, Fits x → (schema α).conform (toJson x) = .ok (toJson x))
    (hread : ∀ x : α, Fits x → ofJson (toJson x) = .ok x)
    (hfits : ∀ (v : Json) (x : α), ofJson v = .ok x → Fits x)
    (hwidens : ∀ (v w : Json) (x : α), ofJson v = .ok x → (schema α).Widens v w →
      ofJson w = .ok x) : Survives α where
  conform_toJson := hfull
  ofJson_toJson := hread
  ofJson_toJson_of_ofJson v x h := ⟨hfits v x h, hread x (hfits v x h)⟩
  ofJson_of_widens := hwidens

/-- A type survives if it is made of the members that its schema reads. -/
theorem Survives.of_members (make : Members Json → α)
    (hofJson : ∀ v, (ofJson v : Except DecodeError α) =
      (schema α).conform v >>= fun u => pure (make (u.members?.getD [])))
    (hfull : ∀ x : α, Fits x → (schema α).conform (toJson x) = .ok (toJson x))
    (hmake : ∀ x : α, Fits x → make ((toJson x).members?.getD []) = x)
    (hfits : ∀ v u, (schema α).conform v = .ok u → Fits (make (u.members?.getD []))) :
    Survives α := by
  refine .of hfull (fun x hx => ?_) (fun v x hx => ?_) fun v w x hx hw => ?_
  · rw [hofJson, hfull x hx]
    exact congrArg Except.ok (hmake x hx)
  · rw [hofJson] at hx
    obtain ⟨u, hu, hx⟩ := exists_of_bind_eq_ok hx
    cases hx
    exact hfits v u hu
  · rw [hofJson] at hx ⊢
    obtain ⟨u, hu, hx⟩ := exists_of_bind_eq_ok hx
    rw [hw.conform hu]
    exact hx

/-- A type with a key among its members survives if it is made of the key and of the members that
its own contract reads. -/
theorem Survives.of_key {name : String} {own : Schema.Fields} (key : α → StreamKey)
    (pairs : α → List (String × Json)) (make : StreamKey → Members Json → α)
    (hnodup : ((StreamKey.fields ++ own).map Prod.fst).Nodup)
    (hschema : schema α = .record name (StreamKey.fields ++ own))
    (htoJson : ∀ x : α, toJson x = Json.ofMembers ((key x).members ++ pairs x))
    (hofJson : ∀ v, ofJson v =
      StreamKey.withMembers name own v >>= fun answer => pure (make answer.1 answer.2))
    (hfull : ∀ x, Fits x → Full own (pairs x))
    (hmake : ∀ x, Fits x → make (key x) (Members.ofList (pairs x)) = x)
    (hfits : ∀ k ps, Fills own ps → Fits (make k (Members.ofList ps))) : Survives α := by
  have hown : (own.map Prod.fst).Nodup := by
    rw [List.map_append] at hnodup
    exact hnodup.of_append_right
  refine .of (fun x hx => ?_) (fun x hx => ?_) (fun v x hx => ?_) fun v w x hx hw => ?_
  · rw [hschema, htoJson]
    exact conform_ofMembers (List.rel_append (key x).full_members (hfull x hx)) hnodup name
  · rw [htoJson, hofJson, StreamKey.withMembers_ofMembers (hfull x hx) hnodup (key x)]
    exact congrArg Except.ok (hmake x hx)
  · rw [hofJson] at hx
    obtain ⟨⟨k, ms⟩, hread, hx⟩ := exists_of_bind_eq_ok hx
    cases hx
    obtain ⟨ps, hps, rfl⟩ := StreamKey.exists_fills_of_withMembers hown hread
    exact hfits k ps hps
  · rw [hschema] at hw
    rw [hofJson] at hx ⊢
    obtain ⟨answer, hread, hx⟩ := exists_of_bind_eq_ok hx
    rw [StreamKey.withMembers_widens hnodup hread hw]
    exact hx

end Contract

/-! ## Events and snapshots -/

namespace SubmittedEvent

instance : Contract SubmittedEvent := ⟨schema, toJson, ofJson, fun _ => True⟩

theorem conform_toJson (e : SubmittedEvent) : schema.conform e.toJson = .ok e.toJson := by
  refine conform_ofMembers ?_ (by decide) _
  exact .cons ⟨rfl, conform_string _⟩ (.cons ⟨rfl, conform_string _⟩ (.cons ⟨rfl, conform_any _⟩
    (.cons ⟨rfl, conform_string _⟩ (.cons ⟨rfl, conform_string _⟩ (.cons ⟨rfl, conform_texts _⟩
      (.cons ⟨rfl, conform_string _⟩ (.cons ⟨rfl, conform_string _⟩ .nil)))))))

theorem ofMembers_toJson (e : SubmittedEvent) : ofMembers (e.toJson.members?.getD []) = e := by
  have hmetadata : Json.textsAt (e.toJson.members?.getD []) "metadata" = e.metadata :=
    Json.textsAt_eq rfl
  rw [ofMembers, hmetadata]
  rfl

theorem survives : Contract.Survives SubmittedEvent :=
  .of_members ofMembers (fun _ => rfl) (fun e _ => e.conform_toJson) (fun e _ => e.ofMembers_toJson)
    fun _ _ _ => trivial

end SubmittedEvent

namespace RecordedEvent

instance : Contract RecordedEvent :=
  ⟨schema, toJson, ofJson, fun e => IsUnsigned e.sequence ∧ e.occurredAt.Valid⟩

theorem conform_toJson {e : RecordedEvent} (h : Contract.Fits e) :
    schema.conform e.toJson = .ok e.toJson := by
  refine conform_ofMembers ?_ (by decide) _
  exact .cons ⟨rfl, conform_string _⟩ (.cons ⟨rfl, conform_any _⟩ (.cons ⟨rfl, conform_string _⟩
    (.cons ⟨rfl, conform_string _⟩ (.cons ⟨rfl, conform_natural h.1⟩
      (.cons ⟨rfl, Instant.conform_toJson h.2⟩ .nil)))))

theorem ofMembers_toJson {e : RecordedEvent} (h : Contract.Fits e) :
    ofMembers (e.toJson.members?.getD []) = e := by
  have hsequence : Json.naturalAt (e.toJson.members?.getD []) "sequenceNumber" = e.sequence :=
    Json.naturalAt_eq h.1 rfl
  have htime : Instant.ofMember (e.toJson.members?.getD []) "occurredAt" = e.occurredAt :=
    Instant.ofMember_eq h.2 rfl
  rw [ofMembers, hsequence, htime]
  rfl

theorem fits_of_conform {v u : Json} (h : schema.conform v = .ok u) :
    Contract.Fits (ofMembers (u.members?.getD [])) := by
  obtain ⟨pairs, hpairs, rfl⟩ := Schema.exists_fills_of_conform (by decide) h
  -- the time has no default, so it is one that was read
  obtain ⟨v, w, hv, hw⟩ : ∃ v w, Instant.schema.conform v = .ok w ∧
      Members.get? (Members.ofList pairs) "occurredAt" = some w :=
    hpairs.exists_get? (by decide) (by simp [Schema.required])
  exact ⟨Json.isUnsigned_naturalAt _ _, Instant.valid_ofMember hv hw⟩

theorem survives : Contract.Survives RecordedEvent :=
  .of_members ofMembers (fun _ => rfl) (fun _ => conform_toJson) (fun _ => ofMembers_toJson)
    fun _ _ => fits_of_conform

end RecordedEvent

namespace Snapshot

instance : Contract Snapshot := ⟨schema, toJson, ofJson, fun s => IsUnsigned s.sequence⟩

theorem conform_toJson {s : Snapshot} (h : Contract.Fits s) :
    schema.conform s.toJson = .ok s.toJson := by
  refine conform_ofMembers ?_ (by decide) _
  exact .cons ⟨rfl, conform_any _⟩ (.cons ⟨rfl, conform_string _⟩ (.cons ⟨rfl, conform_natural h⟩
    (.cons ⟨rfl, conform_texts _⟩ .nil)))

theorem ofMembers_toJson {s : Snapshot} (h : Contract.Fits s) :
    ofMembers (s.toJson.members?.getD []) = s := by
  have hsequence : Json.naturalAt (s.toJson.members?.getD []) "sequenceNumber" = s.sequence :=
    Json.naturalAt_eq h rfl
  have hmetadata : Json.textsAt (s.toJson.members?.getD []) "metadata" = s.metadata :=
    Json.textsAt_eq rfl
  rw [ofMembers, hsequence, hmetadata]
  rfl

theorem fits_ofMembers (ms : Members Json) : Contract.Fits (ofMembers ms) :=
  Json.isUnsigned_naturalAt _ _

theorem survives : Contract.Survives Snapshot :=
  .of_members ofMembers (fun _ => rfl) (fun _ => conform_toJson) (fun _ => ofMembers_toJson)
    fun _ _ _ => fits_ofMembers _

end Snapshot

/-! ## Keys, requests and answers -/

namespace StreamKey

instance : Contract StreamKey := ⟨schema, toJson, ofJson, fun _ => True⟩

theorem survives : Contract.Survives StreamKey :=
  .of_members ofMembers (fun _ => rfl)
    (fun k _ => conform_ofMembers k.full_members (by decide) _)
    (fun _ _ => rfl) fun _ _ _ => trivial

end StreamKey

namespace AppendRequest

instance : Contract AppendRequest :=
  ⟨.record "AppendEventsRequest" (StreamKey.fields ++ fields), toJson, ofJson, fun _ => True⟩

theorem survives : Contract.Survives AppendRequest := by
  refine .of_key stream (fun r => [("events", .array (r.events.map SubmittedEvent.toJson))])
    (fun k ms => ⟨k, (Json.itemsAt ms "events").map fun e => .ofMembers (e.members?.getD [])⟩)
    (by decide) rfl (fun _ => rfl) (fun _ => rfl) (fun r _ => ?_) (fun r _ => ?_)
    fun _ _ _ => trivial
  · exact .cons ⟨rfl, conform_list fun e _ => e.conform_toJson⟩ .nil
  · exact congrArg (AppendRequest.mk r.stream)
      (Json.map_itemsAt rfl fun e _ => e.ofMembers_toJson)

end AppendRequest

namespace AppendAnswer

instance : Contract AppendAnswer :=
  ⟨schema, toJson, ofJson, fun a => ∀ n ∈ a.sequences, IsUnsigned n⟩

theorem survives : Contract.Survives AppendAnswer := by
  refine .of_members
    (fun ms => ⟨(Json.itemsAt ms "sequenceNumbers").map fun n => n.natural?.getD 0⟩)
    (fun _ => rfl) (fun a ha => ?_) (fun a ha => ?_) fun v u _ n hn => ?_
  · refine conform_ofMembers ?_ (by decide) _
    exact .cons ⟨rfl, conform_list fun n hn => conform_natural (ha n hn)⟩ .nil
  · refine congrArg AppendAnswer.mk (Json.map_itemsAt rfl fun n hn => ?_)
    rw [Json.natural?_ofNat (ha n hn)]
    rfl
  · obtain ⟨w, -, rfl⟩ := List.mem_map.mp hn
    cases hw : w.natural? with
    | none => decide
    | some n => exact Json.isUnsigned_of_natural? hw

end AppendAnswer

namespace LoadRequest

instance : Contract LoadRequest :=
  ⟨.record "LoadEventsRequest" (StreamKey.fields ++ []), toJson, ofJson, fun _ => True⟩

theorem survives : Contract.Survives LoadRequest :=
  .of_key stream (fun _ => []) (fun k _ => ⟨k⟩) (by decide) rfl (fun _ => rfl) (fun _ => rfl)
    (fun _ _ => .nil) (fun _ _ => rfl) fun _ _ _ => trivial

end LoadRequest

namespace LoadAnswer

instance : Contract LoadAnswer :=
  ⟨.record "LoadEventsResponse" (StreamKey.fields ++ fields), toJson, ofJson,
    fun a => (∀ s ∈ a.snapshot, Contract.Fits s) ∧ ∀ e ∈ a.events, Contract.Fits e⟩

theorem survives : Contract.Survives LoadAnswer := by
  refine .of_key stream
    (fun a => [("snapshot", Json.ofOption Snapshot.toJson a.snapshot),
      ("events", .array (a.events.map RecordedEvent.toJson))])
    (fun k ms => {
      stream := k
      snapshot := (Json.valueAt ms "snapshot").members?.map Snapshot.ofMembers
      events := (Json.itemsAt ms "events").map fun e => .ofMembers (e.members?.getD []) })
    (by decide) rfl (fun _ => rfl) (fun _ => rfl) (fun a ha => ?_) (fun a ha => ?_)
    fun k ps hps => ⟨fun s hs => ?_, fun e he => ?_⟩
  · refine .cons ⟨rfl, ?_⟩
      (.cons ⟨rfl, conform_list fun e he => RecordedEvent.conform_toJson (ha.2 e he)⟩ .nil)
    cases hsnapshot : a.snapshot with
    | none => rfl
    | some s =>
        have hvalue : s.toJson ≠ .null := nofun
        exact (Schema.conform_optional hvalue).trans (Snapshot.conform_toJson (ha.1 s hsnapshot))
  · have hsnapshot : (Json.ofOption Snapshot.toJson a.snapshot).members?.map Snapshot.ofMembers =
        a.snapshot := by
      cases hs : a.snapshot with
      | none => rfl
      | some s => exact congrArg some (Snapshot.ofMembers_toJson (ha.1 s hs))
    exact congrArg₂ (LoadAnswer.mk a.stream) hsnapshot
      (Json.map_itemsAt rfl fun e he => RecordedEvent.ofMembers_toJson (ha.2 e he))
  · obtain ⟨ms, -, rfl⟩ := Option.map_eq_some_iff.mp hs
    exact Snapshot.fits_ofMembers ms
  · obtain ⟨x, hx, rfl⟩ := List.mem_map.mp he
    obtain ⟨v, hv⟩ := hps.exists_conform_of_mem_itemsAt (by decide)
      (s := RecordedEvent.schema) (by simp [fields, Schema.required]) hx
    exact RecordedEvent.fits_of_conform hv

end LoadAnswer

namespace SnapshotRequest

instance : Contract SnapshotRequest :=
  ⟨.record "SaveSnapshotRequest" (StreamKey.fields ++ fields), toJson, ofJson,
    fun r => IsUnsigned r.sequence⟩

theorem survives : Contract.Survives SnapshotRequest := by
  refine .of_key stream
    (fun r => [("aggregateData", r.data), ("aggregateVersion", .string r.version),
       ("metadata", Json.ofTexts r.metadata), ("sequenceNumber", Json.ofNat r.sequence)])
    (fun k ms => {
      stream := k
      data := Json.valueAt ms "aggregateData"
      version := Json.textAt ms "aggregateVersion"
      metadata := Json.textsAt ms "metadata"
      sequence := Json.naturalAt ms "sequenceNumber" })
    (by decide) rfl (fun _ => rfl) (fun _ => rfl) (fun r hr => ?_) (fun r hr => ?_)
    fun k ps _ => Json.isUnsigned_naturalAt _ _
  · exact .cons ⟨rfl, conform_any _⟩ (.cons ⟨rfl, conform_string _⟩
      (.cons ⟨rfl, conform_texts _⟩ (.cons ⟨rfl, conform_natural hr⟩ .nil)))
  · rw [Json.textsAt_eq (t := r.metadata) rfl, Json.naturalAt_eq hr rfl]
    rfl

end SnapshotRequest

namespace SnapshotAnswer

instance : Contract SnapshotAnswer := ⟨schema, toJson, ofJson, fun _ => True⟩

theorem survives : Contract.Survives SnapshotAnswer :=
  .of_members (fun _ => {}) (fun _ => rfl) (fun _ _ => conform_ofMembers .nil (by decide) _)
    (fun _ _ => rfl) fun _ _ _ => trivial

end SnapshotAnswer

/-! ## Page queries and tenants -/

namespace PageQuery

instance : Contract PageQuery :=
  ⟨schema, toJson, ofJson, fun q => IsSigned q.page ∧ IsSigned q.size⟩

theorem survives : Contract.Survives PageQuery := by
  refine .of_members ofMembers (fun _ => rfl) (fun q hq => ?_) (fun q hq => ?_)
    fun v u _ => ⟨Json.isSigned_integerAt _ _, Json.isSigned_integerAt _ _⟩
  · refine conform_ofMembers ?_ (by decide) _
    exact .cons ⟨rfl, conform_string _⟩ (.cons ⟨rfl, conform_string _⟩
      (.cons ⟨rfl, conform_string _⟩ (.cons ⟨rfl, conform_integer hq.1⟩
        (.cons ⟨rfl, conform_integer hq.2⟩ .nil))))
  · rw [ofMembers, Json.integerAt_eq hq.1 rfl, Json.integerAt_eq hq.2 rfl]
    rfl

end PageQuery

namespace Tenant

instance : Contract Tenant := ⟨schema, toJson, ofJson, fun _ => True⟩

theorem conform_toJson (t : Tenant) : schema.conform t.toJson = .ok t.toJson := by
  rw [schema, toJson, Schema.conform, t.named]
  rfl

theorem ofJson_toJson (t : Tenant) : ofJson t.toJson = .ok t := by
  have hname : ofName t.name = .ok t := ofName_eq_ok_iff.mpr rfl
  rw [toJson, ofJson, hname]

/-- Only its own name reads as a tenant. -/
theorem eq_toJson_of_ofJson {v : Json} {t : Tenant} (h : ofJson v = .ok t) : v = t.toJson := by
  cases v with
  | string s =>
      rw [ofJson] at h
      cases hname : ofName s with
      | ok t' =>
          rw [hname] at h
          cases h
          exact congrArg Json.string (ofName_eq_ok_iff.mp hname).symm
      | error e =>
          rw [hname] at h
          cases h
  | null | bool _ | number _ | array _ | object _ => cases h

theorem survives : Contract.Survives Tenant := by
  refine .of (fun t _ => t.conform_toJson) (fun t _ => t.ofJson_toJson) (fun _ _ _ => trivial)
    fun v w t hv hw => ?_
  cases eq_toJson_of_ofJson hv
  cases Schema.eq_of_conform_text (hw.conform t.conform_toJson)
  exact t.ofJson_toJson

end Tenant

/-- What is written of any contract's type is read again. -/
theorem contracts_survive :
    Contract.Survives SubmittedEvent ∧ Contract.Survives RecordedEvent ∧
      Contract.Survives Snapshot ∧ Contract.Survives StreamKey ∧
      Contract.Survives AppendRequest ∧ Contract.Survives AppendAnswer ∧
      Contract.Survives LoadRequest ∧ Contract.Survives LoadAnswer ∧
      Contract.Survives SnapshotRequest ∧ Contract.Survives SnapshotAnswer ∧
      Contract.Survives PageQuery ∧ Contract.Survives Tenant :=
  ⟨SubmittedEvent.survives, RecordedEvent.survives, Snapshot.survives, StreamKey.survives,
    AppendRequest.survives, AppendAnswer.survives, LoadRequest.survives, LoadAnswer.survives,
    SnapshotRequest.survives, SnapshotAnswer.survives, PageQuery.survives, Tenant.survives⟩

/-- An answer with an event of the year 10000, to which a later sender added members. -/
theorem contracts_survive_later_members :
    LoadAnswer.ofJson
        (.object
          [("aggregateId", .string "1"), ("aggregateType", .string "Order"),
           ("events", .array [.object
             [("eventData", .object [("amount", Json.ofNat 5)]), ("eventId", .string "e1"),
              ("eventType", .string "Placed"), ("eventVersion", .string ""),
              ("occurredAt", .string "+10000-01-01T00:00:00Z"), ("sequenceNumber", Json.ofNat 1),
              ("trace", .null)]]),
           ("node", .string "a"), ("snapshot", .null), ("tenantId", .string "t")]) =
      .ok ⟨⟨"t", "1", "Order"⟩, none,
        [⟨"e1", .object [("amount", Json.ofNat 5)], "Placed", "", 1,
          ⟨⟨10000, 1, 1⟩, 0, 0, 0, 0⟩⟩]⟩ := by
  obtain ⟨-, -, -, -, -, -, -, hsurvives, -⟩ := contracts_survive
  have hfits : Contract.Fits (LoadAnswer.mk ⟨"t", "1", "Order"⟩ none
      [⟨"e1", .object [("amount", Json.ofNat 5)], "Placed", "", 1, ⟨⟨10000, 1, 1⟩, 0, 0, 0, 0⟩⟩]) :=
    ⟨nofun, List.forall_mem_singleton.mpr
      ⟨by decide, by decide, by decide, by decide, by decide, by decide, by decide⟩⟩
  refine hsurvives.ofJson_of_widens _ _ _ (hsurvives.ofJson_toJson _ hfits) ?_
  have hevents : Schema.schemaOf? (StreamKey.fields ++ LoadAnswer.fields) "events" =
      some (.list RecordedEvent.schema) := rfl
  refine .trans (.member [_, _] [_, _] hevents ?_) (.unknown [_, _, _] [_, _] _ rfl)
  exact .item [] [] (.unknown [_, _, _, _, _, _] [] _ rfl)

end TenantStore
