import Mathlib.Data.List.Nodup
import TenantStore.Json.Schema
import TenantStore.Proofs.Access

/-!
# Values in full form

What a schema reads is in full form: a record has each member of the contract once and no other.
`Schema.Fills` says so of the members, in the order of the contract, and
`Schema.exists_fills_of_conform` that it holds of all that is read. Members in full form are read as
they are, also where other members stand among them (`Schema.conformMembers_ofList`).

A value is widened by members of unknown names in its records, at any depth. It is then read as
before (`Schema.Widens.conform`), and so is every part of the contract by itself
(`Schema.Widens.conformMembers`).
-/

namespace TenantStore

namespace Schema

/-- The members of a contract, each with its name, its default and its schema. -/
abbrev Fields := List (String × Option Json × Schema)

/-- The schema of a member. -/
def schemaOf? (fields : Fields) (name : String) : Option Schema :=
  (fields.find? fun f => f.1 = name).map fun f => f.2.2

variable {fields : Fields}

theorem exists_mem_of_schemaOf? {name : String} {s : Schema}
    (h : schemaOf? fields name = some s) : ∃ default, (name, default, s) ∈ fields := by
  obtain ⟨⟨name', default, s'⟩, hfind, rfl⟩ := Option.map_eq_some_iff.mp h
  obtain rfl : name' = name := by simpa using List.find?_some hfind
  exact ⟨default, List.mem_of_find?_eq_some hfind⟩

/-- When the names of the members differ, each of them has its own schema. -/
theorem schemaOf?_of_mem (hnodup : (fields.map Prod.fst).Nodup) {name : String}
    {default : Option Json} {s : Schema} (h : (name, default, s) ∈ fields) :
    schemaOf? fields name = some s := by
  cases hfind : schemaOf? fields name with
  | none =>
      have hnone := List.find?_eq_none.mp (Option.map_eq_none_iff.mp hfind) _ h
      exact absurd (decide_eq_true rfl) hnone
  | some s' =>
      obtain ⟨default', h'⟩ := exists_mem_of_schemaOf? hfind
      cases List.inj_on_of_nodup_map hnodup h' h rfl
      rfl

/-- A contract may be read in parts. -/
theorem schemaOf?_of_subset {part : Fields} (hnodup : (fields.map Prod.fst).Nodup)
    (hpart : part ⊆ fields) {name : String} {s : Schema} (h : schemaOf? part name = some s) :
    schemaOf? fields name = some s := by
  obtain ⟨default, hfield⟩ := exists_mem_of_schemaOf? h
  exact schemaOf?_of_mem hnodup (hpart hfield)

/-! ## Reading a record -/

theorem conformMember_eq (fields : Fields) (name : String) (v : Json) :
    conformMember fields name v =
      match schemaOf? fields name with
      | some s => (conform s v).map some
      | none => .ok none := by
  induction fields with
  | nil => rw [conformMember]; rfl
  | cons f fields ih =>
      obtain ⟨name', default, s⟩ := f
      rw [conformMember, schemaOf?, List.find?_cons]
      by_cases hname : name' = name
      · rw [if_pos hname, decide_eq_true hname]
        rfl
      · rw [if_neg hname, decide_eq_false hname, ih]
        rfl

/-- Reads those members that are of the contract. -/
def readKnown (fields : Fields) (ms : Members Json) : Except DecodeError (Members Json) :=
  ms.filterMapM fun (k, x) => return (← conformMember fields k x).map (k, ·)

theorem conformMembers_eq (fields : Fields) (ms : Members Json) :
    conformMembers fields ms = readKnown fields ms >>= fun read => complete read fields [] :=
  rfl

theorem conform_object (name : String) (fields : Fields) (ms : Members Json) :
    conform (.record name fields) (.object ms) = (conformMembers fields ms).map .object := by
  rw [conform, conformMembers]
  cases ms.filterMapM fun (k, x) => return (← conformMember fields k x).map (k, ·) with
  | error e => rfl
  | ok read => cases complete read fields [] <;> rfl

theorem readKnown_cons_unknown {name : String} (h : schemaOf? fields name = none) (v : Json)
    (ms : Members Json) : readKnown fields ((name, v) :: ms) = readKnown fields ms := by
  rw [readKnown, List.filterMapM_cons]
  dsimp only
  rw [conformMember_eq, h]
  rfl

theorem readKnown_cons {name : String} {s : Schema} (h : schemaOf? fields name = some s) (v : Json)
    (ms : Members Json) :
    readKnown fields ((name, v) :: ms) =
      conform s v >>= fun w => (readKnown fields ms).map ((name, w) :: ·) := by
  rw [readKnown, List.filterMapM_cons]
  dsimp only
  rw [conformMember_eq, h]
  dsimp only
  cases conform s v with
  | error e => rfl
  | ok w =>
      show (readKnown fields ms >>= fun read => pure ((name, w) :: read)) =
        (readKnown fields ms).map _
      cases readKnown fields ms <;> rfl

theorem readKnown_append (fields : Fields) (ms ns : Members Json) :
    readKnown fields (ms ++ ns) =
      readKnown fields ms >>= fun read => (readKnown fields ns).map (read ++ ·) := by
  induction ms with
  | nil =>
      show readKnown fields ns = (readKnown fields ns).map _
      cases readKnown fields ns <;> rfl
  | cons m ms ih =>
      obtain ⟨name, v⟩ := m
      rw [List.cons_append]
      cases h : schemaOf? fields name with
      | none => rw [readKnown_cons_unknown h, readKnown_cons_unknown h, ih]
      | some s =>
          rw [readKnown_cons h, readKnown_cons h, ih]
          cases conform s v with
          | error e => rfl
          | ok w =>
              cases readKnown fields ms with
              | error e => rfl
              | ok read => cases readKnown fields ns <;> rfl

/-- What is read of a member conforms to the schema of the member. -/
theorem exists_conform_of_mem_readKnown {ms read : Members Json}
    (h : readKnown fields ms = .ok read) {name : String} {w : Json} (hw : (name, w) ∈ read) :
    ∃ s v, schemaOf? fields name = some s ∧ conform s v = .ok w := by
  induction ms generalizing read with
  | nil =>
      cases h
      cases hw
  | cons m ms ih =>
      obtain ⟨name', v⟩ := m
      cases hname : schemaOf? fields name' with
      | none =>
          rw [readKnown_cons_unknown hname] at h
          exact ih h hw
      | some s =>
          rw [readKnown_cons hname] at h
          obtain ⟨w', hw', h⟩ := exists_of_bind_eq_ok h
          obtain ⟨rest, hrest, rfl⟩ := exists_of_map_eq_ok h
          rcases List.mem_cons.mp hw with heq | hw
          · cases heq
            exact ⟨s, v, hname, hw'⟩
          · exact ih hrest hw

/-- Members that are read as they are. -/
theorem readKnown_eq_filter {ms : Members Json}
    (h : ∀ name v, (name, v) ∈ ms → ∀ s, schemaOf? fields name = some s → conform s v = .ok v) :
    readKnown fields ms = .ok (ms.filter fun m => (schemaOf? fields m.1).isSome) := by
  induction ms with
  | nil => rfl
  | cons m ms ih =>
      obtain ⟨name, v⟩ := m
      have hrest := ih fun name v hm => h name v (List.mem_cons_of_mem _ hm)
      cases hname : schemaOf? fields name with
      | none =>
          rw [readKnown_cons_unknown hname, hrest, List.filter_cons_of_neg (by simp [hname])]
      | some s =>
          rw [readKnown_cons hname, h name v List.mem_cons_self s hname, hrest,
            List.filter_cons_of_pos (by simp [hname])]
          rfl

/-! ## Filling in -/

/-- The pairs have the members of the contract in full, in the order of the contract: each is what
its schema reads or its default. -/
def Fills (fields : Fields) (pairs : List (String × Json)) : Prop :=
  List.Forall₂ (fun f p => f.1 = p.1 ∧ ((∃ v, conform f.2.2 v = .ok p.2) ∨ f.2.1 = some p.2))
    fields pairs

theorem complete_cons (read done : Members Json) (name : String) (default : Option Json)
    (s : Schema) (fields : Fields) :
    complete read ((name, default, s) :: fields) done =
      match (Members.get? read name).or default with
      | some v => complete read fields (Members.insert done name v)
      | none => .error (.missing name) := by
  cases hread : Members.get? read name <;> cases default <;> simp only [complete, hread, Option.or]

/-- Each member is taken from what was read, or else it is its default. -/
theorem complete_eq_ok_iff {read full done : Members Json} :
    complete read fields done = .ok full ↔
      ∃ pairs, List.Forall₂
        (fun f p => f.1 = p.1 ∧ (Members.get? read f.1).or f.2.1 = some p.2) fields pairs ∧
        full = pairs.foldl (fun ms (name, v) => Members.insert ms name v) done := by
  induction fields generalizing done with
  | nil =>
      rw [complete]
      constructor
      · rintro ⟨⟩
        exact ⟨[], .nil, rfl⟩
      · rintro ⟨pairs, ⟨⟩, rfl⟩
        rfl
  | cons f fields ih =>
      obtain ⟨name, default, s⟩ := f
      rw [complete_cons]
      cases hvalue : (Members.get? read name).or default with
      | none =>
          refine iff_of_false nofun ?_
          rintro ⟨_, _ | ⟨⟨-, hp⟩, -⟩, -⟩
          cases hvalue.symm.trans hp
      | some v =>
          refine ih.trans ⟨?_, ?_⟩
          · rintro ⟨pairs, hpairs, rfl⟩
            exact ⟨(name, v) :: pairs, .cons ⟨rfl, hvalue⟩ hpairs, rfl⟩
          · rintro ⟨_, _ | @⟨_, ⟨name', v'⟩, _, pairs, ⟨hname, hp⟩, hpairs⟩, rfl⟩
            cases hname
            cases hvalue.symm.trans hp
            exact ⟨pairs, hpairs, rfl⟩

theorem Fills.map_fst {pairs : List (String × Json)} (h : Fills fields pairs) :
    pairs.map Prod.fst = fields.map Prod.fst := by
  induction h with
  | nil => rfl
  | cons hfirst _ ih => rw [List.map_cons, List.map_cons, ih, hfirst.1]

/-- A member without a default is one that its schema reads. -/
theorem Fills.exists_get? {pairs : List (String × Json)} (h : Fills fields pairs)
    (hnodup : (fields.map Prod.fst).Nodup) {name : String} {s : Schema}
    (hfield : (name, none, s) ∈ fields) :
    ∃ v w, conform s v = .ok w ∧ Members.get? (Members.ofList pairs) name = some w := by
  obtain ⟨⟨name', w⟩, hmem, hname, hread⟩ := exists_mem_of_forall₂ h.flip _ hfield
  cases hname
  obtain ⟨v, hv⟩ := hread.resolve_right nofun
  have hnames : pairs.Pairwise fun p q => p.1 ≠ q.1 := by
    rw [← h.map_fst] at hnodup
    exact List.pairwise_map.mp hnodup
  refine ⟨v, w, hv, (Members.get?_eq_some_iff_mem (Members.Sorted.ofList pairs)).mpr ?_⟩
  exact (Members.perm_ofList hnames).mem_iff.mpr hmem

/-- What is read of an object has the members of the contract in full. -/
theorem exists_fills_of_conformMembers (hnodup : (fields.map Prod.fst).Nodup)
    {ms full : Members Json} (h : conformMembers fields ms = .ok full) :
    ∃ pairs, Fills fields pairs ∧ full = Members.ofList pairs := by
  rw [conformMembers_eq] at h
  obtain ⟨read, hread, h⟩ := exists_of_bind_eq_ok h
  obtain ⟨pairs, hpairs, rfl⟩ := complete_eq_ok_iff.mp h
  obtain ⟨hlength, hzip⟩ := List.forall₂_iff_zip.mp hpairs
  refine ⟨pairs, List.forall₂_iff_zip.mpr ⟨hlength, ?_⟩, rfl⟩
  rintro ⟨name, default, s⟩ ⟨name', w⟩ hmem
  obtain ⟨hname, hvalue⟩ := hzip hmem
  refine ⟨hname, (Option.or_eq_some_iff.mp hvalue).imp (fun hget => ?_) And.right⟩
  have hw := Members.mem_of_get?_eq_some hget
  obtain ⟨s', v, hs', hv⟩ := exists_conform_of_mem_readKnown hread hw
  cases hs'.symm.trans (schemaOf?_of_mem hnodup (List.of_mem_zip hmem).1)
  exact ⟨v, hv⟩

theorem fills_of_conformSequence {expected : String} {count : Nat} {xs : List Json}
    {pairs : List (String × Json)} (h : conformSequence expected count fields xs = .ok pairs) :
    Fills fields pairs := by
  induction fields generalizing count xs pairs with
  | nil =>
      cases xs with
      | nil =>
          cases h
          exact .nil
      | cons x xs => cases h
  | cons f fields ih =>
      obtain ⟨name, default, s⟩ := f
      cases xs with
      | nil =>
          cases default with
          | none =>
              rw [conformSequence] at h
              cases h
          | some v =>
              rw [conformSequence] at h
              obtain ⟨rest, hrest, h⟩ := exists_of_bind_eq_ok h
              cases h
              exact .cons ⟨rfl, .inr rfl⟩ (ih hrest)
      | cons x xs =>
          rw [conformSequence] at h
          obtain ⟨v, hv, h⟩ := exists_of_bind_eq_ok h
          obtain ⟨rest, hrest, h⟩ := exists_of_bind_eq_ok h
          cases h
          exact .cons ⟨rfl, .inl ⟨x, hv⟩⟩ (ih hrest)

/-- What is read of a record has the members of the contract in full. -/
theorem exists_fills_of_conform (hnodup : (fields.map Prod.fst).Nodup) {name : String}
    {v u : Json} (h : conform (.record name fields) v = .ok u) :
    ∃ pairs, Fills fields pairs ∧ u = Json.ofMembers pairs := by
  cases v with
  | object ms =>
      rw [conform_object] at h
      obtain ⟨full, hfull, rfl⟩ := exists_of_map_eq_ok h
      obtain ⟨pairs, hpairs, rfl⟩ := exists_fills_of_conformMembers hnodup hfull
      exact ⟨pairs, hpairs, rfl⟩
  | array xs =>
      rw [conform] at h
      obtain ⟨pairs, hpairs, h⟩ := exists_of_bind_eq_ok h
      cases h
      exact ⟨pairs, fills_of_conformSequence hpairs, rfl⟩
  | null | bool _ | number _ | string _ => simp [conform] at h

/-! ## Values that are read as they are -/

/-- The pairs are the members of the contract, in its order, and each is read as it is. -/
def Full (fields : Fields) (pairs : List (String × Json)) : Prop :=
  List.Forall₂ (fun f p => f.1 = p.1 ∧ conform f.2.2 p.2 = .ok p.2) fields pairs

theorem Full.fills {pairs : List (String × Json)} (h : Full fields pairs) : Fills fields pairs :=
  List.Forall₂.imp (fun _ p hp => ⟨hp.1, .inl ⟨p.2, hp.2⟩⟩) h

/-- Members in full form are read as they are, whatever other members stand among them. -/
theorem conformMembers_ofList {own pairs : List (String × Json)} (h : Full fields own)
    (hown : own ⊆ pairs) (hnodup : (pairs.map Prod.fst).Nodup) :
    conformMembers fields (Members.ofList pairs) = .ok (Members.ofList own) := by
  have hperm := Members.perm_ofList (List.pairwise_map.mp hnodup)
  have hsorted := Members.Sorted.ofList pairs
  have hread : readKnown fields (Members.ofList pairs) =
      .ok ((Members.ofList pairs).filter fun m => (schemaOf? fields m.1).isSome) := by
    refine readKnown_eq_filter fun name v hm s hs => ?_
    obtain ⟨default, hfield⟩ := exists_mem_of_schemaOf? hs
    obtain ⟨⟨name', v'⟩, hmem, hname, hv⟩ := exists_mem_of_forall₂ h.flip _ hfield
    cases hname
    cases List.inj_on_of_nodup_map hnodup (hperm.mem_iff.mp hm) (hown hmem) rfl
    exact hv
  rw [conformMembers_eq, hread]
  -- no default is needed: each member of the contract is among what was read
  refine complete_eq_ok_iff.mpr ⟨own, ?_, rfl⟩
  obtain ⟨hlength, hzip⟩ := List.forall₂_iff_zip.mp h
  refine List.forall₂_iff_zip.mpr ⟨hlength, ?_⟩
  rintro ⟨name, default, s⟩ ⟨name', v⟩ hmem
  obtain ⟨hname, hv⟩ := hzip hmem
  obtain ⟨hfield, hpair⟩ := List.of_mem_zip hmem
  cases hname
  refine ⟨rfl, ?_⟩
  have hknown : (schemaOf? fields name).isSome := by
    rw [schemaOf?, Option.isSome_map, List.find?_isSome]
    exact ⟨_, hfield, decide_eq_true rfl⟩
  have hget : Members.get? ((Members.ofList pairs).filter fun m => (schemaOf? fields m.1).isSome)
      name = some v := by
    rw [Members.get?_eq_some_iff_mem (List.Pairwise.filter _ hsorted)]
    exact List.mem_filter.mpr ⟨hperm.mem_iff.mpr (hown hpair), hknown⟩
  rw [hget]
  rfl

/-- A record in full form is read as it is. -/
theorem conform_ofMembers {pairs : List (String × Json)} (h : Full fields pairs)
    (hnodup : (fields.map Prod.fst).Nodup) (name : String) :
    conform (.record name fields) (Json.ofMembers pairs) = .ok (Json.ofMembers pairs) := by
  rw [← h.fills.map_fst] at hnodup
  rw [Json.ofMembers, conform_object, conformMembers_ofList h (List.Subset.refl _) hnodup]
  rfl

/-! ## Members of unknown names -/

/-- The second value is the first with members of unknown names put into records that are in it.
What a schema says nothing about stays as it is. -/
inductive Widens : Schema → Json → Json → Prop
  | refl (s : Schema) (v : Json) : Widens s v v
  | trans {s : Schema} {u v w : Json} (hv : Widens s u v) (hw : Widens s v w) : Widens s u w
  | unknown {name : String} {fields : Fields} (ms ns : Members Json) {k : String} (v : Json)
    (hk : schemaOf? fields k = none) :
    Widens (.record name fields) (.object (ms ++ ns)) (.object (ms ++ (k, v) :: ns))
  | member {name : String} {fields : Fields} (ms ns : Members Json) {k : String} {s : Schema}
    {v w : Json} (hk : schemaOf? fields k = some s) (h : Widens s v w) :
    Widens (.record name fields) (.object (ms ++ (k, v) :: ns)) (.object (ms ++ (k, w) :: ns))
  | item {s : Schema} (xs ys : List Json) {v w : Json} (h : Widens s v w) :
    Widens (.list s) (.array (xs ++ v :: ys)) (.array (xs ++ w :: ys))
  | optional {s : Schema} {v w : Json} (h : Widens s v w) : Widens (.optional s) v w

/-- A member of an unknown name is not read. -/
theorem conformMembers_unknown {k : String} (hk : schemaOf? fields k = none)
    (ms ns : Members Json) (v : Json) :
    conformMembers fields (ms ++ (k, v) :: ns) = conformMembers fields (ms ++ ns) := by
  rw [conformMembers_eq, conformMembers_eq, readKnown_append, readKnown_append,
    readKnown_cons_unknown hk]

/-- A member may be given in another way that its schema reads alike. -/
theorem conformMembers_member {k : String} {v w : Json}
    (h : ∀ s, schemaOf? fields k = some s → ∀ u, conform s v = .ok u → conform s w = .ok u)
    {ms ns full : Members Json}
    (hfull : conformMembers fields (ms ++ (k, v) :: ns) = .ok full) :
    conformMembers fields (ms ++ (k, w) :: ns) = .ok full := by
  cases hk : schemaOf? fields k with
  | none => rwa [conformMembers_unknown hk] at hfull ⊢
  | some s =>
      rw [conformMembers_eq, readKnown_append, readKnown_cons hk] at hfull ⊢
      cases hv : conform s v with
      | ok u => rwa [hv, ← h s hk u hv] at hfull
      | error e =>
          rw [hv] at hfull
          cases hms : readKnown fields ms <;> rw [hms] at hfull <;> cases hfull

theorem Widens.eq_null_iff {s : Schema} {v w : Json} (h : Widens s v w) :
    v = .null ↔ w = .null := by
  induction h with
  | refl s v => exact Iff.rfl
  | trans hv hw ihv ihw => exact ihv.trans ihw
  | unknown | member | item => exact iff_of_false nofun nofun
  | optional h ih => exact ih

theorem conform_optional {s : Schema} {v : Json} (h : v ≠ .null) :
    conform (.optional s) v = conform s v := by
  cases v with
  | null => exact absurd rfl h
  | bool _ | number _ | string _ | array _ | object _ =>
      rw [conform]
      exact h

/-- An item may be put in place of another if all that the other is related to is related to it. -/
theorem forall₂_replace {α β : Type} {R : α → β → Prop} {v w : α} (h : ∀ u, R v u → R w u)
    {xs ys : List α} {us : List β} (hus : List.Forall₂ R (xs ++ v :: ys) us) :
    List.Forall₂ R (xs ++ w :: ys) us := by
  induction xs generalizing us with
  | nil =>
      cases hus with
      | cons hv hys => exact .cons (h _ hv) hys
  | cons x xs ih =>
      cases hus with
      | cons hx hxs => exact .cons hx (ih hxs)

/-- A value that is widened is read as before. -/
theorem Widens.conform {s : Schema} {v w u : Json} (h : Widens s v w)
    (hu : Schema.conform s v = .ok u) : Schema.conform s w = .ok u := by
  induction h generalizing u with
  | refl s v => exact hu
  | trans hv hw ihv ihw => exact ihw (ihv hu)
  | unknown ms ns v hk =>
      rw [conform_object, conformMembers_unknown hk, ← conform_object]
      exact hu
  | @member name fields ms ns k s v w hk h ih =>
      rw [conform_object] at hu ⊢
      obtain ⟨full, hfull, rfl⟩ := exists_of_map_eq_ok hu
      rw [conformMembers_member (fun s' hs' u hv => ?_) hfull]
      · rfl
      · cases hk.symm.trans hs'
        exact ih hv
  | @item s xs ys v w h ih =>
      rw [Schema.conform] at hu ⊢
      obtain ⟨us, hus, rfl⟩ := exists_of_map_eq_ok hu
      have hitems := forall₂_replace (fun u => ih (u := u)) (mapM_eq_ok_iff.mp hus)
      rw [mapM_eq_ok_iff.mpr hitems]
      rfl
  | @optional s v w h ih =>
      by_cases hv : v = .null
      · cases hv
        cases h.eq_null_iff.mp rfl
        exact hu
      · rw [conform_optional hv] at hu
        rw [conform_optional (mt h.eq_null_iff.mpr hv)]
        exact ih hu

/-- An object that is widened is an object, and every part of the contract reads it as before. -/
theorem Widens.conformMembers {name : String} {ms : Members Json} {w : Json}
    (h : Widens (.record name fields) (.object ms) w) :
    ∃ ns, w = .object ns ∧ ∀ part : Fields,
      (∀ k s, schemaOf? part k = some s → schemaOf? fields k = some s) →
      ∀ full, Schema.conformMembers part ms = .ok full →
        Schema.conformMembers part ns = .ok full := by
  -- the two values are of the same record, but the induction has to be on any schema and value
  generalize hrecord : Schema.record name fields = s at h
  generalize hobject : Json.object ms = v at h
  induction h generalizing ms with
  | refl s v =>
      cases hobject
      exact ⟨ms, rfl, fun _ _ _ hfull => hfull⟩
  | trans hv hw ihv ihw =>
      obtain ⟨ns, rfl, hns⟩ := ihv hrecord hobject
      obtain ⟨ns', rfl, hns'⟩ := ihw hrecord rfl
      refine ⟨ns', rfl, fun part hpart full hfull => ?_⟩
      exact hns' part hpart full (hns part hpart full hfull)
  | @unknown name fields ms ns k v hk =>
      cases hrecord
      cases hobject
      refine ⟨_, rfl, fun part hpart full hfull => ?_⟩
      rwa [conformMembers_unknown]
      cases hs : schemaOf? part k with
      | none => rfl
      | some s => cases hk.symm.trans (hpart k s hs)
  | @member name fields ms ns k s v w hk h ih =>
      cases hrecord
      cases hobject
      refine ⟨_, rfl, fun part hpart full hfull => ?_⟩
      refine conformMembers_member (fun s' hs' u hv => ?_) hfull
      cases hk.symm.trans (hpart k s' hs')
      exact h.conform hv
  | item => cases hrecord
  | optional => cases hrecord

end Schema
end TenantStore
