import Mathlib.Data.List.Forall2
import TenantStore.Access

/-!
# What accesses do to a store

An access is read step by step: a step that fails ends it in the state that the step left
(`bind_apply`). So a condition on the state that every step leaves in force is in force after the
whole access, also if the access fails halfway, and a step may rely on what the steps before it
answered (`Yields.bind`).
-/

namespace TenantStore

variable {σ α β : Type}

/-- If steps in sequence succeed, each of them does. -/
theorem exists_of_bind_eq_ok {ε : Type} {x : Except ε α} {next : α → Except ε β} {b : β}
    (h : (x >>= next) = .ok b) : ∃ a, x = .ok a ∧ next a = .ok b := by
  cases x with
  | error e => cases h
  | ok a => exact ⟨a, rfl, h⟩

/-- What is transformed is there. -/
theorem exists_of_map_eq_ok {ε : Type} {x : Except ε α} {f : α → β} {b : β}
    (h : x.map f = .ok b) : ∃ a, x = .ok a ∧ f a = b := by
  cases x with
  | error e => cases h
  | ok a => exact ⟨a, rfl, Except.ok.inj h⟩

/-- Steps on the items of a list succeed if each of them does, in the order of the items. -/
theorem mapM_eq_ok_iff {ε : Type} {f : α → Except ε β} {xs : List α} {ys : List β} :
    xs.mapM f = .ok ys ↔ List.Forall₂ (fun x y => f x = .ok y) xs ys := by
  induction xs generalizing ys with
  | nil => exact ⟨fun h => by cases h; exact .nil, fun h => by cases h; rfl⟩
  | cons x xs ih =>
      rw [List.mapM_cons]
      constructor
      · intro h
        obtain ⟨y, hy, h⟩ := exists_of_bind_eq_ok h
        obtain ⟨ys, hys, h⟩ := exists_of_bind_eq_ok h
        cases h
        exact .cons hy (ih.mp hys)
      · rintro (_ | ⟨hy, hys⟩)
        rw [hy, ih.mpr hys]
        rfl

/-- What stands on the right of a list of pairs is related to something on the left. -/
theorem exists_mem_of_forall₂ {R : α → β → Prop} {xs : List α} {ys : List β}
    (h : List.Forall₂ R xs ys) : ∀ y ∈ ys, ∃ x ∈ xs, R x y := by
  induction h with
  | nil => simp
  | cons hxy _ ih =>
      refine List.forall_mem_cons.mpr ⟨⟨_, List.mem_cons_self, hxy⟩, fun y hy => ?_⟩
      obtain ⟨x, hx, hxy⟩ := ih y hy
      exact ⟨x, List.mem_cons_of_mem _ hx, hxy⟩

theorem exists_mapM_eq_ok_iff {ε : Type} {f : α → Except ε β} {xs : List α} :
    (∃ ys, xs.mapM f = .ok ys) ↔ ∀ x ∈ xs, ∃ y, f x = .ok y := by
  constructor
  · rintro ⟨ys, h⟩ x hx
    obtain ⟨y, -, hy⟩ := exists_mem_of_forall₂ (mapM_eq_ok_iff.mp h).flip x hx
    exact ⟨y, hy⟩
  · intro h
    induction xs with
    | nil => exact ⟨[], rfl⟩
    | cons x xs ih =>
        obtain ⟨⟨y, hy⟩, hrest⟩ := List.forall_mem_cons.mp h
        obtain ⟨ys, hys⟩ := ih hrest
        exact ⟨y :: ys, mapM_eq_ok_iff.mpr (.cons hy (mapM_eq_ok_iff.mp hys))⟩

/-- If they fail, it is at the first item whose step fails, and with its error. -/
theorem mapM_eq_error_iff {ε : Type} {f : α → Except ε β} {xs : List α} {e : ε} :
    xs.mapM f = .error e ↔ ∃ before x after, xs = before ++ x :: after ∧
      (∀ y ∈ before, ∃ b, f y = .ok b) ∧ f x = .error e := by
  induction xs with
  | nil =>
      constructor
      · intro h
        cases h
      · rintro ⟨before, x, after, h, -⟩
        simp at h
  | cons x xs ih =>
      rw [List.mapM_cons]
      cases hx : f x with
      | error e' =>
          constructor
          · rintro ⟨⟩
            exact ⟨[], x, xs, rfl, by simp, hx⟩
          · rintro ⟨before, y, after, hxs, hbefore, hy⟩
            cases before with
            | nil =>
                cases hxs
                cases hx.symm.trans hy
                rfl
            | cons z before =>
                cases hxs
                obtain ⟨b, hb⟩ := hbefore x List.mem_cons_self
                cases hx.symm.trans hb
      | ok b =>
          have hrest : (do let bs ← xs.mapM f; pure (b :: bs)) = .error e ↔
              xs.mapM f = .error e := by
            cases xs.mapM f with
            | error e' => exact Iff.rfl
            | ok bs => exact ⟨nofun, nofun⟩
          refine hrest.trans (ih.trans ⟨?_, ?_⟩)
          · rintro ⟨before, y, after, rfl, hbefore, hy⟩
            refine ⟨x :: before, y, after, rfl, ?_, hy⟩
            exact List.forall_mem_cons.mpr ⟨⟨b, hx⟩, hbefore⟩
          · rintro ⟨before, y, after, hxs, hbefore, hy⟩
            cases before with
            | nil =>
                cases hxs
                cases hx.symm.trans hy
            | cons z before =>
                cases hxs
                exact ⟨before, y, after, rfl, (List.forall_mem_cons.mp hbefore).2, hy⟩

/-- What gives a value as an option succeeds with it. -/
theorem eq_ok_of_toOption {ε : Type} {x : Except ε α} {a : α} (h : x.toOption = some a) :
    x = .ok a := by
  cases x with
  | error e => cases h
  | ok b => exact congrArg Except.ok (Option.some.inj h)

namespace Access

/-- The second step runs in the state that the first one left, unless the first one failed. -/
theorem bind_apply (act : Access σ α) (next : α → Access σ β) (c : σ) :
    (act >>= next) c =
      match act c with
      | (.ok a, c') => next a c'
      | (.error e, c') => (.error e, c') := by
  show (ExceptT.bind act next) c = _
  simp only [ExceptT.bind, ExceptT.mk, bind, StateT.bind]
  cases act c with
  | mk answer c' => cases answer <;> rfl

/-- An answer that is transformed leaves the state of the access. -/
theorem bind_pure_apply (act : Access σ α) (f : α → β) (c : σ) :
    (act >>= fun a => pure (f a)) c = ((act c).1.map f, (act c).2) := by
  rw [bind_apply]
  cases act c with
  | mk answer c' => cases answer <;> rfl

/-- If the first step answers, the second one goes on from what it left. -/
theorem bind_apply_of_ok {act : Access σ α} {a : α} {c : σ} (h : (act c).1 = .ok a)
    (next : α → Access σ β) : (act >>= next) c = next a (act c).2 := by
  rw [bind_apply]
  cases hact : act c with
  | mk answer c' =>
      rw [hact] at h
      cases h
      rfl

/-- From a state with `I` the access leaves one with `I`, and an answer that it gives has `P`. -/
def Yields (I : σ → Prop) (P : α → Prop) (act : Access σ α) : Prop :=
  ∀ c, I c → I (act c).2 ∧ ∀ a, (act c).1 = .ok a → P a

variable {I : σ → Prop} {P : α → Prop} {Q : β → Prop}

/-- An answer without an access. -/
theorem Yields.pure {a : α} (ha : P a) : Yields I P (pure a : Access σ α) := by
  intro c hc
  refine ⟨hc, ?_⟩
  rintro b ⟨⟩
  exact ha

/-- A check does not touch the store. -/
theorem Yields.lift (e : Except StoreError α) :
    Yields I (fun a => e = .ok a) (liftM e : Access σ α) :=
  fun _ hc => ⟨hc, fun _ ha => ha⟩

/-- The second step may rely on what the first one answers. -/
theorem Yields.bind {act : Access σ α} {next : α → Access σ β} (hact : Yields I P act)
    (hnext : ∀ a, P a → Yields I Q (next a)) : Yields I Q (act >>= next) := by
  intro c hc
  obtain ⟨hstate, hanswer⟩ := hact c hc
  rw [bind_apply]
  cases h : act c with
  | mk answer c' =>
      rw [h] at hstate hanswer
      cases answer with
      | ok a => exact hnext a (hanswer a rfl) c' hstate
      | error e => exact ⟨hstate, fun b hb => nomatch hb⟩

/-- A check in front of an access decides whether the access happens. -/
theorem Yields.lift_bind (e : Except StoreError α) {next : α → Access σ β}
    (hnext : ∀ a, e = .ok a → Yields I Q (next a)) :
    Yields I Q ((liftM e : Access σ α) >>= next) :=
  (Yields.lift e).bind hnext

end Access
end TenantStore
