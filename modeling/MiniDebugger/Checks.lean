import Mathlib.Data.List.Forall2
import Mathlib.Tactic.Common

/-!
# What checks establish

Facts about validators in `Except`. A sequence of checks that returns has passed each of them, so
`… = .ok a` unfolds into what was checked; `Avoids` says the other half, that an error of a certain
kind is never thrown.
-/

namespace MiniDebugger.Checks

variable {ε α β σ : Type}

/-! ## Passing -/

@[simp] theorem pure_eq_ok {a b : α} : (pure a : Except ε α) = .ok b ↔ a = b := by
  simp [pure, Except.pure]

@[simp] theorem throw_eq_ok {e : ε} {a : α} : (throw e : Except ε α) = .ok a ↔ False := by
  simp [throw, throwThe, MonadExceptOf.throw]

@[simp] theorem bind_eq_ok {x : Except ε α} {f : α → Except ε β} {b : β} :
    (x >>= f) = .ok b ↔ ∃ a, x = .ok a ∧ f a = .ok b := by
  cases x <;> simp [bind, Except.bind]

theorem map_eq_ok {x : Except ε α} {f : α → β} {b : β} :
    x.map f = .ok b ↔ ∃ a, x = .ok a ∧ f a = b := by
  cases x <;> simp [Except.map]

theorem toOption_any_eq_true {x : Except ε α} {p : α → Bool} :
    x.toOption.any p = true ↔ ∃ a, x = .ok a ∧ p a = true := by
  cases x <;> simp [Except.toOption]

theorem ok_bind (a : α) (f : α → Except ε β) : (Except.ok a >>= f) = f a := rfl

@[simp] theorem throw_bind {e : ε} {f : α → Except ε β} :
    ((throw e : Except ε α) >>= f) = throw e := rfl

@[simp] theorem ite_throw_eq_ok {p : Prop} [Decidable p] {e : ε} {x : Except ε α} {a : α} :
    (if p then throw e else x) = .ok a ↔ ¬p ∧ x = .ok a := by
  by_cases hp : p <;> simp [hp]

theorem forM_eq_ok {f : α → Except ε PUnit} {l : List α} :
    l.forM f = .ok () ↔ ∀ a ∈ l, f a = .ok () := by
  induction l with
  | nil => simp [List.forM]
  | cons a l ih =>
    change (f a >>= fun _ => l.forM f) = .ok () ↔ _
    rw [bind_eq_ok, List.forall_mem_cons]
    constructor
    · rintro ⟨⟨⟩, ha, hl⟩
      exact ⟨ha, ih.mp hl⟩
    · intro h
      exact ⟨(), h.1, ih.mpr h.2⟩

theorem mapM_eq_ok {f : α → Except ε β} {l : List α} {l' : List β} :
    l.mapM f = .ok l' ↔ List.Forall₂ (fun a b => f a = .ok b) l l' := by
  induction l generalizing l' with
  | nil =>
    rw [List.mapM_nil, pure_eq_ok, List.forall₂_nil_left_iff]
    exact eq_comm
  | cons a l ih =>
    rw [List.mapM_cons, bind_eq_ok, List.forall₂_cons_left_iff]
    constructor
    · rintro ⟨b, hb, h⟩
      obtain ⟨bs, hbs, hpure⟩ := bind_eq_ok.mp h
      exact ⟨b, bs, hb, ih.mp hbs, (pure_eq_ok.mp hpure).symm⟩
    · rintro ⟨b, bs, hb, hbs, rfl⟩
      exact ⟨b, hb, bind_eq_ok.mpr ⟨bs, ih.mpr hbs, rfl⟩⟩

/-- A traversal whose step never fails is a map. -/
theorem mapM_eq_ok_map {f : α → Except ε β} {g : α → β} {l : List α}
    (h : ∀ a ∈ l, f a = .ok (g a)) : l.mapM f = .ok (l.map g) := by
  rw [mapM_eq_ok, List.forall₂_map_right_iff, List.forall₂_same]
  exact h

theorem exists_mapM_eq_ok {f : α → Except ε β} {l : List α} (h : ∀ a ∈ l, ∃ b, f a = .ok b) :
    ∃ l', l.mapM f = .ok l' := by
  induction l with
  | nil => exact ⟨[], rfl⟩
  | cons a l ih =>
    obtain ⟨b, hb⟩ := h a List.mem_cons_self
    obtain ⟨bs, hbs⟩ := ih fun c hc => h c (List.mem_cons_of_mem a hc)
    exact ⟨b :: bs, mapM_eq_ok.mpr (.cons hb (mapM_eq_ok.mp hbs))⟩

/-- A traversal fails where one of its steps does. -/
theorem mapM_eq_error {f : α → Except ε β} {l : List α} {e : ε} (h : l.mapM f = .error e) :
    ∃ a ∈ l, f a = .error e := by
  induction l with
  | nil => cases h
  | cons a l ih =>
    rw [List.mapM_cons] at h
    cases ha : f a with
    | error e' =>
      rw [ha] at h
      cases h
      exact ⟨a, List.mem_cons_self, ha⟩
    | ok b =>
      rw [ha, ok_bind] at h
      cases hl : l.mapM f with
      | error e' =>
        rw [hl] at h
        cases h
        obtain ⟨c, hc, he⟩ := ih hl
        exact ⟨c, List.mem_cons_of_mem a hc, he⟩
      | ok bs =>
        rw [hl] at h
        cases h

theorem forM_eq_error {f : α → Except ε PUnit} {l : List α} {e : ε} (h : l.forM f = .error e) :
    ∃ a ∈ l, f a = .error e := by
  induction l with
  | nil => cases h
  | cons a l ih =>
    change (f a >>= fun _ => l.forM f) = .error e at h
    cases ha : f a with
    | error e' =>
      rw [ha] at h
      cases h
      exact ⟨a, List.mem_cons_self, ha⟩
    | ok b =>
      rw [ha] at h
      obtain ⟨c, hc, he⟩ := ih h
      exact ⟨c, List.mem_cons_of_mem a hc, he⟩

/-! ## Loops -/

/-- What every step of a loop keeps holds where the loop ends. -/
theorem foldlM_invariant {f : σ → α → Except ε σ} {I : σ → Prop} {l : List α} {s t : σ}
    (hs : I s) (hstep : ∀ s a t, I s → f s a = .ok t → I t) (h : l.foldlM f s = .ok t) :
    I t := by
  induction l generalizing s with
  | nil =>
    rw [List.foldlM_nil, pure_eq_ok] at h
    exact h ▸ hs
  | cons a l ih =>
    rw [List.foldlM_cons, bind_eq_ok] at h
    obtain ⟨next, hnext, h⟩ := h
    exact ih (hstep s a next hs hnext) h

/-! ## Avoiding errors -/

/-- The computation throws no bad error. -/
def Avoids (bad : ε → Prop) (x : Except ε α) : Prop := ∀ e, x = .error e → ¬bad e

variable {bad : ε → Prop}

theorem avoids_of_eq_ok {x : Except ε α} {a : α} (h : x = .ok a) : Avoids bad x := by
  intro e he
  rw [h] at he
  cases he

@[simp] theorem avoids_pure {a : α} : Avoids bad (pure a : Except ε α) := avoids_of_eq_ok rfl

@[simp] theorem avoids_throw_iff {e : ε} : Avoids bad (throw e : Except ε α) ↔ ¬bad e := by
  constructor
  · intro h
    exact h e rfl
  · rintro h e' ⟨⟩
    exact h

theorem avoids_bind_iff {x : Except ε α} {f : α → Except ε β} :
    Avoids bad (x >>= f) ↔ Avoids bad x ∧ ∀ a, x = .ok a → Avoids bad (f a) := by
  cases x with
  | error e =>
    constructor
    · intro h
      exact ⟨fun e' he => h e' (by cases he; rfl), fun a ha => by cases ha⟩
    · rintro ⟨h, -⟩ e' he
      exact h e' (by cases he; rfl)
  | ok a =>
    constructor
    · intro h
      exact ⟨avoids_of_eq_ok rfl, fun a' ha => by cases ha; exact h⟩
    · intro h
      exact h.2 a rfl

theorem avoids_bind {x : Except ε α} {f : α → Except ε β} (hx : Avoids bad x)
    (hf : ∀ a, x = .ok a → Avoids bad (f a)) : Avoids bad (x >>= f) :=
  avoids_bind_iff.mpr ⟨hx, hf⟩

theorem avoids_ite {p : Prop} [Decidable p] {x y : Except ε α} (hx : p → Avoids bad x)
    (hy : ¬p → Avoids bad y) : Avoids bad (if p then x else y) := by
  split
  · exact hx ‹_›
  · exact hy ‹_›

/-- A check whose errors are all bad avoids them exactly when it passes. -/
theorem avoids_iff_eq_ok {x : Except ε PUnit} (h : ∀ e, x = .error e → bad e) :
    Avoids bad x ↔ x = .ok () := by
  cases x with
  | error e => simp [Avoids, h e rfl]
  | ok a => simp [Avoids]

end MiniDebugger.Checks
