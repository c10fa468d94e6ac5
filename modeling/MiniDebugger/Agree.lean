import Mathlib.Data.List.Forall2
import Mathlib.Data.List.Induction
import Mathlib.Data.Option.Basic
import Mathlib.Tactic.Common

/-!
# Computations that agree

Two runs of a loop that may throw, over two lists of things that correspond: `Agree` says that both
throw the same error or return related results. The loops agree when their steps do, and a step that
does nothing can be left out of either.
-/

namespace MiniDebugger

variable {ε α β γ δ σ τ : Type}

/-- Both computations throw the same error or return related results. -/
inductive Agree (r : α → β → Prop) : Except ε α → Except ε β → Prop
  | error (e : ε) : Agree r (.error e) (.error e)
  | ok {a : α} {b : β} (h : r a b) : Agree r (.ok a) (.ok b)

section Agree

variable {r : α → β → Prop} {q : γ → δ → Prop}

theorem agree_eq_iff {x y : Except ε α} : Agree Eq x y ↔ x = y := by
  constructor
  · intro h
    cases h with
    | error e => rfl
    | ok h => rw [h]
  · rintro rfl
    cases x with
    | error e => exact .error e
    | ok a => exact .ok rfl

theorem Agree.bind {x : Except ε α} {y : Except ε β} {f : α → Except ε γ} {g : β → Except ε δ}
    (h : Agree r x y) (hf : ∀ a b, r a b → Agree q (f a) (g b)) : Agree q (x >>= f) (y >>= g) := by
  cases h with
  | error e => exact .error e
  | ok h => exact hf _ _ h

theorem Agree.ok_right {x : Except ε α} {y : Except ε β} {a : α} (h : Agree r x y)
    (hx : x = .ok a) : ∃ b, y = .ok b ∧ r a b := by
  cases h with
  | error e => cases hx
  | ok h =>
    cases hx
    exact ⟨_, rfl, h⟩

theorem Agree.error_right {x : Except ε α} {y : Except ε β} {e : ε} (h : Agree r x y)
    (hx : x = .error e) : y = .error e := by
  cases h with
  | error e =>
    cases hx
    rfl
  | ok h => cases hx

theorem Agree.error_left {x : Except ε α} {y : Except ε β} {e : ε} (h : Agree r x y)
    (hy : y = .error e) : x = .error e := by
  cases h with
  | error e =>
    cases hy
    rfl
  | ok h => cases hy

/-- Loops over corresponding lists agree when their steps do. -/
theorem agree_foldlM {rel : α → β → Prop} {state : σ → τ → Prop} {f : σ → α → Except ε σ}
    {g : τ → β → Except ε τ} {xs : List α} {ys : List β} (hlists : List.Forall₂ rel xs ys)
    (hstep : ∀ s t x y, state s t → rel x y → x ∈ xs → y ∈ ys → Agree state (f s x) (g t y))
    {s : σ} {t : τ} (hstate : state s t) : Agree state (xs.foldlM f s) (ys.foldlM g t) := by
  induction hlists generalizing s t with
  | nil => exact .ok hstate
  | cons hrel _ ih =>
    rw [List.foldlM_cons, List.foldlM_cons]
    refine (hstep s t _ _ hstate hrel (by simp) (by simp)).bind fun s' t' hstate' => ?_
    exact ih (fun s t x y hst hxy hx hy => hstep s t x y hst hxy (.tail _ hx) (.tail _ hy)) hstate'

end Agree

/-- A loop need not visit what its step does nothing about, or what it does not get to: the loop over
the rest has failed before. -/
theorem foldlM_filter_of_reached {f : σ → α → Except ε σ} {keep : α → Bool} {xs : List α} {s : σ}
    (hskip : ∀ l x r t, xs = l ++ x :: r → keep x = false → (l.filter keep).foldlM f s = .ok t →
      f t x = .ok t) :
    xs.foldlM f s = (xs.filter keep).foldlM f s := by
  induction xs using List.reverseRecOn with
  | nil => rfl
  | append_singleton xs y ih =>
    have ih := ih fun l x r t hxs hx hl => hskip l x (r ++ [y]) t (by simp [hxs]) hx hl
    rw [List.foldlM_append, List.filter_append, List.foldlM_append, ih]
    cases hloop : (xs.filter keep).foldlM f s with
    | error e => rfl
    | ok t =>
      show [y].foldlM f t = ([y].filter keep).foldlM f t
      cases hkeep : keep y with
      | false =>
        rw [List.filter_cons_of_neg (by simp [hkeep]), List.foldlM_cons, hskip xs y [] t rfl hkeep hloop]
        rfl
      | true => rw [List.filter_cons_of_pos hkeep, List.filter_nil]

/-- A loop that returns has made its step on everything it visits. -/
theorem foldlM_ok_of_mem {f : σ → α → Except ε σ} {xs : List α} {s t : σ}
    (h : xs.foldlM f s = .ok t) {x : α} (hx : x ∈ xs) : ∃ u v, f u x = .ok v := by
  induction xs generalizing s with
  | nil => cases hx
  | cons y xs ih =>
    rw [List.foldlM_cons] at h
    cases hy : f s y with
    | error e =>
      rw [hy] at h
      cases h
    | ok u =>
      rw [hy] at h
      obtain rfl | hx := List.mem_cons.mp hx
      · exact ⟨s, u, hy⟩
      · exact ih h hx

/-- What a loop throws is thrown by its step on something, after it got through what comes before. -/
theorem foldlM_error_split {f : σ → α → Except ε σ} {xs : List α} {s : σ} {e : ε}
    (h : xs.foldlM f s = .error e) :
    ∃ l x r u, xs = l ++ x :: r ∧ l.foldlM f s = .ok u ∧ f u x = .error e := by
  induction xs generalizing s with
  | nil => cases h
  | cons y xs ih =>
    rw [List.foldlM_cons] at h
    cases hy : f s y with
    | error e' =>
      rw [hy] at h
      cases h
      exact ⟨[], y, xs, s, rfl, rfl, hy⟩
    | ok u =>
      rw [hy] at h
      obtain ⟨l, x, r, v, rfl, hl, hx⟩ := ih h
      exact ⟨y :: l, x, r, v, rfl, by rw [List.foldlM_cons, hy]; exact hl, hx⟩

theorem foldlM_append_cons_error {f : σ → α → Except ε σ} {l : List α} {x : α} {s t : σ} {e : ε}
    (hl : l.foldlM f s = .ok t) (hx : f t x = .error e) (r : List α) :
    (l ++ x :: r).foldlM f s = .error e := by
  rw [List.foldlM_append, hl]
  show (x :: r).foldlM f t = .error e
  rw [List.foldlM_cons, hx]
  rfl

end MiniDebugger
