import Mathlib.Data.Option.Basic
import Mathlib.Tactic.Common

/-!
# Computations that coincide

`Coincide` compares two computations only where both return: it asks nothing of one that throws, and
so lets two functions differ in what they refuse and in what they say of it. Loops over one list
coincide when their steps do.
-/

namespace MiniDebugger

variable {ε ε' α β γ δ σ τ : Type}

/-- Where both computations return, their results are related. -/
def Coincide (r : α → β → Prop) (x : Except ε α) (y : Except ε' β) : Prop :=
  ∀ a b, x = .ok a → y = .ok b → r a b

section Coincide

variable {r : α → β → Prop} {q : γ → δ → Prop} {x x' : Except ε α} {y y' : Except ε' β}

theorem coincide_self (x : Except ε α) : Coincide Eq x x := by
  intro a b ha hb
  exact Except.ok.inj (ha.symm.trans hb)

theorem coincide_pure {a : α} {b : β} (h : r a b) :
    Coincide r (pure a : Except ε α) (pure b : Except ε' β) := by
  rintro _ _ ⟨⟩ ⟨⟩
  exact h

theorem coincide_throw_left (e : ε) (y : Except ε' β) : Coincide r (throw e : Except ε α) y := by
  rintro _ _ ⟨⟩

theorem coincide_throw_right (x : Except ε α) (e : ε') : Coincide r x (throw e : Except ε' β) := by
  rintro _ _ _ ⟨⟩

theorem Coincide.bind {f : α → Except ε γ} {g : β → Except ε' δ} (h : Coincide r x y)
    (hf : ∀ a b, r a b → Coincide q (f a) (g b)) : Coincide q (x >>= f) (y >>= g) := by
  intro c d hc hd
  cases x with
  | error e => cases hc
  | ok a =>
    cases y with
    | error e => cases hd
    | ok b => exact hf a b (h a b rfl rfl) c d hc hd

theorem coincide_ite {p : Prop} [Decidable p] (hpos : p → Coincide r x y)
    (hneg : ¬p → Coincide r x' y') : Coincide r (if p then x else x') (if p then y else y') := by
  split
  · exact hpos ‹_›
  · exact hneg ‹_›

theorem coincide_throw_ite {p : Prop} [Decidable p] {e : ε} {e' : ε'}
    (h : ¬p → Coincide r x y) :
    Coincide r (if p then throw e else x) (if p then throw e' else y) :=
  coincide_ite (fun _ => coincide_throw_left e _) h

theorem coincide_ite_throw_left {p : Prop} [Decidable p] {e : ε} (h : ¬p → Coincide r x y) :
    Coincide r (if p then throw e else x) y := by
  split
  · exact coincide_throw_left e y
  · exact h ‹_›

theorem coincide_ite_throw_right {p : Prop} [Decidable p] {e : ε'} (h : ¬p → Coincide r x y) :
    Coincide r x (if p then throw e else y) := by
  split
  · exact coincide_throw_right x e
  · exact h ‹_›

theorem coincide_foldlM {state : σ → τ → Prop} {f : σ → α → Except ε σ} {g : τ → α → Except ε' τ}
    (hstep : ∀ s t a, state s t → Coincide state (f s a) (g t a)) (l : List α) {s : σ} {t : τ}
    (hstate : state s t) : Coincide state (l.foldlM f s) (l.foldlM g t) := by
  induction l generalizing s t with
  | nil => exact coincide_pure hstate
  | cons a l ih =>
    rw [List.foldlM_cons, List.foldlM_cons]
    exact (hstep s t a hstate).bind fun s' t' hstate' => ih hstate'

end Coincide

end MiniDebugger
