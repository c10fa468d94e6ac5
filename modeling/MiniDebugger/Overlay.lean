import Mathlib.Logic.Function.Basic

/-!
# Patched memory

A debugger writes a mark over some cells of a memory it does not own and keeps what was there. A
`Patch` is one such cell: the saved value, and whether the mark is in place or the saved value has
been put back for the moment.

`Armed` says that the memory shows what the patches say, and `logical` is the memory as its owner
would see it without the marks. `Armed.update` and `logical_update` cover placing, lifting,
replacing and removing a mark: a patch and its cell change together.
-/

namespace MiniDebugger

open Function (update update_self update_of_ne)

structure Patch (V : Type) where
  saved : V
  applied : Bool
  deriving DecidableEq, Repr

/-- What a cell holds while it has this patch. -/
def Patch.cell {V : Type} (p : Patch V) (mark : V) : V := if p.applied then mark else p.saved

namespace Overlay

variable {A V : Type}

/-- Every patched cell holds the mark, or the saved value while the mark is lifted. -/
def Armed (mark : V) (patches : A → Option (Patch V)) (m : A → Option V) : Prop :=
  ∀ a p, patches a = some p → m a = some (p.cell mark)

/-- A cell as its owner sees it. -/
def seen (patch : Option (Patch V)) (cell : Option V) : Option V :=
  match patch with
  | some p => if p.applied then some p.saved else cell
  | none => cell

/-- The memory with the saved values in place of the marks. -/
def logical (patches : A → Option (Patch V)) (m : A → Option V) : A → Option V := fun a =>
  seen (patches a) (m a)

variable {mark : V} {patches : A → Option (Patch V)} {m m' : A → Option V} {a : A}

theorem Armed.agree (h : Armed mark patches m) (hm : ∀ a, patches a ≠ none → m' a = m a) :
    Armed mark patches m' := by
  intro a p hp
  rw [hm a (by simp [hp])]
  exact h a p hp

variable [DecidableEq A] {x : Option (Patch V)} {y : Option V}

/-- A patch changes together with its cell. -/
theorem Armed.update (h : Armed mark patches m)
    (hx : ∀ p, x = some p → y = some (p.cell mark)) :
    Armed mark (update patches a x) (update m a y) := by
  intro b p hp
  by_cases hb : b = a
  · subst hb
    rw [update_self] at hp ⊢
    exact hx p hp
  · rw [update_of_ne hb] at hp ⊢
    exact h b p hp

theorem Armed.forget (h : Armed mark patches m) : Armed mark (Function.update patches a none) m := by
  have := h.update (a := a) (x := none) (y := m a) (by simp)
  rwa [Function.update_eq_self] at this

/-- A change that shows the same value leaves the logical memory as it was. -/
theorem logical_update (hx : seen x y = logical patches m a) :
    logical (update patches a x) (update m a y) = logical patches m := by
  funext b
  by_cases hb : b = a
  · subst hb
    simpa [logical] using hx
  · simp [logical, update_of_ne hb]

end Overlay

end MiniDebugger
