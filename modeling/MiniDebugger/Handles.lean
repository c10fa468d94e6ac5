import Mathlib.Tactic.Common

/-!
# Handles

A counter gives out handles. Each holder has at most one, no two holders have the same, and a holder
finds its handle where it relies on finding it.
-/

namespace MiniDebugger

/-- The handles that `held` tells were given out below `next`, are apart, and are found. -/
structure Handles {H : Type} (next : Nat) (held : H → Option Nat) (found : H → Nat → Prop) :
    Prop where
  below : ∀ {h i}, held h = some i → i < next
  single : ∀ {h k i}, held h = some i → held k = some i → h = k
  found : ∀ {h i}, held h = some i → found h i

namespace Handles

variable {H K : Type} {next : Nat} {held held' : H → Option Nat} {found found' : H → Nat → Prop}

/-- Holders may give up their handles. -/
theorem drop (h : Handles next held found) (hheld : ∀ x i, held' x = some i → held x = some i)
    (hfound : ∀ x i, held' x = some i → found x i → found' x i) :
    Handles next held' found' where
  below hx := h.below (hheld _ _ hx)
  single hx hy := h.single (hheld _ _ hx) (hheld _ _ hy)
  found hx := hfound _ _ hx (h.found (hheld _ _ hx))

/-- The next handle goes to `k`, or to nobody. -/
theorem issue (h : Handles next held found) {k : H}
    (hheld : ∀ x i, held' x = some i → held x = some i ∨ x = k ∧ i = next)
    (hnew : held' k = some next → found' k next)
    (hfound : ∀ x i, held x = some i → found x i → found' x i) :
    Handles (next + 1) held' found' where
  below hx := by
    obtain hold | ⟨-, rfl⟩ := hheld _ _ hx
    · exact Nat.lt_succ_of_lt (h.below hold)
    · exact Nat.lt_succ_self _
  single hx hy := by
    obtain hx | ⟨rfl, rfl⟩ := hheld _ _ hx
    · obtain hy | ⟨-, rfl⟩ := hheld _ _ hy
      · exact h.single hx hy
      · exact absurd (h.below hx) (Nat.lt_irrefl _)
    · obtain hy | ⟨rfl, -⟩ := hheld _ _ hy
      · exact absurd (h.below hy) (Nat.lt_irrefl _)
      · rfl
  found hx := by
    obtain hold | ⟨rfl, rfl⟩ := hheld _ _ hx
    · exact hfound _ _ hold (h.found hold)
    · exact hnew hx

/-- The same handles seen from other holders. -/
theorem comap (h : Handles next held found) {f : K → H} {held' : K → Option Nat}
    {found' : K → Nat → Prop} (hheld : ∀ y i, held' y = some i → held (f y) = some i)
    (hf : ∀ y z i, held' y = some i → held' z = some i → f y = f z → y = z)
    (hfound : ∀ y i, held' y = some i → found (f y) i → found' y i) :
    Handles next held' found' where
  below hy := h.below (hheld _ _ hy)
  single hy hz := hf _ _ _ hy hz (h.single (hheld _ _ hy) (hheld _ _ hz))
  found hy := hfound _ _ hy (h.found (hheld _ _ hy))

end Handles

end MiniDebugger
