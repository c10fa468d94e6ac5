import Mathlib.Algebra.BigOperators.Group.List.Basic
import Mathlib.Data.List.Induction

/-!
# Accumulators

An accumulator is a register that is added to and set. Its exact value is what was last put into it
and the sum of what has been added since; a register of `w` bits holds that value as long as no
addition has wrapped.
-/

namespace MiniDebugger.Accumulator

/-- What is done to an accumulator. -/
inductive Update (α : Type) where
  | add (delta : α)
  | set (value : α)

variable {α : Type}

namespace Update

/-- What is added; a register that is set is left at its value. -/
def delta [Zero α] : Update α → α
  | add delta => delta
  | set _ => 0

def isAdd : Update α → Bool
  | add _ => true
  | set _ => false

def value? : Update α → Option α
  | add _ => none
  | set value => some value

def apply [Add α] (old : α) : Update α → α
  | add delta => old + delta
  | set value => value

end Update

/-- The additions since the accumulator was set. -/
def since (updates : List (Update α)) : List (Update α) :=
  (updates.reverse.takeWhile Update.isAdd).reverse

/-- What the accumulator was set to, or what it began with. -/
def base (start : α) (updates : List (Update α)) : α :=
  (updates.reverse.findSome? Update.value?).getD start

/-- The exact value after some updates. -/
def exact [AddMonoid α] (start : α) (updates : List (Update α)) : α :=
  base start updates + ((since updates).map Update.delta).sum

section Exact

variable [AddMonoid α]

theorem exact_nil (start : α) : exact start [] = start := by
  simp [exact, base, since]

theorem exact_concat (start : α) (updates : List (Update α)) (update : Update α) :
    exact start (updates ++ [update]) = update.apply (exact start updates) := by
  unfold exact base since
  rw [List.reverse_concat, List.takeWhile_cons, List.findSome?_cons]
  cases update with
  | add delta => simp [Update.apply, Update.isAdd, Update.value?, Update.delta, add_assoc]
  | set value => simp [Update.apply, Update.isAdd, Update.value?]

/-- The exact value is what the updates leave one after another. -/
theorem exact_eq_foldl (start : α) (updates : List (Update α)) :
    exact start updates = updates.foldl Update.apply start := by
  induction updates using List.reverseRecOn with
  | nil => exact exact_nil start
  | append_singleton updates update ih => rw [exact_concat, ih, List.foldl_concat]

theorem exact_cons (start : α) (update : Update α) (updates : List (Update α)) :
    exact start (update :: updates) = exact (update.apply start) updates := by
  rw [exact_eq_foldl, exact_eq_foldl, List.foldl_cons]

end Exact

/-- An addition that does not wrap is exact. -/
theorem toNat_add_of_lt {w : Nat} {register : BitVec w} {delta : Nat}
    (h : register.toNat + delta < 2 ^ w) :
    (register + BitVec.ofNat w delta).toNat = register.toNat + delta := by
  rw [BitVec.toNat_add, BitVec.toNat_ofNat, Nat.add_mod_mod, Nat.mod_eq_of_lt h]

end MiniDebugger.Accumulator
