import MiniDebugger.Agree
import MiniDebugger.Dwarf.Rows

/-!
# What a reader can see

Every reader of an entry is bounded by the end of the entry, so that its result depends only on the
bytes between its cursor and that end. `Alike` says so for two readers of two sections, and the rules
for it follow the way readers are put together.
-/

namespace MiniDebugger

/-- The part of a section up to the end of an entry. -/
structure Window where
  bytes : List Byte
  limit : Nat
  fits : limit ≤ bytes.length

namespace Window

/-- The bytes from the cursor to the end. -/
def rest (w : Window) (cursor : Nat) : List Byte := (w.bytes.take w.limit).drop cursor

variable {w v : Window} {i j : Nat}

@[simp] theorem length_rest (w : Window) (i : Nat) : (w.rest i).length = w.limit - i := by
  rw [rest, List.length_drop, List.length_take, Nat.min_eq_left w.fits]

theorem rest_add (w : Window) (i n : Nat) : w.rest (i + n) = (w.rest i).drop n := by
  rw [rest, rest, List.drop_drop]

theorem take_rest {n : Nat} (h : i + n ≤ w.limit) :
    (w.rest i).take n = (w.bytes.drop i).take n := by
  rw [rest, List.drop_take, List.take_take, Nat.min_eq_left (by omega)]

theorem lt_limit_iff (h : w.rest i = v.rest j) : i < w.limit ↔ j < v.limit := by
  have hlength := congrArg List.length h
  rw [length_rest, length_rest] at hlength
  omega

/-- Two readers find the same where the rest of their entries is the same. -/
def Alike {α : Type} (w v : Window) (x y : Parse α) : Prop :=
  ∀ i j, w.rest i = v.rest j →
    Agree (fun p q => p.1 = q.1 ∧ w.rest p.2 = v.rest q.2) (x i) (y j)

section Alike

variable {α β : Type}

theorem alike_pure (a : α) : Alike w v (pure a) (pure a) := fun _ _ h => .ok ⟨rfl, h⟩

theorem alike_throw (e : Exception) : Alike w v (throw e : Parse α) (throw e) :=
  fun _ _ _ => .error e

theorem alike_lift (x : Except Exception α) : Alike w v (liftM x) (liftM x) := by
  intro i j h
  cases x with
  | error e => exact .error e
  | ok a => exact .ok ⟨rfl, h⟩

theorem alike_bind {x y : Parse α} {f g : α → Parse β} (hx : Alike w v x y)
    (hf : ∀ a, Alike w v (f a) (g a)) : Alike w v (x >>= f) (y >>= g) := by
  intro i j h
  refine (hx i j h).bind fun p q hpq => ?_
  obtain ⟨a, next⟩ := p
  obtain ⟨b, next'⟩ := q
  obtain ⟨rfl, hrest⟩ := hpq
  exact hf a next next' hrest

theorem alike_ite {c : Prop} [Decidable c] {x y x' y' : Parse α} (hx : Alike w v x y)
    (hx' : Alike w v x' y') : Alike w v (if c then x else x') (if c then y else y') := by
  split
  · exact hx
  · exact hx'

theorem readAt_eq {bytes : List Byte} {offset size : Nat} {what : String}
    (h : offset + size ≤ bytes.length) :
    readAt bytes offset size what = .ok (littleEndian ((bytes.drop offset).take size)) := by
  unfold readAt
  rw [if_neg (by omega)]
  rfl

theorem alike_readScalar {size : Nat} (hsize : size ≠ 0) (what : String) :
    Alike w v (readScalar w.bytes w.limit size what) (readScalar v.bytes v.limit size what) := by
  intro i j h
  have hlength := congrArg List.length h
  rw [length_rest, length_rest] at hlength
  have hw := w.fits
  have hv := v.fits
  unfold readScalar
  by_cases hroom : size ≤ w.limit - i
  · rw [if_neg (by omega), if_neg (by omega), readAt_eq (by omega), readAt_eq (by omega)]
    refine .ok ⟨?_, ?_⟩
    · rw [← take_rest (by omega), ← take_rest (by omega), h]
    · rw [rest_add, rest_add, h]
  · rw [if_pos (by omega), if_pos (by omega)]
    exact .error _

theorem alike_readUlebRounds (count shift : Nat) (result : Word) :
    Alike w v (readUlebRounds w.bytes w.limit count shift result)
      (readUlebRounds v.bytes v.limit count shift result) := by
  induction count generalizing shift result with
  | zero => exact alike_throw _
  | succ count ih =>
    refine alike_bind (alike_readScalar (by decide) _) fun byte => ?_
    refine alike_ite (alike_throw _) ?_
    exact alike_ite (alike_pure _) (ih _ _)

theorem alike_readUleb : Alike w v (readUleb w.bytes w.limit) (readUleb v.bytes v.limit) :=
  alike_readUlebRounds _ _ _

end Alike

/-! ## Call-frame instructions -/

section Execute

variable {cie cie' : Cie} {initial : Option CfiState} {target : Word} {machine : CfiMachine}

/-- What the instructions use of a CIE. -/
structure SameScale (cie cie' : Cie) : Prop where
  code : cie.codeAlignment = cie'.codeAlignment
  data : cie.dataAlignment = cie'.dataAlignment

theorem advance_congr (h : SameScale cie cie') (target units : Word) (machine : CfiMachine) :
    advance cie target units machine = advance cie' target units machine := by
  unfold advance
  rw [h.code]

theorem alike_executeExtended (h : SameScale cie cie') (opcode : Nat) :
    Alike w v (executeExtended w.bytes w.limit cie initial target machine opcode)
      (executeExtended v.bytes v.limit cie' initial target machine opcode) := by
  unfold executeExtended
  simp only [advance_congr h, h.data]
  split
  · exact alike_pure _
  · exact alike_bind (alike_readScalar (by decide) _) fun _ => alike_lift _
  · exact alike_bind (alike_readScalar (by decide) _) fun _ => alike_lift _
  · exact alike_bind (alike_readScalar (by decide) _) fun _ => alike_lift _
  · refine alike_bind alike_readUleb fun _ => alike_bind alike_readUleb fun _ => ?_
    exact alike_bind (alike_lift _) fun _ => alike_pure _
  · refine alike_bind alike_readUleb fun _ => ?_
    exact alike_bind (alike_lift _) fun _ => alike_pure _
  · exact alike_bind alike_readUleb fun _ => alike_pure _
  · exact alike_bind alike_readUleb fun _ => alike_pure _
  · exact alike_pure _
  · split
    · exact alike_throw _
    · exact alike_pure _
  · refine alike_bind alike_readUleb fun _ => alike_bind alike_readUleb fun _ => ?_
    exact alike_ite (alike_throw _) (alike_pure _)
  · refine alike_ite (alike_throw _) ?_
    exact alike_bind alike_readUleb fun _ => alike_pure _
  · refine alike_ite (alike_throw _) (alike_bind alike_readUleb fun _ => ?_)
    exact alike_ite (alike_throw _) (alike_pure _)
  · exact alike_bind alike_readUleb fun _ => alike_pure _
  · exact alike_throw _

theorem alike_executeOpcode (h : SameScale cie cie') :
    Alike w v (executeOpcode w.bytes w.limit cie initial target machine)
      (executeOpcode v.bytes v.limit cie' initial target machine) := by
  unfold executeOpcode
  simp only [advance_congr h, h.data]
  refine alike_bind (alike_readScalar (by decide) _) fun opcode => ?_
  refine alike_ite (alike_lift _) (alike_ite ?_ (alike_ite ?_ ?_))
  · refine alike_bind alike_readUleb fun _ => ?_
    exact alike_bind (alike_lift _) fun _ => alike_pure _
  · exact alike_bind (alike_lift _) fun _ => alike_pure _
  · exact alike_executeExtended h opcode

/-- Instructions do the same wherever they stand. -/
theorem execute_congr (h : SameScale cie cie') (hrest : w.rest i = v.rest j) :
    execute w.bytes w.limit cie initial target machine i =
      execute v.bytes v.limit cie' initial target machine j := by
  induction hroom : w.limit - i using Nat.strongRecOn generalizing machine i j with
  | ind room ih =>
    subst hroom
    by_cases hi : i < w.limit
    · have hj := (lt_limit_iff hrest).mp hi
      have hstep : Alike w v (executeOpcode w.bytes w.limit cie initial target machine)
          (executeOpcode v.bytes v.limit cie' initial target machine) := alike_executeOpcode h
      specialize hstep i j hrest
      cases hleft : executeOpcode w.bytes w.limit cie initial target machine i with
      | error e =>
        rw [execute_of_error hi hleft, execute_of_error hj (hstep.error_right hleft)]
      | ok result =>
        obtain ⟨next, after⟩ := result
        have hafter := executeOpcode_next hleft
        obtain ⟨⟨next', after'⟩, hright, hsame, hrest'⟩ := hstep.ok_right hleft
        obtain rfl : next = next' := hsame
        cases next with
        | none => rw [execute_of_none hi hleft, execute_of_none hj hright]
        | some m =>
          rw [execute_of_some hi hleft, execute_of_some hj hright]
          exact ih (w.limit - after) (by omega) hrest' rfl
    · rw [execute_of_end hi, execute_of_end (fun hj => hi ((lt_limit_iff hrest).mpr hj))]

end Execute

end Window

end MiniDebugger
