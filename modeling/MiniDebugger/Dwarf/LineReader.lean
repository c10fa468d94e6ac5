import MiniDebugger.Dwarf.Reader

/-!
# Reading `.debug_line`

The bounded readers of the line table. They word their errors differently from the readers of
`.eh_frame`, and `read_sleb` looks at the bits its tenth byte has no room for.
-/

namespace MiniDebugger

/-- `read_at` of the line table, whose bytes are a whole file -/
def readLineAt (bytes : List Byte) (offset size : Nat) (what : String) : Except Exception Nat :=
  if bytes.length < offset ∨ bytes.length - offset < size then
    throw (.runtimeError (what ++ " extends past end of file"))
  else return littleEndian ((bytes.drop offset).take size)

/-- `read_scalar` of the line table -/
def readLineScalar (bytes : List Byte) (limit size : Nat) (what : String) : Parse Nat :=
  fun cursor =>
    if limit < cursor ∨ limit - cursor < size then
      throw (.runtimeError (what ++ " extends past DWARF unit boundary"))
    else do
      let value ← readLineAt bytes cursor size what
      return (value, cursor + size)

/-- The loop of `read_uleb`, with `count` rounds left. -/
def readLineUlebRounds (bytes : List Byte) (limit : Nat) : Nat → Nat → Word → Parse Word
  | 0, _, _ => throw (.runtimeError "ULEB128 operand is too long")
  | count + 1, shift, result => do
    let byte ← readLineScalar bytes limit 1 "ULEB128 operand"
    let payload := byte &&& 0x7f
    if 63 < shift ∨ (shift = 63 ∧ 1 < payload) then
      throw (.runtimeError "ULEB128 operand overflows 64 bits")
    let result := result ||| (BitVec.ofNat 64 payload <<< shift)
    if byte &&& 0x80 = 0 then return result
    readLineUlebRounds bytes limit count (shift + 7) result

def readLineUleb (bytes : List Byte) (limit : Nat) : Parse Word :=
  readLineUlebRounds bytes limit 10 0 0

/-- The loop of `read_sleb`, with `count` rounds left. -/
def readLineSlebRounds (bytes : List Byte) (limit : Nat) : Nat → Nat → Word → Parse Int
  | 0, _, _ => throw (.runtimeError "SLEB128 operand is too long")
  | count + 1, shift, result => do
    let byte ← readLineScalar bytes limit 1 "SLEB128 operand"
    let payload := byte &&& 0x7f
    if 63 < shift ∨ (shift = 63 ∧ payload ≠ 0 ∧ payload ≠ 0x7f) then
      throw (.runtimeError "SLEB128 operand overflows 64 bits")
    let result := result ||| (BitVec.ofNat 64 payload <<< shift)
    let shift := shift + 7
    if byte &&& 0x80 = 0 then
      if byte &&& 0x40 ≠ 0 ∧ shift < 64 then
        return (result ||| (BitVec.allOnes 64 <<< shift)).toInt
      return result.toInt
    readLineSlebRounds bytes limit count shift result

def readLineSleb (bytes : List Byte) (limit : Nat) : Parse Int :=
  readLineSlebRounds bytes limit 10 0 0

/-! ## Readers move within their limit -/

/-- A successful read does not move the cursor back, nor past the limit. -/
def Moves {α : Type} (limit : Nat) (x : Parse α) : Prop :=
  ∀ ⦃cursor a next⦄, x cursor = .ok (a, next) → cursor ≤ limit → cursor ≤ next ∧ next ≤ limit

section Moves

variable {α β : Type} {bytes : List Byte} {limit size : Nat} {what : String}

theorem moves_pure (a : α) : Moves limit (pure a : Parse α) := by
  intro cursor b next h hlimit
  cases h
  exact ⟨le_refl _, hlimit⟩

theorem moves_throw (e : Exception) : Moves limit (throw e : Parse α) := by
  intro cursor a next h
  cases h

theorem moves_bind {x : Parse α} {f : α → Parse β} (hx : Moves limit x)
    (hf : ∀ a, Moves limit (f a)) : Moves limit (x >>= f) := by
  intro cursor b next h hlimit
  obtain ⟨a, middle, hfirst, hrest⟩ := bind_ok h
  obtain ⟨hmiddle, hlimit⟩ := hx hfirst hlimit
  obtain ⟨hnext, hlimit⟩ := hf a hrest hlimit
  exact ⟨hmiddle.trans hnext, hlimit⟩

theorem moves_ite {c : Prop} [Decidable c] {x y : Parse α} (hx : Moves limit x)
    (hy : Moves limit y) : Moves limit (if c then x else y) := by
  split
  · exact hx
  · exact hy

theorem readLineScalar_next {cursor value next : Nat}
    (h : readLineScalar bytes limit size what cursor = .ok (value, next)) :
    next = cursor + size ∧ next ≤ limit := by
  unfold readLineScalar at h
  split at h
  · cases h
  · cases hread : readLineAt bytes cursor size what with
    | error e =>
      rw [hread] at h
      cases h
    | ok v =>
      rw [hread] at h
      cases h
      omega

theorem moves_readLineScalar : Moves limit (readLineScalar bytes limit size what) := by
  intro cursor value next h hlimit
  have := readLineScalar_next h
  omega

theorem moves_readLineUlebRounds (count shift : Nat) (result : Word) :
    Moves limit (readLineUlebRounds bytes limit count shift result) := by
  induction count generalizing shift result with
  | zero => exact moves_throw _
  | succ count ih =>
    refine moves_bind moves_readLineScalar fun byte => ?_
    refine moves_ite (moves_throw _) ?_
    exact moves_ite (moves_pure _) (ih _ _)

theorem moves_readLineUleb : Moves limit (readLineUleb bytes limit) :=
  moves_readLineUlebRounds _ _ _

theorem moves_readLineSlebRounds (count shift : Nat) (result : Word) :
    Moves limit (readLineSlebRounds bytes limit count shift result) := by
  induction count generalizing shift result with
  | zero => exact moves_throw _
  | succ count ih =>
    refine moves_bind moves_readLineScalar fun byte => ?_
    refine moves_ite (moves_throw _) ?_
    refine moves_ite ?_ (ih _ _)
    exact moves_ite (moves_pure _) (moves_pure _)

theorem moves_readLineSleb : Moves limit (readLineSleb bytes limit) :=
  moves_readLineSlebRounds _ _ _

end Moves

end MiniDebugger
