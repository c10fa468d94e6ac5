import MiniDebugger.Process

/-!
# Reading call-frame sections

The bounded readers shared by the two `.eh_frame` readers. A `Parse` moves a cursor over the bytes
of a section and throws what the source throws when a field crosses the end of its entry.

`Forward` says that a reader never moves the cursor back; it is what makes the loops over opcodes
and entries terminate.
-/

namespace MiniDebugger

/-- A reader of section bytes with the cursor as its state. -/
abbrev Parse := StateT Nat (Except Exception)

/-- The unsigned value of bytes stored lowest first. -/
def littleEndian : List Byte → Nat
  | [] => 0
  | byte :: bytes => byte.toNat + 256 * littleEndian bytes

theorem littleEndian_lt (bytes : List Byte) : littleEndian bytes < 256 ^ bytes.length := by
  induction bytes with
  | nil => simp [littleEndian]
  | cons byte bytes ih =>
    have hbyte := byte.isLt
    rw [littleEndian, List.length_cons, Nat.pow_succ]
    omega

/-- The two's complement reading of an unsigned field of `size` bytes. -/
def signedField (size value : Nat) : Int := (BitVec.ofNat (8 * size) value).toInt

/-- `read_at` for a field of `size` bytes -/
def readAt (bytes : List Byte) (offset size : Nat) (what : String) : Except Exception Nat :=
  if bytes.length < offset ∨ bytes.length - offset < size then
    throw (.runtimeError (what ++ " extends past end of data"))
  else return littleEndian ((bytes.drop offset).take size)

/-- `read_scalar` -/
def readScalar (bytes : List Byte) (limit size : Nat) (what : String) : Parse Nat := fun cursor =>
  if limit < cursor ∨ limit - cursor < size then
    throw (.runtimeError (what ++ " extends past CFI entry boundary"))
  else do
    let value ← readAt bytes cursor size what
    return (value, cursor + size)

def kPcrelSdata4 : Nat := 0x1b
def kPcrelSdata8 : Nat := 0x1c
def kPcrelIndirectSdata4 : Nat := 0x9b
def kPcrelIndirectSdata8 : Nat := 0x9c

def isPcrelSignedEncoding (encoding : Nat) : Bool :=
  encoding = kPcrelSdata4 || encoding = kPcrelSdata8

def isPcrelIndirectSignedEncoding (encoding : Nat) : Bool :=
  encoding = kPcrelIndirectSdata4 || encoding = kPcrelIndirectSdata8

/-- `read_signed_encoded_value`; the signal index calls it `read_signed_pointer` and words the
error differently. -/
def readSignedEncodedValue (unsupported : String) (bytes : List Byte) (limit encoding : Nat)
    (what : String) : Parse Int :=
  if encoding = kPcrelSdata4 ∨ encoding = kPcrelIndirectSdata4 then
    return signedField 4 (← readScalar bytes limit 4 what)
  else if encoding = kPcrelSdata8 ∨ encoding = kPcrelIndirectSdata8 then
    return signedField 8 (← readScalar bytes limit 8 what)
  else throw (.runtimeError unsupported)

/-- The loop of `read_uleb`, with `count` rounds left. -/
def readUlebRounds (bytes : List Byte) (limit : Nat) : Nat → Nat → Word → Parse Word
  | 0, _, _ => throw (.runtimeError "ULEB128 is too long")
  | count + 1, shift, result => do
    let byte ← readScalar bytes limit 1 "ULEB128"
    let payload := byte &&& 0x7f
    if 63 < shift ∨ (shift = 63 ∧ 1 < payload) then
      throw (.runtimeError "ULEB128 overflows 64 bits")
    let result := result ||| (BitVec.ofNat 64 payload <<< shift)
    if byte &&& 0x80 = 0 then return result
    readUlebRounds bytes limit count (shift + 7) result

def readUleb (bytes : List Byte) (limit : Nat) : Parse Word := readUlebRounds bytes limit 10 0 0

/-- The loop of `read_sleb`, with `count` rounds left. -/
def readSlebRounds (bytes : List Byte) (limit : Nat) : Nat → Nat → Word → Parse Int
  | 0, _, _ => throw (.runtimeError "SLEB128 is too long")
  | count + 1, shift, result => do
    let byte ← readScalar bytes limit 1 "SLEB128"
    let result := result ||| (BitVec.ofNat 64 (byte &&& 0x7f) <<< shift)
    let shift := shift + 7
    if byte &&& 0x80 = 0 then
      if byte &&& 0x40 ≠ 0 ∧ shift < 64 then
        return (result ||| (BitVec.allOnes 64 <<< shift)).toInt
      return result.toInt
    readSlebRounds bytes limit count shift result

def readSleb (bytes : List Byte) (limit : Nat) : Parse Int := readSlebRounds bytes limit 10 0 0

/-- The loop of `read_c_string`; `room` is the distance of the cursor to the limit. -/
def readCStringFrom (bytes : List Byte) (what : String) : Nat → List Char → Parse (List Char)
  | 0, _ => throw (.runtimeError ("unterminated " ++ what))
  | room + 1, result => fun cursor =>
    match bytes[cursor]? with
    | none => throw (.runtimeError ("unterminated " ++ what))
    | some value =>
      if value = 0 then return (result, cursor + 1)
      else readCStringFrom bytes what room (result ++ [Char.ofNat value.toNat]) (cursor + 1)

def readCString (bytes : List Byte) (limit : Nat) (what : String) : Parse (List Char) :=
  fun cursor => readCStringFrom bytes what (limit - cursor) [] cursor

def addSigned (base : Word) (offset : Int) (what : String) : Except Exception Word :=
  if 0 ≤ offset then
    if 2 ^ 64 ≤ base.toNat + offset.toNat then
      throw (.runtimeError (what ++ " overflows address space"))
    else return base + BitVec.ofNat 64 offset.toNat
  else if base.toNat < (-offset).toNat then
    throw (.runtimeError (what ++ " underflows address space"))
  else return base - BitVec.ofNat 64 (-offset).toNat

/-! ## Readers move forward -/

/-- A successful read does not move the cursor back. -/
def Forward {α : Type} (x : Parse α) : Prop :=
  ∀ {cursor : Nat} {a : α} {next : Nat}, x cursor = .ok (a, next) → cursor ≤ next

section Forward

variable {α β : Type} {bytes : List Byte} {limit size : Nat} {what : String}

theorem forward_pure (a : α) : Forward (pure a : Parse α) := by
  intro cursor b next h
  cases h
  exact le_refl _

theorem forward_throw (e : Exception) : Forward (throw e : Parse α) := by
  intro cursor a next h
  cases h

/-- A bind of readers that succeeds is two readers that succeed. -/
theorem bind_ok {x : Parse α} {f : α → Parse β} {cursor next : Nat} {b : β}
    (h : (x >>= f) cursor = .ok (b, next)) :
    ∃ a middle, x cursor = .ok (a, middle) ∧ f a middle = .ok (b, next) := by
  cases hx : x cursor with
  | error e =>
    simp only [bind, StateT.bind, Except.bind, hx] at h
    cases h
  | ok result =>
    obtain ⟨a, middle⟩ := result
    refine ⟨a, middle, rfl, ?_⟩
    simpa only [bind, StateT.bind, Except.bind, hx] using h

theorem forward_bind {x : Parse α} {f : α → Parse β} (hx : Forward x)
    (hf : ∀ a, Forward (f a)) : Forward (x >>= f) := by
  intro cursor b next h
  obtain ⟨a, middle, hfirst, hrest⟩ := bind_ok h
  exact (hx hfirst).trans (hf a hrest)

theorem forward_lift (x : Except Exception α) : Forward (liftM x : Parse α) := by
  intro cursor a next h
  cases x with
  | error e => cases h
  | ok b =>
    cases h
    exact le_refl _

theorem forward_ite {c : Prop} [Decidable c] {x y : Parse α} (hx : Forward x) (hy : Forward y) :
    Forward (if c then x else y) := by
  split
  · exact hx
  · exact hy

/-- A scalar takes exactly its size. -/
theorem readScalar_next {cursor value next : Nat}
    (h : readScalar bytes limit size what cursor = .ok (value, next)) : next = cursor + size := by
  unfold readScalar at h
  split at h
  · cases h
  · cases hread : readAt bytes cursor size what with
    | error e => rw [hread] at h; cases h
    | ok v => rw [hread] at h; cases h; rfl

theorem forward_readScalar : Forward (readScalar bytes limit size what) := by
  intro cursor value next h
  have := readScalar_next h
  omega

theorem forward_readUlebRounds (count shift : Nat) (result : Word) :
    Forward (readUlebRounds bytes limit count shift result) := by
  induction count generalizing shift result with
  | zero => exact forward_throw _
  | succ count ih =>
    refine forward_bind forward_readScalar fun byte => ?_
    refine forward_ite (forward_throw _) ?_
    exact forward_ite (forward_pure _) (ih _ _)

theorem forward_readUleb : Forward (readUleb bytes limit) := forward_readUlebRounds _ _ _

theorem readCStringFrom_next {bytes : List Byte} {what : String} {room : Nat}
    {result text : List Char} {cursor next : Nat}
    (h : readCStringFrom bytes what room result cursor = .ok (text, next)) :
    cursor < next ∧ next ≤ cursor + room := by
  induction room generalizing result cursor with
  | zero => cases h
  | succ room ih =>
    unfold readCStringFrom at h
    split at h
    · cases h
    · split at h
      · cases h
        omega
      · have := ih h
        omega

/-- A string has at least its terminator, and ends within the limit. -/
theorem readCString_next {bytes : List Byte} {limit : Nat} {what : String} {text : List Char}
    {cursor next : Nat} (h : readCString bytes limit what cursor = .ok (text, next)) :
    cursor < next ∧ next ≤ limit := by
  have := readCStringFrom_next h
  omega

end Forward

end MiniDebugger
