import MiniDebugger.Dwarf.Leb128Readers
import MiniDebugger.Dwarf.Window

/-!
# Following a reader

`Remaining` says which bytes a cursor has before it up to the limit of a reader. Given what stands
there, a scalar, an operand or some bytes to pass, it says what the reader returns and what remains
after it.

Operands carry that they are encodings: any a reader takes, padded ones among them.
-/

namespace MiniDebugger

open Leb128

/-! ## Putting readers together -/

theorem bind_of_read {α β : Type} {x : Parse α} {f : α → Parse β} {cursor next : Nat} {a : α}
    (h : x cursor = .ok (a, next)) : (x >>= f) cursor = f a next := by
  simp only [bind, StateT.bind, Except.bind, h]

theorem bind_of_throw {α β : Type} {x : Parse α} {f : α → Parse β} {cursor : Nat} {e : Exception}
    (h : x cursor = .error e) : (x >>= f) cursor = .error e := by
  simp only [bind, StateT.bind, Except.bind, h]

theorem get_bind {β : Type} (f : Nat → Parse β) (cursor : Nat) :
    ((get : Parse Nat) >>= f) cursor = f cursor cursor := rfl

theorem set_bind {β : Type} (f : PUnit → Parse β) (cursor next : Nat) :
    ((set next : Parse PUnit) >>= f) cursor = f () next := rfl

theorem lift_bind {α β : Type} (x : Except Exception α) (f : α → Parse β) (cursor : Nat) :
    ((liftM x : Parse α) >>= f) cursor = x >>= fun a => f a cursor := by
  cases x with
  | ok a => rfl
  | error e => rfl

/-- A reader that succeeds has passed its check. -/
theorem ite_throw_ok {α : Type} {p : Prop} [Decidable p] {e : Exception} {x : Parse α}
    {cursor next : Nat} {a : α} (h : (if p then throw e else x) cursor = .ok (a, next)) :
    ¬p ∧ x cursor = .ok (a, next) := by
  split at h
  · cases h
  next hp => exact ⟨hp, h⟩

/-! ## Operands -/

/-- A signed operand, in any encoding a reader takes. -/
structure SignedOperand where
  digits : List Byte
  isNumber : IsNumber digits
  length_le : digits.length ≤ 10

/-- An unsigned operand of 64 bits, in any encoding a reader takes. -/
structure UnsignedOperand where
  digits : List Byte
  isNumber : IsNumber digits
  length_le : digits.length ≤ 10
  fits : FitsUnsigned (unsignedValue digits)

def SignedOperand.value (operand : SignedOperand) : Word :=
  BitVec.ofInt 64 (signedValue operand.digits)

def UnsignedOperand.value (operand : UnsignedOperand) : Word :=
  BitVec.ofNat 64 (unsignedValue operand.digits)

/-- The operand of a word in the fewest bytes. -/
def UnsignedOperand.ofWord (word : Word) : UnsignedOperand where
  digits := encodeUnsigned word.toNat
  isNumber := isNumber_encodeUnsigned _
  length_le := length_encodeUnsigned_le (Nat.lt_trans word.isLt (by decide))
  fits := by
    rw [unsignedValue_encodeUnsigned]
    exact word.isLt

theorem UnsignedOperand.value_ofWord (word : Word) : (ofWord word).value = word := by
  unfold UnsignedOperand.value ofWord
  rw [unsignedValue_encodeUnsigned, BitVec.ofNat_toNat, BitVec.setWidth_eq]

/-- The bytes of a field, lowest first. -/
def fieldBytes : Nat → Nat → List Byte
  | 0, _ => []
  | size + 1, value => BitVec.ofNat 8 value :: fieldBytes size (value / 256)

@[simp] theorem length_fieldBytes (size value : Nat) : (fieldBytes size value).length = size := by
  induction size generalizing value with
  | zero => rfl
  | succ size ih => rw [fieldBytes, List.length_cons, ih]

theorem littleEndian_fieldBytes (size value : Nat) :
    littleEndian (fieldBytes size value) = value % 256 ^ size := by
  induction size generalizing value with
  | zero => simp [fieldBytes, littleEndian, Nat.mod_one]
  | succ size ih =>
    have hpow : 256 ^ (size + 1) = 256 * 256 ^ size := Nat.pow_succ'
    rw [fieldBytes, littleEndian, ih, BitVec.toNat_ofNat, hpow]
    exact Nat.mod_mul.symm

/-! ## What remains -/

/-- The bytes from a cursor to the limit of a reader. -/
structure Remaining (bytes : List Byte) (limit cursor : Nat) (rest : List Byte) : Prop where
  drop_eq : (bytes.take limit).drop cursor = rest
  length_eq : cursor + rest.length = limit
  limit_le : limit ≤ bytes.length

namespace Remaining

variable {bytes rest passed : List Byte} {byte : Byte} {limit cursor size value : Nat}
  {what : String}

/-- The whole of some bytes. -/
theorem start (bytes : List Byte) : Remaining bytes bytes.length 0 bytes := by
  refine ⟨?_, by simp, le_refl _⟩
  rw [List.take_length, List.drop_zero]

/-- A part of some bytes. -/
theorem within (before rest after : List Byte) :
    Remaining (before ++ (rest ++ after)) (before.length + rest.length) before.length rest := by
  refine ⟨?_, rfl, ?_⟩
  · rw [List.take_length_add_append, List.take_left, List.drop_left]
  · simp only [List.length_append]
    omega

theorem append (h : Remaining bytes limit cursor (passed ++ rest)) :
    Remaining bytes limit (cursor + passed.length) rest := by
  refine ⟨?_, ?_, h.limit_le⟩
  · rw [← List.drop_drop, h.drop_eq, List.drop_left]
  · have := h.length_eq
    rw [List.length_append] at this
    omega

theorem tail (h : Remaining bytes limit cursor (byte :: rest)) :
    Remaining bytes limit (cursor + 1) rest := by
  have hsingle : Remaining bytes limit cursor ([byte] ++ rest) := h
  exact hsingle.append

theorem lt_limit (h : Remaining bytes limit cursor (byte :: rest)) : cursor < limit := by
  have := h.length_eq
  rw [List.length_cons] at this
  omega

theorem getElem? (h : Remaining bytes limit cursor (byte :: rest)) :
    bytes[cursor]? = some byte := by
  rw [← List.getElem?_take_of_lt h.lt_limit, ← List.head?_drop, h.drop_eq, List.head?_cons]

theorem stop (h : Remaining bytes limit cursor []) : cursor = limit := by
  simpa using h.length_eq

/-- The bytes at the cursor. -/
theorem slice (h : Remaining bytes limit cursor (passed ++ rest)) :
    (bytes.drop cursor).take passed.length = passed := by
  have hlength := h.length_eq
  have htake := congrArg (List.take passed.length) h.drop_eq
  rw [List.length_append] at hlength
  rwa [List.drop_take, List.take_take, Nat.min_eq_left (by omega), List.take_left] at htake

theorem numberAt {digits : List Byte} (hnumber : IsNumber digits) (hlength : digits.length ≤ 10)
    (h : Remaining bytes limit cursor (digits ++ rest)) :
    numberAt bytes limit cursor = some digits := by
  unfold MiniDebugger.numberAt
  rw [h.drop_eq]
  exact firstNumber_eq_some.mpr ⟨hnumber, hlength, List.prefix_append _ _⟩

theorem readDwarfSleb {operand : SignedOperand}
    (h : Remaining bytes limit cursor (operand.digits ++ rest)) :
    readDwarfSleb bytes limit what cursor =
      .ok (operand.value.toInt, cursor + operand.digits.length) :=
  (readSleb_eq_ok (.debugInfo what)).mpr
    ⟨operand.digits, h.numberAt operand.isNumber operand.length_le, (fun h => by cases h), rfl, rfl⟩

theorem readDwarfUleb {operand : UnsignedOperand}
    (h : Remaining bytes limit cursor (operand.digits ++ rest)) :
    readDwarfUleb bytes limit what cursor = .ok (operand.value, cursor + operand.digits.length) :=
  (readUleb_eq_ok (.debugInfo what)).mpr
    ⟨operand.digits, h.numberAt operand.isNumber operand.length_le, operand.fits, rfl, rfl⟩

theorem readAt (h : Remaining bytes limit cursor (fieldBytes size value ++ rest))
    (hvalue : value < 256 ^ size) : readAt bytes cursor size what = .ok value := by
  have hlength := h.length_eq
  have hlimit := h.limit_le
  have hslice := h.slice
  rw [List.length_append, length_fieldBytes] at hlength
  rw [length_fieldBytes] at hslice
  rw [Window.readAt_eq (by omega), hslice, littleEndian_fieldBytes, Nat.mod_eq_of_lt hvalue]

theorem readDwarfScalar (h : Remaining bytes limit cursor (fieldBytes size value ++ rest))
    (hvalue : value < 256 ^ size) :
    readDwarfScalar bytes limit size what cursor = .ok (value, cursor + size) := by
  have hlength := h.length_eq
  rw [List.length_append, length_fieldBytes] at hlength
  unfold MiniDebugger.readDwarfScalar
  rw [if_neg (by omega), h.readAt hvalue]
  rfl

end Remaining

end MiniDebugger
