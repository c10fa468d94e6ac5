import MiniDebugger.Checks
import MiniDebugger.Dwarf.Operands

/-!
# Decoding from the front

The readers move a cursor towards the end of an entry or a unit; `codeAt` is what they have before
them. `takeField`, `takeNumber` and `takeSigned` decode the front of such bytes, without a cursor and
without a bound on a number: what a reader returns is what they decode.
-/

namespace MiniDebugger

open Leb128

/-- The bytes from a cursor to the end of an entry. -/
def codeAt (bytes : List Byte) (stop cursor : Nat) : List Byte := (bytes.take stop).drop cursor

/-- A field of `size` bytes and what follows it. -/
def takeField (size : Nat) (code : List Byte) : Option (Nat × List Byte) :=
  if code.length < size then none else some (littleEndian (code.take size), code.drop size)

/-- A number and what follows it. -/
def takeNumber (code : List Byte) : Option (Nat × List Byte) :=
  (firstNumber code.length code).map fun digits => (unsignedValue digits, code.drop digits.length)

/-- A signed number and what follows it. -/
def takeSigned (code : List Byte) : Option (Int × List Byte) :=
  (firstNumber code.length code).map fun digits => (signedValue digits, code.drop digits.length)

theorem takeField_suffix {size value : Nat} {code rest : List Byte}
    (h : takeField size code = some (value, rest)) : rest <:+ code := by
  unfold takeField at h
  split at h
  · cases h
  · cases h
    exact List.drop_suffix _ _

theorem takeNumber_suffix {value : Nat} {code rest : List Byte}
    (h : takeNumber code = some (value, rest)) : rest <:+ code := by
  obtain ⟨digits, _, hdrop⟩ := Option.map_eq_some_iff.mp h
  cases hdrop
  exact List.drop_suffix _ _

theorem eq_cons_of_takeField {code rest : List Byte} {value : Nat}
    (h : takeField 1 code = some (value, rest)) : ∃ byte : Byte, code = byte :: rest ∧
      byte.toNat = value := by
  cases code with
  | nil => cases h
  | cons byte code =>
    unfold takeField at h
    rw [if_neg (by simp)] at h
    cases h
    exact ⟨byte, rfl, by simp [littleEndian]⟩

theorem takeField_lt {code rest : List Byte} {size value : Nat}
    (h : takeField size code = some (value, rest)) : value < 256 ^ size := by
  unfold takeField at h
  split at h
  · cases h
  next hlength =>
    cases h
    have hlt := littleEndian_lt (code.take size)
    rwa [List.length_take, Nat.min_eq_left (by omega)] at hlt

/-! ## What the readers return -/

section Reads

variable {bytes taken : List Byte} {stop size cursor next : Nat} {what : String}

theorem codeAt_eq_nil (h : ¬cursor < stop) : codeAt bytes stop cursor = [] := by
  unfold codeAt
  rw [List.drop_eq_nil_iff, List.length_take]
  omega

theorem codeAt_cons {byte : Byte} (hlimit : cursor < stop) (h : bytes[cursor]? = some byte) :
    codeAt bytes stop cursor = byte :: codeAt bytes stop (cursor + 1) := by
  obtain ⟨hlength, rfl⟩ := List.getElem?_eq_some_iff.mp h
  unfold codeAt
  rw [List.drop_eq_getElem_cons (by rw [List.length_take]; omega), List.getElem_take]

/-- The bytes up to an earlier end. -/
theorem codeAt_take {size : Nat} (h : cursor + size ≤ stop) :
    codeAt bytes (cursor + size) cursor = (codeAt bytes stop cursor).take size := by
  unfold codeAt
  rw [List.drop_take, List.drop_take, List.take_take]
  congr 1
  omega

theorem codeAt_drop {size : Nat} :
    codeAt bytes stop (cursor + size) = (codeAt bytes stop cursor).drop size := by
  unfold codeAt
  rw [List.drop_drop]

theorem codeAt_length (h : stop ≤ bytes.length) :
    (codeAt bytes stop cursor).length = stop - cursor := by
  unfold codeAt
  rw [List.length_drop, List.length_take, Nat.min_eq_left h]

theorem codeAt_of_prefix (h : taken <+: codeAt bytes stop cursor) :
    ∃ rest, codeAt bytes stop cursor = taken ++ rest ∧
      codeAt bytes stop (cursor + taken.length) = rest := by
  obtain ⟨rest, hrest⟩ := h
  refine ⟨rest, hrest.symm, ?_⟩
  unfold codeAt at hrest ⊢
  rw [← List.drop_drop, ← hrest, List.drop_left]

theorem takeField_codeAt (hlimit : cursor + size ≤ stop) (hlength : cursor + size ≤ bytes.length) :
    takeField size (codeAt bytes stop cursor) =
      some (littleEndian ((bytes.drop cursor).take size), codeAt bytes stop (cursor + size)) := by
  unfold takeField codeAt
  rw [if_neg, List.drop_drop, List.drop_take, List.take_take, Nat.min_eq_left (by omega)]
  rw [List.length_drop, List.length_take]
  omega

theorem takeField_of_readScalar {value : Nat}
    (h : readScalar bytes stop size what cursor = .ok (value, next)) :
    takeField size (codeAt bytes stop cursor) = some (value, codeAt bytes stop next) := by
  unfold readScalar at h
  rw [Checks.ite_throw_eq_ok] at h
  obtain ⟨hlimit, h⟩ := h
  obtain ⟨read, hread, h⟩ := Checks.bind_eq_ok.mp h
  cases h
  unfold readAt at hread
  rw [Checks.ite_throw_eq_ok] at hread
  obtain ⟨hlength, hread⟩ := hread
  cases hread
  exact takeField_codeAt (by omega) (by omega)

theorem takeField_of_readLineScalar {value : Nat}
    (h : readLineScalar bytes stop size what cursor = .ok (value, next)) :
    takeField size (codeAt bytes stop cursor) = some (value, codeAt bytes stop next) := by
  unfold readLineScalar at h
  rw [Checks.ite_throw_eq_ok] at h
  obtain ⟨hlimit, h⟩ := h
  obtain ⟨read, hread, h⟩ := Checks.bind_eq_ok.mp h
  cases h
  unfold readLineAt at hread
  rw [Checks.ite_throw_eq_ok] at hread
  obtain ⟨hlength, hread⟩ := hread
  cases hread
  exact takeField_codeAt (by omega) (by omega)

/-- The number at a position, without the bound of the readers. -/
theorem firstNumber_codeAt {digits : List Byte}
    (h : numberAt bytes stop cursor = some digits) :
    firstNumber (codeAt bytes stop cursor).length (codeAt bytes stop cursor) = some digits ∧
      (codeAt bytes stop cursor).drop digits.length =
        codeAt bytes stop (cursor + digits.length) := by
  obtain ⟨hnumber, _, hprefix⟩ := firstNumber_eq_some.mp h
  refine ⟨firstNumber_eq_some.mpr ⟨hnumber, hprefix.length_le, hprefix⟩, ?_⟩
  unfold codeAt
  rw [List.drop_drop]

theorem takeNumber_of_leb {reader : LebReader} {value : Word}
    (h : reader.readUleb bytes stop cursor = .ok (value, next)) :
    takeNumber (codeAt bytes stop cursor) = some (value.toNat, codeAt bytes stop next) := by
  obtain ⟨digits, hdigits, hfits, rfl, rfl⟩ := (readUleb_eq_ok reader).mp h
  obtain ⟨hfirst, hrest⟩ := firstNumber_codeAt hdigits
  unfold takeNumber
  rw [hfirst, Option.map_some, hrest, BitVec.toNat_ofNat, Nat.mod_eq_of_lt hfits]

theorem takeNumber_of_readUleb {value : Word}
    (h : readUleb bytes stop cursor = .ok (value, next)) :
    takeNumber (codeAt bytes stop cursor) = some (value.toNat, codeAt bytes stop next) :=
  have hleb : LebReader.ehFrame.readUleb bytes stop cursor = .ok (value, next) := h
  takeNumber_of_leb hleb

theorem takeNumber_of_readLineUleb {value : Word}
    (h : readLineUleb bytes stop cursor = .ok (value, next)) :
    takeNumber (codeAt bytes stop cursor) = some (value.toNat, codeAt bytes stop next) :=
  have hleb : LebReader.lineTable.readUleb bytes stop cursor = .ok (value, next) := h
  takeNumber_of_leb hleb

/-- The line table checks that a signed number fits. -/
theorem takeSigned_of_readLineSleb {value : Int}
    (h : readLineSleb bytes stop cursor = .ok (value, next)) :
    takeSigned (codeAt bytes stop cursor) = some (value, codeAt bytes stop next) := by
  obtain ⟨digits, hdigits, hfits, rfl, rfl⟩ := (readSleb_eq_ok .lineTable).mp h
  obtain ⟨hfirst, hrest⟩ := firstNumber_codeAt hdigits
  unfold takeSigned
  rw [hfirst, Option.map_some, hrest, toInt_ofInt_eq_self_iff.mpr (hfits rfl)]

end Reads

end MiniDebugger
