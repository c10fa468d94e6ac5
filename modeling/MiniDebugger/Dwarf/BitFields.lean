import MiniDebugger.Dwarf.MemberValues

/-!
# Bit-fields

A bit-field of a structure is a window of the little-endian integer that the bytes of the structure
spell. Its place comes in two spellings: `DW_AT_data_bit_offset` counts from the first bit of the
structure, the older pair of `DW_AT_data_member_location` and `DW_AT_bit_offset` counts down from
the top of a storage unit. Both lead to one slice, and one slice to one value.
-/

namespace MiniDebugger

open Checks
open DieUnit (resolveBoundedBitSlice absoluteBitOffset)

/-- The bits of a slice as an integer. -/
def LocalBitSlice.window (slice : LocalBitSlice) (bytes : List Byte) : BitVec slice.bitSize :=
  BitVec.ofNat slice.bitSize (littleEndian bytes >>> slice.bitOffset)

/-- The value of a bit-field: extended to its storage unit when the type is signed. -/
def bitFieldValue (integer : IntegerType) (slice : LocalBitSlice) (bytes : List Byte) : Word :=
  if integer.isSigned then
    ((slice.window bytes).signExtend (integer.byteSize * 8)).setWidth 64
  else (slice.window bytes).setWidth 64

section Values

variable {integer : IntegerType} {slice : LocalBitSlice} {bytes : List Byte}

theorem getLsbD_window (i : Nat) :
    (slice.window bytes).getLsbD i =
      (decide (i < slice.bitSize) && bitAt bytes (slice.bitOffset + i)) := by
  rw [LocalBitSlice.window, BitVec.getLsbD_ofNat, Nat.testBit_shiftRight, testBit_littleEndian]

theorem msb_window (hbits : 0 < slice.bitSize) :
    (slice.window bytes).msb = bitAt bytes (slice.bitOffset + slice.bitSize - 1) := by
  have hlast : slice.bitOffset + (slice.bitSize - 1) = slice.bitOffset + slice.bitSize - 1 := by
    omega
  have hinside : slice.bitSize - 1 < slice.bitSize := by omega
  rw [BitVec.msb_eq_getLsbD_last, getLsbD_window, hlast, decide_eq_true hinside, Bool.true_and]

/-- The value of a bit-field has the bits of its layout. -/
theorem getLsbD_bitFieldValue (hbits : 0 < slice.bitSize)
    (hstorage : slice.bitSize ≤ integer.byteSize * 8) {i : Nat} (hi : i < 64) :
    (bitFieldValue integer slice bytes).getLsbD i =
      BitLayout.bit ⟨slice.bitOffset, slice.bitSize, integer.byteSize * 8,
        integer.isSigned && slice.bitSize < integer.byteSize * 8⟩ bytes i := by
  unfold bitFieldValue BitLayout.bit
  split
  next hsigned =>
    rw [BitVec.getLsbD_setWidth, BitVec.getLsbD_signExtend, getLsbD_window, msb_window hbits]
    by_cases hinside : i < slice.bitSize
    · simp [hi, hinside]
      omega
    · by_cases hstore : i < integer.byteSize * 8
      · have habove : slice.bitSize < integer.byteSize * 8 := by omega
        simp [hi, hinside, hstore, hsigned, habove]
      · simp [hinside, hstore]
  next hunsigned =>
    rw [BitVec.getLsbD_setWidth, getLsbD_window]
    by_cases hinside : i < slice.bitSize
    · simp [hi, hinside]
    · simp [hinside, hunsigned]

theorem decodeBoundedBitField_value {name : String} (hpos : 0 < integer.byteSize)
    (hle : integer.byteSize ≤ 8) (hbits : 0 < slice.bitSize)
    (hstorage : slice.bitSize ≤ integer.byteSize * 8)
    (hfits : slice.bitOffset + slice.bitSize ≤ bytes.length * 8) :
    decodeBoundedBitField bytes
        { name, offset := slice.bitOffset / 8, byteSize := integer.byteSize
          isSigned := integer.isSigned, bitSlice := some slice } =
      .ok (bitFieldValue integer slice bytes) := by
  rw [LocalStructMemberType.decodeBoundedBitField_eq hpos hle hbits hstorage hfits]
  refine congrArg Except.ok (BitVec.eq_of_getLsbD_eq fun i hi => ?_)
  rw [getLsbD_bitFieldValue hbits hstorage hi,
    LocalStructMemberType.getLsbD_rawIn (b := bytes.length * 8) ?_ hle hi]
  · simp [LocalStructMemberType.layout]
  · refine ⟨hbits, hstorage, by simpa [LocalStructMemberType.layout] using hfits, fun h => ?_⟩
    simp only [LocalStructMemberType.layout, Bool.and_eq_true, decide_eq_true_eq] at h
    exact h.2

end Values

/-! ## The two spellings -/

/-- Two members that describe one bit-field of this storage type, in the older spelling and in the
newer one. -/
structure SameField (integer : IntegerType) (legacy data : Die) : Prop where
  bitSize : data.attribute kDwAtBitSize = legacy.attribute kDwAtBitSize
  newer : legacy.attribute kDwAtDataBitOffset = none
  older : data.attribute kDwAtDataMemberLocation = none ∧ data.attribute kDwAtBitOffset = none
  /-- The field ends `bit_offset` bits below the top of its storage unit. -/
  place : ∃ size location bitOffset dataBitOffset : AttributeValue,
    legacy.attribute kDwAtBitSize = some size ∧
    legacy.attribute kDwAtDataMemberLocation = some location ∧
    legacy.attribute kDwAtBitOffset = some bitOffset ∧
    data.attribute kDwAtDataBitOffset = some dataBitOffset ∧
    isConstantMemberOffsetForm location.form ∧ isConstantMemberOffsetForm bitOffset.form ∧
    isConstantMemberOffsetForm dataBitOffset.form ∧
    bitOffset.number.toNat + size.number.toNat ≤ integer.byteSize * 8 ∧
    dataBitOffset.number.toNat + bitOffset.number.toNat + size.number.toNat =
      location.number.toNat * 8 + integer.byteSize * 8

section Spellings

variable {integer : IntegerType} {legacy data : Die} {structSize : Nat} {slice : LocalBitSlice}

/-- What an accepted slice says about the attributes of its member. -/
theorem resolveBoundedBitSlice_eq_ok {member : Die} :
    resolveBoundedBitSlice member integer structSize = .ok (some slice) ↔
      ∃ size : AttributeValue, member.attribute kDwAtBitSize = some size ∧
        isConstantMemberOffsetForm size.form ∧ size.number ≠ 0 ∧
        size.number.toNat ≤ integer.byteSize * 8 ∧
        (member.attribute kDwAtBitOffset).isSome ≠ (member.attribute kDwAtDataBitOffset).isSome ∧
        absoluteBitOffset member integer structSize size.number.toNat = .ok slice.bitOffset ∧
        slice.bitOffset + size.number.toNat ≤ structSize * 8 ∧
        slice.bitSize = size.number.toNat := by
  unfold resolveBoundedBitSlice
  cases hsize : member.attribute kDwAtBitSize with
  | none =>
    simp only [reduceCtorEq, false_and, exists_false, iff_false]
    split
    · rw [throw_eq_ok]
      exact id
    · rw [pure_eq_ok]
      simp
  | some size =>
    simp only [Option.some.injEq, exists_eq_left', throw_bind, ite_throw_eq_ok, bind_eq_ok,
      pure_eq_ok, not_or, not_lt, Bool.not_eq_true', Bool.not_eq_false, ne_eq]
    constructor
    · rintro ⟨⟨hform, hne, hwidth⟩, hone, bitOffset, hoffset, hfits, rfl⟩
      exact ⟨hform, hne, hwidth, hone, hoffset, by dsimp only; omega, rfl⟩
    · rintro ⟨hform, hne, hwidth, hone, hoffset, hfits, hslice⟩
      refine ⟨⟨hform, hne, hwidth⟩, hone, slice.bitOffset, hoffset, by omega, ?_⟩
      rw [← hslice]

/-- The older spelling is accepted exactly when the newer one is, with one slice. -/
theorem SameField.resolve_iff (h : SameField integer legacy data) :
    resolveBoundedBitSlice legacy integer structSize = .ok (some slice) ↔
      resolveBoundedBitSlice data integer structSize = .ok (some slice) := by
  obtain ⟨size, location, bitOffset, dataBitOffset, hsize, hlocation, hbitOffset, hdata,
    hlocationForm, hbitForm, hdataForm, hinside, hplace⟩ := h.place
  have hlegacy : absoluteBitOffset legacy integer structSize size.number.toNat =
      .ok slice.bitOffset ↔
      location.number.toNat ≤ structSize ∧ dataBitOffset.number.toNat = slice.bitOffset := by
    unfold absoluteBitOffset Die.constantMemberOffset
    simp only [h.newer, hlocation, hlocationForm, if_true, hbitOffset, hbitForm, Bool.not_true,
      Bool.false_eq_true, false_or, throw_bind, ite_throw_eq_ok, pure_eq_ok, not_lt]
    constructor
    · rintro ⟨hle, -, hoffset⟩
      exact ⟨hle, by omega⟩
    · rintro ⟨hle, hoffset⟩
      exact ⟨hle, by omega, by omega⟩
  have hnewer : absoluteBitOffset data integer structSize size.number.toNat =
      .ok slice.bitOffset ↔ dataBitOffset.number.toNat = slice.bitOffset := by
    unfold absoluteBitOffset
    simp [hdata, h.older.1, hdataForm]
  rw [resolveBoundedBitSlice_eq_ok, resolveBoundedBitSlice_eq_ok]
  simp only [h.bitSize, hsize, Option.some.injEq, exists_eq_left', hlegacy, hnewer, hbitOffset,
    h.newer, h.older.2, hdata]
  constructor
  · rintro ⟨hform, hne, hwidth, -, ⟨-, hoffset⟩, hfits, hslice⟩
    exact ⟨hform, hne, hwidth, by simp, hoffset, hfits, hslice⟩
  · rintro ⟨hform, hne, hwidth, -, hoffset, hfits, hslice⟩
    exact ⟨hform, hne, hwidth, by simp, ⟨by omega, hoffset⟩, hfits, hslice⟩

end Spellings

/-- An accepted bit-field is read as its window of the structure, and its other spelling is
accepted with the same slice. -/
theorem bit_field_window (integer : IntegerType) (hpos : 1 ≤ integer.byteSize)
    (hle : integer.byteSize ≤ 8) (member : Die) (structSize : Nat) (slice : LocalBitSlice)
    (hslice : resolveBoundedBitSlice member integer structSize = .ok (some slice)) :
    (∀ bytes : List Byte, bytes.length = structSize → ∀ name : String,
      decodeBoundedBitField bytes
          { name, offset := slice.bitOffset / 8, byteSize := integer.byteSize
            isSigned := integer.isSigned, bitSlice := some slice } =
        .ok (bitFieldValue integer slice bytes)) ∧
    ∀ other : Die, SameField integer member other ∨ SameField integer other member →
      resolveBoundedBitSlice other integer structSize = .ok (some slice) := by
  constructor
  · intro bytes hbytes name
    obtain ⟨hbits, hstorage, hfits⟩ := DieUnit.resolveBoundedBitSlice_bounds hslice
    exact decodeBoundedBitField_value hpos hle hbits hstorage (hbytes ▸ hfits)
  · rintro other (hother | hother)
    · exact hother.resolve_iff.mp hslice
    · exact hother.resolve_iff.mpr hslice

/-- Six bits across the first byte boundary, in the older spelling. -/
def crossingField : Die where
  offset := 0
  tag := kDwTagMember
  attributes := [{ name := kDwAtBitSize, form := kDwFormData1, number := 6 },
    { name := kDwAtBitOffset, form := kDwFormData1, number := 21 },
    { name := kDwAtDataMemberLocation, form := kDwFormData1, number := 0 }]

theorem bit_field_window_crossing :
    decodeBoundedBitField [0xa0, 0x02, 0, 0]
        { name := "unsigned_bits", offset := 5 / 8, byteSize := 4, isSigned := false
          bitSlice := some ⟨5, 6⟩ } =
      .ok (bitFieldValue ⟨4, false⟩ ⟨5, 6⟩ [0xa0, 0x02, 0, 0]) :=
  (bit_field_window ⟨4, false⟩ (by decide) (by decide) crossingField 4 ⟨5, 6⟩ rfl).1
    [0xa0, 0x02, 0, 0] rfl "unsigned_bits"

end MiniDebugger
