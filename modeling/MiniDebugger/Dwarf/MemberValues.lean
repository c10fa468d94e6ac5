import MiniDebugger.Dwarf.TypeShapes

/-!
# The value of a structure

What the materialisers make of a structure, as a function of its bytes: `valueIn` is the value of a
member, and both materialisers of structures return these values for a type that a resolver has
accepted. The raw value of a member is read with the layout its type says (`layout`).
-/

namespace MiniDebugger

open Checks

/-! ## Bits of raw values -/

theorem getLsbD_bitMask {n i : Nat} (h : n ≤ 64) (hi : i < 64) :
    (bitMask n).getLsbD i = decide (i < n) := by
  unfold bitMask
  split
  next hn => rw [BitVec.getLsbD_allOnes, hn]
  next hn =>
    have hpow : 1#64 <<< n - 1#64 = BitVec.ofNat 64 (2 ^ n - 1) := by
      have hlt : 2 ^ n < 2 ^ 64 := Nat.pow_lt_pow_right (by omega) (by omega)
      have hpos := Nat.two_pow_pos n
      have hshift : (1#64 <<< n).toNat = 2 ^ n := by
        rw [BitVec.toNat_shiftLeft, Nat.shiftLeft_eq]
        simpa using hlt
      apply BitVec.eq_of_toNat_eq
      rw [BitVec.toNat_sub, BitVec.toNat_ofNat, hshift]
      simp
      omega
    rw [hpow, BitVec.getLsbD_ofNat, Nat.testBit_two_pow_sub_one]
    simp [hi]

theorem testBit_littleEndian (bytes : List Byte) (i : Nat) :
    (littleEndian bytes).testBit i = bitAt bytes i := by
  induction bytes generalizing i with
  | nil => simp [littleEndian, bitAt]
  | cons byte bytes ih =>
    rw [littleEndian, Nat.add_comm, show (256 : Nat) = 2 ^ 8 from rfl,
      Nat.testBit_two_pow_mul_add _ byte.isLt]
    split
    next hi => simp [bitAt, Nat.div_eq_of_lt hi, Nat.mod_eq_of_lt hi, BitVec.getLsbD]
    next hi =>
      have hdiv : i / 8 = (i - 8) / 8 + 1 := by omega
      have hmod : i % 8 = (i - 8) % 8 := by omega
      rw [ih, bitAt, bitAt, hdiv, hmod, List.getD_cons_succ]

theorem bitAt_window (bytes : List Byte) (offset size i : Nat) :
    bitAt ((bytes.drop offset).take size) i =
      (decide (i < size * 8) && bitAt bytes (offset * 8 + i)) := by
  have hdiv : (offset * 8 + i) / 8 = offset + i / 8 := by omega
  have hmod : (offset * 8 + i) % 8 = i % 8 := by omega
  unfold bitAt
  rw [hdiv, hmod, List.getD_eq_getElem?_getD, List.getD_eq_getElem?_getD, List.getElem?_take,
    List.getElem?_drop]
  by_cases hi : i < size * 8
  · rw [if_pos (show i / 8 < size by omega), decide_eq_true hi, Bool.true_and]
  · rw [if_neg (show ¬i / 8 < size by omega), decide_eq_false hi, Bool.false_and]
    simp

theorem getLsbD_collectBits (bytes : List Byte) (offset size : Nat) {i : Nat} (hi : i < 64) :
    (collectBits bytes offset size).getLsbD i =
      (decide (i < size) && bitAt bytes (offset + i)) := by
  unfold collectBits
  induction size with
  | zero => simp
  | succ size ih =>
    rw [List.range_succ, List.foldl_append, List.foldl_cons, List.foldl_nil]
    have hone : (1#64 <<< size).getLsbD i = decide (i = size) := by
      rw [BitVec.getLsbD_shiftLeft, BitVec.getLsbD_one]
      by_cases hsame : i = size
      · simp [hsame]
        omega
      · simp [hsame, hi]
        omega
    by_cases hsame : i = size
    · subst hsame
      split
      next hbit =>
        rw [BitVec.getLsbD_or, hone]
        simp [hbit]
      next hbit =>
        rw [ih]
        simp [hbit]
    · have hlt : decide (i < size + 1) = decide (i < size) := decide_eq_decide.mpr (by omega)
      rw [hlt, ← ih]
      split
      next =>
        rw [BitVec.getLsbD_or, hone]
        simp [hsame]
      next => rfl

theorem decodeInteger_eq {bytes : List Byte} {offset size : Nat} (h : IsScalarIn bytes.length offset size) :
    decodeInteger bytes offset size =
      .ok (BitVec.ofNat 64 (littleEndian ((bytes.drop offset).take size))) := by
  have := h.size_pos
  have := h.size_le
  have := h.fits
  unfold decodeInteger
  rw [if_neg (by omega)]
  rfl

namespace LocalStructMemberType

/-! ## Layouts -/

/-- The bits of a member of a structure that begins at the byte `base`. -/
def layout (base : Nat) (member : LocalStructMemberType) : BitLayout :=
  match member.bitSlice with
  | some slice =>
    ⟨base * 8 + slice.bitOffset, slice.bitSize, member.byteSize * 8,
      member.isSigned && slice.bitSize < member.byteSize * 8⟩
  | none => ⟨(base + member.offset) * 8, member.byteSize * 8, member.byteSize * 8, false⟩

/-- The raw value of a member that is not a structure. -/
def rawIn (bytes : List Byte) (base : Nat) (member : LocalStructMemberType) : Word :=
  match member.bitSlice with
  | some slice =>
    let raw := collectBits bytes (base * 8 + slice.bitOffset) slice.bitSize &&&
      bitMask slice.bitSize
    if member.isSigned ∧ slice.bitSize < member.byteSize * 8 ∧ raw.getLsbD (slice.bitSize - 1) then
      (raw ||| ~~~bitMask slice.bitSize) &&& bitMask (member.byteSize * 8)
    else raw
  | none =>
    BitVec.ofNat 64 (littleEndian ((bytes.drop (base + member.offset)).take member.byteSize))

variable {bytes : List Byte} {member : LocalStructMemberType} {base : Nat}

theorem getLsbD_rawIn {b i : Nat} (h : (member.layout base).Fits b)
    (hsize : member.byteSize ≤ 8) (hi : i < 64) :
    (member.rawIn bytes base).getLsbD i = (member.layout base).bit bytes i := by
  unfold layout at h ⊢
  unfold rawIn BitLayout.bit
  cases hslice : member.bitSlice with
  | none =>
    rw [BitVec.getLsbD_ofNat, testBit_littleEndian, bitAt_window]
    by_cases hinside : i < member.byteSize * 8
    · simp [hi, hinside]
    · simp [hinside]
  | some slice =>
    rw [hslice] at h
    have hpos := h.size_pos
    have hle := h.size_le
    dsimp only at hpos hle ⊢
    have hraw {j : Nat} (hj : j < 64) :
        (collectBits bytes (base * 8 + slice.bitOffset) slice.bitSize &&&
          bitMask slice.bitSize).getLsbD j =
          (decide (j < slice.bitSize) && bitAt bytes (base * 8 + slice.bitOffset + j)) := by
      rw [BitVec.getLsbD_and, getLsbD_collectBits _ _ _ hj, getLsbD_bitMask (by omega) hj]
      cases decide (j < slice.bitSize) <;> simp
    have htop : base * 8 + slice.bitOffset + slice.bitSize - 1 =
        base * 8 + slice.bitOffset + (slice.bitSize - 1) := by omega
    rw [hraw (by omega), htop]
    split
    next hextends =>
      simp only [Bool.and_eq_true, decide_eq_true_eq] at hextends
      rw [BitVec.getLsbD_and, BitVec.getLsbD_or, hraw hi, BitVec.getLsbD_not,
        getLsbD_bitMask (by omega) hi, getLsbD_bitMask (by omega) hi]
      by_cases hinside : i < slice.bitSize
      · simp [hinside]
        omega
      · simp [hinside, hextends, hi]
    next hplain =>
      rw [hraw hi]
      by_cases hinside : i < slice.bitSize
      · simp [hinside]
      · have hlast : slice.bitSize - 1 < slice.bitSize := by omega
        simp only [hlast, decide_true, Bool.true_and] at hplain
        simp only [hinside, decide_false, Bool.false_and, if_false]
        symm
        simp only [Bool.and_eq_false_iff, decide_eq_false_iff_not]
        by_contra hnot
        simp only [not_or, not_not, Bool.not_eq_false] at hnot
        exact hplain ⟨hnot.1.2.1, hnot.1.2.2, hnot.2⟩

/-! ## Values -/

/-- The value of a member of a structure that begins at the byte `base`. -/
def terminalIn (bytes : List Byte) (base : Nat) (terminal : LocalStructMemberType) :
    LocalStructMember where
  name := terminal.name
  rawValue := terminal.rawIn bytes base
  byteSize := terminal.byteSize
  isSigned := terminal.isSigned
  offset := terminal.offset

/-- The value of a member of a structure local. -/
def valueIn (bytes : List Byte) (member : LocalStructMemberType) : LocalStructMember where
  name := member.name
  rawValue := if member.kind = .structure_ then 0 else member.rawIn bytes 0
  byteSize := member.byteSize
  isSigned := member.isSigned
  kind := member.kind
  pointeeType := member.pointeeType
  bitSlice := member.bitSlice
  enumType := member.enumType
  members := member.members.map (terminalIn bytes member.offset)
  offset := member.offset

theorem decodeBoundedBitField_eq {name : String} {slice : LocalBitSlice} {byteSize : Nat}
    {isSigned : Bool} (hpos : 0 < byteSize) (hle : byteSize ≤ 8) (hbits : 0 < slice.bitSize)
    (hstorage : slice.bitSize ≤ byteSize * 8)
    (hfits : slice.bitOffset + slice.bitSize ≤ bytes.length * 8) :
    let member : LocalStructMemberType :=
      { name, offset := slice.bitOffset / 8, byteSize, isSigned, bitSlice := some slice }
    decodeBoundedBitField bytes member = .ok (member.rawIn bytes 0) := by
  intro member
  have hmask {bits : Nat} (hbits : 0 < bits) (h : bits ≤ 64) :
      boundedBitMask bits = .ok (bitMask bits) := by
    unfold boundedBitMask
    rw [if_neg (by omega)]
    rfl
  unfold decodeBoundedBitField rawIn
  have hbytes : boundedBitMask (byteSize * 8) = .ok (bitMask (byteSize * 8)) :=
    hmask (by omega) (by omega)
  simp only [member, hmask hbits (by omega), hbytes,
    Nat.zero_mul, Nat.zero_add]
  rw [if_neg (by simp; omega), if_neg (by omega)]
  simp only [bind, Except.bind]
  split
  · rfl
  · rfl

theorem materializeNestedTerminal_eq {name : String} {offset size : Nat} {isSigned : Bool}
    (hscalar : IsScalarIn member.byteSize offset size)
    (hfits : member.offset + member.byteSize ≤ bytes.length)
    (hlength : bytes.length ≤ kMaxLocalStructSize) :
    let terminal : LocalStructMemberType := { name, offset, byteSize := size, isSigned }
    materializeNestedTerminal bytes bytes.length member terminal =
      .ok (terminal.terminalIn bytes member.offset) := by
  have hpos := hscalar.size_pos
  have hle := hscalar.size_le
  have hinside := hscalar.fits
  have hsmall : bytes.length ≤ 256 := hlength
  unfold materializeNestedTerminal
  dsimp only
  rw [if_neg (by simp; omega), if_neg (by omega), if_neg (by omega),
    decodeInteger_eq ⟨hpos, hle, by omega⟩]
  rfl

/-- What a materialiser makes of a member a resolver has accepted. -/
theorem materializeMember_eq (text : String) (h : member.Shape bytes.length)
    (hlength : bytes.length ≤ kMaxLocalStructSize) :
    materializeMember text bytes bytes.length member = .ok (member.valueIn bytes) := by
  unfold materializeMember
  cases h with
  | direct h =>
    cases h with
    | integer hname hscalar =>
      rw [if_neg (by simp), if_neg (by simp), if_neg (by simp), decodeInteger_eq hscalar]
      simp [valueIn, rawIn, bind, Except.bind, pure, Except.pure]
    | pointer hname hscalar hpointee =>
      rw [if_neg (by simp), if_neg (by simp), if_neg (by simp), decodeInteger_eq hscalar]
      simp [valueIn, rawIn, bind, Except.bind, pure, Except.pure]
    | enumeration hname hscalar htype =>
      rw [if_neg (by simp), if_neg (by simp), if_neg (by simp), decodeInteger_eq hscalar]
      simp [valueIn, rawIn, bind, Except.bind, pure, Except.pure]
  | bitField hname hpos hle hbits hstorage hfits =>
    rw [if_neg (by simp), if_neg (by simp), if_pos (by simp),
      decodeBoundedBitField_eq hpos hle hbits hstorage hfits]
    rfl
  | @nested name offset byteSize members hname hpos hle hfits hne hcount hmembers hnames =>
    have hall : members.mapM (materializeNestedTerminal bytes bytes.length
        { name, offset, byteSize, isSigned := false, kind := .structure_, members }) =
        .ok (members.map (terminalIn bytes offset)) := by
      refine mapM_eq_ok_map fun terminal hterminal => ?_
      obtain ⟨name', offset', size, isSigned, rfl, -, hscalar⟩ := hmembers terminal hterminal
      exact materializeNestedTerminal_eq hscalar hfits hlength
    rw [if_pos rfl, materializeBoundedNestedStructureMember]
    dsimp only
    rw [if_neg (by simp [hne]; omega), hall]
    rfl

end LocalStructMemberType

namespace LocalValueType

variable {type : LocalValueType} {bytes : List Byte} {modulePath name : String}

/-- The value of a structure. -/
def structureIn (type : LocalValueType) (modulePath name : String) (bytes : List Byte) :
    LocalScalarValue where
  modulePath := modulePath
  name := name
  rawValue := 0
  byteSize := type.byteSize
  isSigned := false
  kind := .structure_
  members := type.members.map (·.valueIn bytes)

theorem Shape.members (h : type.Shape) (hkind : type.kind = .structure_) :
    type.byteSize ≤ kMaxLocalStructSize ∧ 0 < type.byteSize ∧ type.members ≠ [] ∧
      ∀ member ∈ type.members, member.Shape type.byteSize := by
  cases h with
  | structure_ hpos hle hne hlength hmembers => exact ⟨hle, hpos, hne, hmembers⟩
  | _ => cases hkind

theorem decodeStructure_eq (h : type.Shape) (hkind : type.kind = .structure_)
    (hbytes : bytes.length = type.byteSize) :
    decodeStructure modulePath name type bytes = .ok (type.structureIn modulePath name bytes) := by
  obtain ⟨hle, -, -, hmembers⟩ := h.members hkind
  have hall := mapM_eq_ok_map fun member hmember => LocalStructMemberType.materializeMember_eq
    "non-structure member unexpectedly carries nested metadata"
    (hbytes ▸ hmembers member hmember) (hbytes ▸ hle)
  unfold decodeStructure
  rw [if_neg (by simp [hkind, hbytes]), ← hbytes, hall]
  simp [structureIn, bind, Except.bind, pure, Except.pure, hbytes]

/-- The value of a union. -/
def unionIn (type : LocalValueType) (modulePath name : String) (bytes : List Byte) :
    LocalScalarValue where
  modulePath := modulePath
  name := name
  rawValue := 0
  byteSize := type.byteSize
  isSigned := false
  kind := .union
  members := type.members.map (·.terminalIn bytes 0)

theorem materializeBoundedUnionBytes_eq (h : type.Shape) (hkind : type.kind = .union)
    (hbytes : bytes.length = type.byteSize) :
    materializeBoundedUnionBytes modulePath name type bytes =
      .ok (type.unionIn modulePath name bytes) := by
  cases h with
  | @union byteSize members hpos hle hne hlength hmembers hnames =>
    have hall : members.mapM (materializeUnionMember bytes byteSize) =
        .ok (members.map (·.terminalIn bytes 0)) := by
      refine mapM_eq_ok_map fun member hmember => ?_
      obtain ⟨name, size, isSigned, rfl, -, hscalar⟩ := hmembers member hmember
      have hpos := hscalar.size_pos
      have hsize := hscalar.size_le
      have hfits := hscalar.fits
      unfold materializeUnionMember
      rw [if_neg (by simp; omega), decodeInteger_eq (hbytes ▸ hscalar)]
      rfl
    unfold materializeBoundedUnionBytes
    dsimp only at hbytes ⊢
    rw [if_neg (by simp [hne, hbytes]; omega), hall]
    rfl
  | _ => cases hkind

/-- The value of an array with elements of this type. -/
def arrayIn (type : LocalValueType) (arrayType : LocalArrayType) (modulePath name : String)
    (bytes : List Byte) : LocalScalarValue where
  modulePath := modulePath
  name := name
  rawValue := 0
  byteSize := type.byteSize
  isSigned := false
  kind := .array
  elements := (List.range arrayType.elementCount).map fun index =>
    { rawValue := BitVec.ofNat 64 (littleEndian
        ((bytes.drop (index * arrayType.elementByteSize)).take arrayType.elementByteSize))
      byteSize := arrayType.elementByteSize
      isSigned := arrayType.elementIsSigned }
  arrayType := some arrayType

theorem materializeBoundedArrayBytes_eq (h : type.Shape) (hkind : type.kind = .array)
    (hbytes : bytes.length = type.byteSize) :
    ∃ arrayType, type.arrayType = some arrayType ∧
      materializeBoundedArrayBytes modulePath name type bytes =
        .ok (type.arrayIn arrayType modulePath name bytes) := by
  cases h with
  | @array count byteSize isSigned hcount hbound hpos hle hfits =>
    refine ⟨_, rfl, ?_⟩
    dsimp only at hbytes
    unfold materializeBoundedArrayBytes
    dsimp only
    rw [if_neg (by simp [hbytes]; omega), mapM_eq_ok_map (g := fun index =>
      { rawValue := BitVec.ofNat 64 (littleEndian ((bytes.drop (index * byteSize)).take byteSize))
        byteSize, isSigned }) fun index hindex => ?_]
    · rfl
    · have hlast : (index + 1) * byteSize ≤ count * byteSize :=
        Nat.mul_le_mul_right _ (List.mem_range.mp hindex)
      rw [Nat.add_mul, Nat.one_mul] at hlast
      rw [decodeInteger_eq ⟨hpos, hle, by omega⟩]
      rfl
  | _ => cases hkind

/-- The value of an integer, a pointer, an enumeration or a floating-point number. -/
def scalarOf (type : LocalValueType) (modulePath name : String) (raw : Word) : LocalScalarValue where
  modulePath := modulePath
  name := name
  rawValue := raw
  byteSize := type.byteSize
  isSigned := type.isSigned
  kind := type.kind
  enumType := if type.kind = .enumeration then type.enumType else none

/-- The value of a local whose bytes these are. -/
def valueIn (type : LocalValueType) (modulePath name : String) (bytes : List Byte) :
    LocalScalarValue :=
  match type.kind, type.arrayType with
  | .structure_, _ => type.structureIn modulePath name bytes
  | .union, _ => type.unionIn modulePath name bytes
  | .array, some arrayType => type.arrayIn arrayType modulePath name bytes
  | _, _ => type.scalarOf modulePath name (BitVec.ofNat 64 (littleEndian bytes))

theorem materializeSnapshotScalar_eq {memory : SnapshotMemoryRead} (h : type.Shape)
    (hkind : type.kind.isScalar ∨ type.kind = .floating)
    (hbytes : memory.bytes.length = type.byteSize) :
    materializeSnapshotScalar modulePath name type memory =
      .ok (type.scalarOf modulePath name (BitVec.ofNat 64 (littleEndian memory.bytes))) := by
  have hdecode {size : Nat} (hpos : 0 < size) (hle : size ≤ 8) (hsize : memory.bytes.length = size) :
      decodeSnapshotScalar memory size = .ok (BitVec.ofNat 64 (littleEndian memory.bytes)) := by
    unfold decodeSnapshotScalar
    rw [if_neg (by omega)]
    rfl
  unfold materializeSnapshotScalar
  cases h with
  | integer hpos hle =>
    dsimp only at hbytes ⊢
    rw [hdecode hpos hle hbytes]
    rfl
  | @floating size hsize =>
    dsimp only at hbytes ⊢
    rw [hdecode (by omega) (by omega) hbytes]
    rfl
  | pointer =>
    dsimp only at hbytes ⊢
    rw [hdecode (by omega) (by omega) hbytes]
    rfl
  | enumeration htype =>
    dsimp only at hbytes ⊢
    rw [hdecode htype.size_pos htype.size_le hbytes, if_neg (by simp), if_pos rfl,
      if_neg (by simp [htype.enumerators])]
    rfl
  | structure_ => simp [LocalValueKind.isScalar] at hkind
  | union => simp [LocalValueKind.isScalar] at hkind
  | array => simp [LocalValueKind.isScalar] at hkind

/-- What the bytes of a core make of a type a resolver has accepted. -/
theorem materializeSnapshotBytes_eq {memory : SnapshotMemoryRead} (h : type.Shape)
    (hbytes : memory.bytes.length = type.byteSize) :
    materializeSnapshotBytes modulePath name type memory =
      .ok (type.valueIn modulePath name memory.bytes) := by
  unfold materializeSnapshotBytes valueIn
  cases hkind : type.kind with
  | structure_ =>
    obtain ⟨hle, hpos, -, hmembers⟩ := h.members hkind
    have hall := mapM_eq_ok_map fun member hmember => LocalStructMemberType.materializeMember_eq
      "snapshot non-structure member unexpectedly carries nested metadata"
      (hbytes ▸ hmembers member hmember) (hbytes ▸ hle)
    dsimp only
    rw [if_neg (by omega), ← hbytes, hall]
    simp [structureIn, bind, Except.bind, pure, Except.pure, hbytes]
  | union => exact materializeBoundedUnionBytes_eq h hkind hbytes
  | array =>
    obtain ⟨arrayType, harray, heq⟩ := materializeBoundedArrayBytes_eq h hkind hbytes
    rw [harray]
    exact heq
  | integer => exact materializeSnapshotScalar_eq h (.inl (by rw [hkind]; rfl)) hbytes
  | pointer => exact materializeSnapshotScalar_eq h (.inl (by rw [hkind]; rfl)) hbytes
  | enumeration => exact materializeSnapshotScalar_eq h (.inl (by rw [hkind]; rfl)) hbytes
  | floating => exact materializeSnapshotScalar_eq h (.inr hkind) hbytes

end LocalValueType

end MiniDebugger
