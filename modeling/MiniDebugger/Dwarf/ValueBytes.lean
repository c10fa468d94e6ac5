import MiniDebugger.BitLayout
import MiniDebugger.Dwarf.ValueTypes
import MiniDebugger.Unwind.FrameBase

/-!
# Values from bytes

The stages behind the type resolvers. A materialiser turns bytes or a register into a
`LocalScalarValue` by a resolved type, and a member of a structure value can then be selected by
name. Each of them checks the type again and throws a `std::logic_error` where it finds metadata
that, as it believes, no resolver hands out.
-/

namespace MiniDebugger

inductive LocalValueStorage where
  | computed | snapshotCoreMemory | snapshotCoreRegister | snapshotRuntimeArtifact
  deriving DecidableEq, Repr

structure LocalStructMember where
  name : String
  rawValue : Word
  byteSize : Nat
  isSigned : Bool
  kind : LocalValueKind := .integer
  pointeeType : Option LocalPointerPointeeType := none
  bitSlice : Option LocalBitSlice := none
  enumType : Option LocalEnumType := none
  members : List LocalStructMember := []
  offset : Nat := 0
  deriving Repr

structure LocalArrayElement where
  rawValue : Word
  byteSize : Nat
  isSigned : Bool
  kind : LocalValueKind := .integer
  deriving DecidableEq, Repr

structure LocalScalarValue where
  modulePath : String
  name : String
  rawValue : Word
  byteSize : Nat
  isSigned : Bool
  kind : LocalValueKind := .integer
  members : List LocalStructMember := []
  storage : LocalValueStorage := .computed
  storageModulePath : String := ""
  storageFilePath : String := ""
  storageFileOffset : Word := 0
  pointeeType : Option LocalValueType := none
  elements : List LocalArrayElement := []
  arrayType : Option LocalArrayType := none
  enumType : Option LocalEnumType := none
  deriving Repr

/-! ## Integers and bit-fields -/

def decodeInteger (bytes : List Byte) (offset byteSize : Nat) : Except Exception Word :=
  if byteSize = 0 ∨ 8 < byteSize ∨ bytes.length < offset ∨ bytes.length - offset < byteSize then
    throw (.runtimeError "local integer decode exceeds owned storage")
  else return BitVec.ofNat 64 (littleEndian ((bytes.drop offset).take byteSize))

/-- The mask of `bounded_bit_mask` -/
def bitMask (bits : Nat) : Word := if bits = 64 then BitVec.allOnes 64 else (1#64 <<< bits) - 1#64

def boundedBitMask (bits : Nat) : Except Exception Word :=
  if bits = 0 ∨ 64 < bits then throw (.logicError "bit-field width is out of range")
  else return bitMask bits

/-- The loop of `decode_bounded_bit_field` -/
def collectBits (bytes : List Byte) (offset size : Nat) : Word :=
  (List.range size).foldl (fun raw bit =>
    if bitAt bytes (offset + bit) then raw ||| (1#64 <<< bit) else raw) 0#64

def decodeBoundedBitField (bytes : List Byte) (member : LocalStructMemberType) :
    Except Exception Word :=
  match member.bitSlice with
  | none => throw (.logicError "bit-field member lost bounded integer metadata")
  | some slice => do
    if member.kind ≠ .integer ∨ member.pointeeType.isSome ∨ member.enumType.isSome ∨
        !member.members.isEmpty ∨ member.byteSize = 0 ∨ 8 < member.byteSize then
      throw (.logicError "bit-field member lost bounded integer metadata")
    let storageBits := member.byteSize * 8
    if slice.bitSize = 0 ∨ storageBits < slice.bitSize ∨ 64 < slice.bitSize ∨
        bytes.length * 8 < slice.bitOffset ∨ bytes.length * 8 - slice.bitOffset < slice.bitSize then
      throw (.logicError "bit-field slice exceeds immutable aggregate bytes")
    let mask ← boundedBitMask slice.bitSize
    let raw := collectBits bytes slice.bitOffset slice.bitSize &&& mask
    if member.isSigned ∧ slice.bitSize < storageBits ∧ raw.getLsbD (slice.bitSize - 1) then
      return (raw ||| ~~~mask) &&& (← boundedBitMask storageBits)
    return raw

/-! ## Structures -/

/-- One member of a nested structure. -/
def materializeNestedTerminal (bytes : List Byte) (outerSize : Nat)
    (member terminal : LocalStructMemberType) : Except Exception LocalStructMember := do
  if terminal.kind ≠ .integer ∨ terminal.pointeeType.isSome ∨ terminal.bitSlice.isSome ∨
      terminal.enumType.isSome ∨ terminal.members ≠ [] ∨ terminal.byteSize = 0 ∨
      8 < terminal.byteSize ∨ member.byteSize < terminal.offset ∨
      member.byteSize - terminal.offset < terminal.byteSize then
    throw (.logicError "nested aggregate terminal is outside the bounded scalar model")
  if 2 ^ 64 - 1 - member.offset < terminal.offset then
    throw (.runtimeError "nested aggregate terminal offset overflows")
  let absoluteOffset := member.offset + terminal.offset
  if outerSize < absoluteOffset ∨ outerSize - absoluteOffset < terminal.byteSize ∨
      bytes.length < absoluteOffset ∨ bytes.length - absoluteOffset < terminal.byteSize then
    throw (.logicError "nested aggregate terminal exceeds outer storage")
  return { name := terminal.name
           rawValue := ← decodeInteger bytes absoluteOffset terminal.byteSize
           byteSize := terminal.byteSize, isSigned := terminal.isSigned, offset := terminal.offset }

def materializeBoundedNestedStructureMember (bytes : List Byte) (outerSize : Nat)
    (member : LocalStructMemberType) : Except Exception LocalStructMember := do
  if member.kind ≠ .structure_ ∨ member.byteSize = 0 ∨ kMaxLocalStructSize < member.byteSize ∨
      outerSize < member.offset ∨ outerSize - member.offset < member.byteSize ∨
      member.pointeeType.isSome ∨ member.bitSlice.isSome ∨ member.enumType.isSome ∨
      member.members = [] ∨ kMaxLocalStructMembers < member.members.length then
    throw (.logicError "nested aggregate member violates bounded layout ownership")
  let members ← member.members.mapM (materializeNestedTerminal bytes outerSize member)
  return { name := member.name, rawValue := 0, byteSize := member.byteSize, isSigned := false
           kind := .structure_, members, offset := member.offset }

/-- One member of a structure. The two materialisers of structures word one error differently. -/
def materializeMember (unexpected : String) (bytes : List Byte) (outerSize : Nat)
    (member : LocalStructMemberType) : Except Exception LocalStructMember := do
  if member.kind = .structure_ then
    materializeBoundedNestedStructureMember bytes outerSize member
  else
    if member.members ≠ [] then throw (.logicError unexpected)
    let raw ← if member.bitSlice.isSome then decodeBoundedBitField bytes member
      else decodeInteger bytes member.offset member.byteSize
    return { name := member.name, rawValue := raw, byteSize := member.byteSize
             isSigned := member.isSigned, kind := member.kind, pointeeType := member.pointeeType
             bitSlice := member.bitSlice, enumType := member.enumType, offset := member.offset }

def decodeStructure (modulePath name : String) (valueType : LocalValueType) (bytes : List Byte) :
    Except Exception LocalScalarValue := do
  if valueType.kind ≠ .structure_ ∨ bytes.length ≠ valueType.byteSize then
    throw (.runtimeError "local struct bytes do not match owned aggregate storage")
  let members ← valueType.members.mapM (materializeMember
    "non-structure member unexpectedly carries nested metadata" bytes valueType.byteSize)
  return { modulePath, name, rawValue := 0, byteSize := valueType.byteSize, isSigned := false
           kind := .structure_, members }

/-! ## Arrays and unions -/

def materializeBoundedArrayBytes (modulePath name : String) (valueType : LocalValueType)
    (bytes : List Byte) : Except Exception LocalScalarValue :=
  match valueType.arrayType with
  | none => throw (.runtimeError "bounded fixed-array bytes exceed the canonical array model")
  | some arrayType => do
    if valueType.kind ≠ .array ∨ valueType.members ≠ [] ∨ arrayType.elementCount = 0 ∨
        kMaxLocalArrayElements < arrayType.elementCount ∨ arrayType.elementByteSize = 0 ∨
        8 < arrayType.elementByteSize ∨ arrayType.elementKind ≠ .integer ∨
        valueType.byteSize ≠ arrayType.elementCount * arrayType.elementByteSize ∨
        bytes.length ≠ valueType.byteSize then
      throw (.runtimeError "bounded fixed-array bytes exceed the canonical array model")
    let elements ← (List.range arrayType.elementCount).mapM fun index => do
      return ({ rawValue := ← decodeInteger bytes (index * arrayType.elementByteSize)
                  arrayType.elementByteSize
                byteSize := arrayType.elementByteSize
                isSigned := arrayType.elementIsSigned } : LocalArrayElement)
    return { modulePath, name, rawValue := 0, byteSize := valueType.byteSize, isSigned := false
             kind := .array, elements, arrayType := some arrayType }

/-- One member of a union. -/
def materializeUnionMember (bytes : List Byte) (unionSize : Nat) (member : LocalStructMemberType) :
    Except Exception LocalStructMember := do
  if member.offset ≠ 0 ∨ member.kind ≠ .integer ∨ member.pointeeType.isSome ∨
      member.bitSlice.isSome ∨ member.enumType.isSome ∨ member.members ≠ [] ∨
      member.byteSize = 0 ∨ 8 < member.byteSize ∨ unionSize < member.byteSize then
    throw (.logicError "bounded union member violates shared-storage semantics")
  return { name := member.name, rawValue := ← decodeInteger bytes 0 member.byteSize
           byteSize := member.byteSize, isSigned := member.isSigned }

def materializeBoundedUnionBytes (modulePath name : String) (valueType : LocalValueType)
    (bytes : List Byte) : Except Exception LocalScalarValue := do
  if valueType.kind ≠ .union ∨ valueType.byteSize = 0 ∨
      kMaxLocalStructSize < valueType.byteSize ∨ valueType.members = [] ∨
      kMaxLocalStructMembers < valueType.members.length ∨ valueType.arrayType.isSome ∨
      valueType.enumType.isSome ∨ bytes.length ≠ valueType.byteSize then
    throw (.runtimeError "bounded union bytes exceed the canonical overlapping-storage model")
  let members ← valueType.members.mapM (materializeUnionMember bytes valueType.byteSize)
  return { modulePath, name, rawValue := 0, byteSize := valueType.byteSize, isSigned := false
           kind := .union, members }

/-! ## Values of a core -/

def decodeSnapshotScalar (memory : SnapshotMemoryRead) (byteSize : Nat) : Except Exception Word :=
  if byteSize = 0 ∨ 8 < byteSize ∨ memory.bytes.length ≠ byteSize then
    throw (.runtimeError "snapshot scalar memory width is unsupported")
  else return BitVec.ofNat 64 (littleEndian memory.bytes)

/-- The last branch of `materialize_snapshot_memory_value` -/
def materializeSnapshotScalar (modulePath name : String) (valueType : LocalValueType)
    (memory : SnapshotMemoryRead) : Except Exception LocalScalarValue := do
  if valueType.arrayType.isSome then
    throw (.logicError "non-array snapshot value unexpectedly carries array metadata")
  if valueType.kind = .enumeration then
    match valueType.enumType with
    | none => throw (.logicError "snapshot enum value lost bounded compiler type metadata")
    | some enumType =>
      if enumType.byteSize ≠ valueType.byteSize ∨ enumType.isSigned ≠ valueType.isSigned ∨
          enumType.enumerators = [] then
        throw (.logicError "snapshot enum value lost bounded compiler type metadata")
  else if valueType.enumType.isSome then
    throw (.logicError "non-enum snapshot value unexpectedly carries enum metadata")
  let raw ← decodeSnapshotScalar memory valueType.byteSize
  return { modulePath, name, rawValue := raw, byteSize := valueType.byteSize
           isSigned := valueType.isSigned, kind := valueType.kind
           enumType := if valueType.kind = .enumeration then valueType.enumType else none }

/-- The value `materialize_snapshot_memory_value` builds before it records where it was stored. -/
def materializeSnapshotBytes (modulePath name : String) (valueType : LocalValueType)
    (memory : SnapshotMemoryRead) : Except Exception LocalScalarValue :=
  match valueType.kind with
  | .structure_ => do
    if valueType.byteSize = 0 ∨ kMaxLocalStructSize < valueType.byteSize ∨
        memory.bytes.length ≠ valueType.byteSize then
      throw (.runtimeError "snapshot aggregate bytes exceed the bounded structure model")
    let members ← valueType.members.mapM (materializeMember
      "snapshot non-structure member unexpectedly carries nested metadata" memory.bytes
      valueType.byteSize)
    return { modulePath, name, rawValue := 0, byteSize := valueType.byteSize, isSigned := false
             kind := .structure_, members }
  | .union => materializeBoundedUnionBytes modulePath name valueType memory.bytes
  | .array => materializeBoundedArrayBytes modulePath name valueType memory.bytes
  | _ => materializeSnapshotScalar modulePath name valueType memory

/-- What the value was read from another module than the one it belongs to. -/
def ownershipChanged : String := "snapshot local artifact ownership changed during value read"

def materializeSnapshotMemoryValue (modulePath name : String) (valueType : LocalValueType)
    (memory : SnapshotMemoryRead) (requireOwnerMatch : Bool := true) :
    Except Exception LocalScalarValue := do
  let result ← materializeSnapshotBytes modulePath name valueType memory
  if memory.provenance = .core then return { result with storage := .snapshotCoreMemory }
  if requireOwnerMatch ∧ memory.modulePath ≠ modulePath then throw (.logicError ownershipChanged)
  return { result with
    storage := .snapshotRuntimeArtifact, storageModulePath := memory.modulePath
    storageFilePath := memory.moduleFilePath, storageFileOffset := memory.artifactFileOffset }

/-! ## Pointees -/

/-- What `attach_pointer_metadata` asks of a member of the pointee. -/
def checkPointeeMember (pointeeSize : Nat) (member : LocalStructMemberType) :
    Except Exception Unit := do
  if member.byteSize = 0 ∨ 8 < member.byteSize ∨ pointeeSize < member.offset ∨
      pointeeSize - member.offset < member.byteSize then
    throw (.logicError "bounded pointer value has an out-of-range structure member")
  if member.kind = .integer then
    if member.pointeeType.isSome then
      throw (.logicError "bounded integer structure member unexpectedly has pointee metadata")
  else if member.kind = .pointer then
    if member.byteSize ≠ 8 ∨ member.isSigned ∨
        member.pointeeType.all fun pointee => pointee.byteSize = 0 ∨ 8 < pointee.byteSize then
      throw (.logicError "bounded pointer structure member has invalid pointee metadata")
  else throw (.logicError "bounded structure member has an unsupported direct member kind")

/-- `attach_pointer_metadata` -/
def attachPointerMetadata (result : LocalScalarValue) (pointee : Option LocalValueType) :
    Except Exception LocalScalarValue :=
  if result.kind ≠ .pointer then return result
  else
    match pointee with
    | none => throw (.logicError "bounded pointer value lost its pointee metadata")
    | some pointee => do
      if pointee.kind = .integer then
        if pointee.byteSize = 0 ∨ 8 < pointee.byteSize ∨ pointee.members ≠ [] then
          throw (.logicError "bounded pointer value has invalid integer pointee metadata")
      else if pointee.kind = .structure_ then
        if pointee.byteSize = 0 ∨ kMaxLocalStructSize < pointee.byteSize ∨
            kMaxLocalStructMembers < pointee.members.length then
          throw (.logicError "bounded pointer value has invalid structure pointee metadata")
        pointee.members.forM (checkPointeeMember pointee.byteSize)
      else throw (.logicError "bounded pointer value has an unsupported pointee kind")
      return { result with pointeeType := some pointee }

/-- What `materialize_live_scalar` asks of the pointee of a pointer member. -/
def checkLiveMemberPointee (pointee : LocalPointerPointeeType) : Except Exception Unit := do
  if pointee.kind = .integer then
    if pointee.byteSize ≠ 4 ∨ !pointee.isSigned ∨ pointee.members ≠ [] then
      throw (.logicError ("live pointer structure pointer member is outside the bounded " ++
        "signed-int32 pointee model"))
  else if pointee.kind = .structure_ then
    if pointee.byteSize = 0 ∨ kMaxLocalStructSize < pointee.byteSize ∨ pointee.members = [] ∨
        kMaxLocalStructMembers < pointee.members.length then
      throw (.logicError ("live pointer structure pointer member has malformed bounded " ++
        "structure pointee metadata"))
    if pointee.members.any fun nested => nested.kind ≠ .integer ∨ nested.byteSize = 0 ∨
        8 < nested.byteSize ∨ pointee.byteSize < nested.offset ∨
        pointee.byteSize - nested.offset < nested.byteSize then
      throw (.logicError
        "live pointer structure pointer member pointee exceeds the flat integer-only model")
  else
    throw (.logicError "live pointer structure pointer member pointee kind is unsupported")

/-- What `materialize_live_scalar` asks of a member of the pointee. -/
def checkLivePointeeMember (pointeeSize : Nat) (member : LocalStructMemberType) :
    Except Exception Unit := do
  if member.byteSize = 0 ∨ 8 < member.byteSize ∨ pointeeSize < member.offset ∨
      pointeeSize - member.offset < member.byteSize ∨ member.bitSlice.isSome ∨
      member.enumType.isSome ∨ member.members ≠ [] then
    throw (.logicError
      "live pointer structure pointee has invalid bounded direct-member metadata")
  if member.kind = .integer then
    if member.pointeeType.isSome then
      throw (.logicError
        "live pointer structure integer member unexpectedly carries pointee metadata")
  else if member.kind = .pointer then
    match member.pointeeType with
    | none =>
      throw (.logicError "live pointer structure pointer member has invalid bounded metadata")
    | some pointee =>
      if member.byteSize ≠ 8 ∨ member.isSigned then
        throw (.logicError "live pointer structure pointer member has invalid bounded metadata")
      checkLiveMemberPointee pointee
  else
    throw (.logicError "live pointer structure pointee has an unsupported direct-member kind")

/-- What `materialize_live_scalar` asks of the pointee of a pointer. -/
def checkLivePointee (pointee : LocalValueType) : Except Exception Unit := do
  if pointee.kind = .integer then
    if pointee.byteSize = 0 ∨ 8 < pointee.byteSize ∨ pointee.members ≠ [] ∨
        pointee.arrayType.isSome ∨ pointee.enumType.isSome then
      throw (.logicError "live pointer received malformed bounded integer pointee metadata")
  else if pointee.kind = .structure_ then
    if pointee.byteSize = 0 ∨ kMaxLocalStructSize < pointee.byteSize ∨ pointee.members = [] ∨
        kMaxLocalStructMembers < pointee.members.length ∨ pointee.arrayType.isSome ∨
        pointee.enumType.isSome then
      throw (.logicError "live pointer received malformed bounded structure pointee metadata")
    pointee.members.forM (checkLivePointeeMember pointee.byteSize)
    let integerMembers := pointee.members.countP fun member => member.kind = .integer
    let pointerMembers := pointee.members.countP fun member => member.kind = .pointer
    if pointerMembers ≠ 0 ∧
        (pointee.members.length ≠ 2 ∨ integerMembers ≠ 1 ∨ pointerMembers ≠ 1) then
      throw (.logicError
        "live pointer structure pointee exceeds the one-scalar/one-pointer member model")
  else throw (.logicError "live pointer received unsupported bounded pointee metadata")

/-- A kind `materialize_live_scalar` takes. -/
def LocalValueKind.isScalar (kind : LocalValueKind) : Bool :=
  kind = .integer || kind = .pointer || kind = .enumeration

def materializeLiveScalar (modulePath name : String) (valueType : LocalValueType) (raw : Word)
    (pointeeType : Option LocalValueType := none) : Except Exception LocalScalarValue := do
  if !valueType.kind.isScalar then
    throw (.logicError "live scalar materializer received a non-scalar bounded type")
  if valueType.kind = .enumeration then
    if valueType.enumType.all fun enumType => enumType.byteSize ≠ valueType.byteSize ∨
        enumType.isSigned ≠ valueType.isSigned ∨ enumType.name = "" ∨
        enumType.enumerators = [] then
      throw (.logicError "live enum value lost canonical bounded enum metadata")
  else if valueType.enumType.isSome then
    throw (.logicError "non-enum live scalar unexpectedly carries enum metadata")
  if let some pointee := pointeeType then
    if valueType.kind = .pointer then checkLivePointee pointee
    else throw (.logicError "non-pointer live scalar unexpectedly carries pointee metadata")
  return { modulePath, name, rawValue := raw, byteSize := valueType.byteSize
           isSigned := valueType.isSigned, kind := valueType.kind, pointeeType
           enumType := if valueType.kind = .enumeration then valueType.enumType else none }

/-! ## Selecting a member -/

/-- `copy_storage`; `std::overflow_error` is a `std::runtime_error`. -/
def copyStorage (result owner : LocalScalarValue) (byteOffset : Nat) :
    Except Exception LocalScalarValue :=
  let result := { result with
    storage := owner.storage, storageModulePath := owner.storageModulePath
    storageFilePath := owner.storageFilePath, storageFileOffset := owner.storageFileOffset }
  if owner.storage ≠ .snapshotRuntimeArtifact then return result
  else if 2 ^ 64 - 1 - owner.storageFileOffset.toNat < byteOffset then
    throw (.runtimeError "selected-inline aggregate artifact provenance offset overflows")
  else
    return { result with
      storageFileOffset := owner.storageFileOffset + BitVec.ofNat 64 byteOffset }

/-- What `validate_terminal_member` asks of the pointee of a pointer. -/
def checkTerminalPointee (context : String) (pointee : LocalPointerPointeeType) :
    Except Exception Unit := do
  if pointee.kind = .integer then
    if 8 < pointee.byteSize ∨ pointee.members ≠ [] then
      throw (.logicError (context ++ " integer pointee metadata is malformed"))
  else if pointee.kind = .structure_ then
    if 8 < pointee.byteSize ∨ pointee.members = [] ∨ 32 < pointee.members.length then
      throw (.logicError (context ++ " structure pointee exceeds the bounded shallow model"))
    if pointee.members.any fun nested => nested.kind ≠ .integer ∨ nested.byteSize = 0 ∨
        8 < nested.byteSize ∨ pointee.byteSize < nested.offset ∨
        pointee.byteSize - nested.offset < nested.byteSize then
      throw (.logicError (context ++ " structure pointee member metadata is malformed"))
  else throw (.logicError (context ++ " pointer pointee kind is unsupported"))

def validateTerminalMember (context : String) (member : LocalStructMember) :
    Except Exception Unit := do
  if member.byteSize = 0 ∨ 8 < member.byteSize ∨ !member.members.isEmpty then
    throw (.logicError (context ++ " has an unsupported terminal width or nested metadata"))
  if member.kind = .integer then
    if member.pointeeType.isSome ∨ member.enumType.isSome then
      throw (.logicError (context ++ " integer retained incompatible type metadata"))
  else if member.kind = .pointer then
    match member.pointeeType with
    | none => throw (.logicError (context ++ " pointer has invalid bounded pointee metadata"))
    | some pointee =>
      if member.byteSize ≠ 8 ∨ member.isSigned ∨ member.enumType.isSome ∨
          member.bitSlice.isSome ∨ pointee.byteSize = 0 then
        throw (.logicError (context ++ " pointer has invalid bounded pointee metadata"))
      checkTerminalPointee context pointee
  else if member.kind = .enumeration then
    if member.pointeeType.isSome ∨ member.bitSlice.isSome ∨
        member.enumType.all fun enumType => enumType.byteSize ≠ member.byteSize ∨
          enumType.isSigned ≠ member.isSigned ∨ enumType.enumerators = [] then
      throw (.logicError (context ++ " enum has invalid bounded enum metadata"))
  else throw (.runtimeError (context ++ " kind is outside the bounded terminal model"))

/-- A child of a nested structure, in `aggregate_member`. -/
def checkNestedChild (outer child : LocalStructMember) : Except Exception Unit := do
  if outer.byteSize < child.offset ∨ outer.byteSize - child.offset < child.byteSize then
    throw (.logicError "selected-inline nested child exceeds bounded inner layout")
  validateTerminalMember "selected-inline nested child" child

/-- The checks `aggregate_member` makes of the member it has found. -/
def checkAggregateMember (aggregate : LocalScalarValue) (member : LocalStructMember) :
    Except Exception Unit := do
  if member.byteSize = 0 ∨ aggregate.byteSize < member.offset ∨
      aggregate.byteSize - member.offset < member.byteSize then
    throw (.logicError "selected-inline aggregate member exceeds bounded owner layout")
  if member.kind = .structure_ then
    if member.isSigned ∨ member.pointeeType.isSome ∨ member.bitSlice.isSome ∨
        member.enumType.isSome ∨ member.members.isEmpty then
      throw (.logicError "selected-inline nested structure member has invalid bounded metadata")
    member.members.forM (checkNestedChild member)
  else validateTerminalMember "selected-inline aggregate member" member

def aggregateMember (aggregate : LocalScalarValue) (memberName : String) :
    Except Exception LocalStructMember := do
  if memberName = "" then
    throw (.invalidArgument "selected-inline aggregate member name must not be empty")
  if aggregate.kind ≠ .structure_ ∨ aggregate.members.isEmpty then
    throw (.runtimeError ("selected-inline local is not a materialized bounded structure: " ++
      aggregate.name))
  match aggregate.members.find? fun member => member.name = memberName with
  | none =>
    throw (.runtimeError ("bounded selected-inline aggregate has no member named: " ++ memberName))
  | some member =>
    checkAggregateMember aggregate member
    return member

/-- The pointee of a selected pointer member, as a root type. -/
def LocalPointerPointeeType.selected (pointee : LocalPointerPointeeType) : LocalValueType where
  byteSize := pointee.byteSize
  isSigned := pointee.isSigned
  kind := pointee.kind
  members := if pointee.kind = .structure_ then
      pointee.members.map fun nested =>
        { name := nested.name, offset := nested.offset, byteSize := nested.byteSize
          isSigned := nested.isSigned, kind := nested.kind }
    else []

/-- What a selected member brings with it besides its raw value. -/
def attachMember (result : LocalScalarValue) (member : LocalStructMember) : LocalScalarValue :=
  match member.kind with
  | .pointer =>
    { result with pointeeType := member.pointeeType.map LocalPointerPointeeType.selected }
  | .enumeration => { result with enumType := member.enumType }
  | .structure_ => { result with members := member.members }
  | _ => result

def inspectLocalAggregateMember (aggregate : LocalScalarValue) (memberName : String) :
    Except Exception LocalScalarValue := do
  let member ← aggregateMember aggregate memberName
  let result ← copyStorage
    { modulePath := aggregate.modulePath, name := aggregate.name ++ "." ++ memberName
      rawValue := member.rawValue, byteSize := member.byteSize, isSigned := member.isSigned
      kind := member.kind } aggregate member.offset
  return attachMember result member

def inspectLocalNestedAggregateMember (aggregate : LocalScalarValue)
    (aggregateMemberName terminalMemberName : String) : Except Exception LocalScalarValue := do
  let inner ← inspectLocalAggregateMember aggregate aggregateMemberName
  if inner.kind ≠ .structure_ then
    throw (.runtimeError ("outer member is not a bounded nested structure: " ++ inner.name))
  let terminal ← inspectLocalAggregateMember inner terminalMemberName
  if terminal.kind = .structure_ then
    throw (.runtimeError "nested aggregate depth exceeds the bounded one-hop model")
  return terminal

end MiniDebugger
