import MiniDebugger.Core.Session
import MiniDebugger.Dwarf.Resolution
import MiniDebugger.Dwarf.WellFormedValues

/-!
# Members behind a pointer

A pointer to a structure leads to its members by two ways. `dereference_local_pointer` reads the
structure, of which `inspect_local_aggregate_member` selects a member. The lookups of pointer
members do both in one call, and the one for an inlined call reads no more than the member.
-/

namespace MiniDebugger

/-! ## Lookups -/

/-- What the debug file of a module holds. -/
structure ModuleDebug where
  info : DebugInfo
  sections : LocationSections
  ranges : Except Exception (List Byte)

/-- A frame of a core, with the files of its modules. -/
structure CoreView where
  snapshot : CoreSnapshot
  frame : SnapshotInspectionFrameContext
  files : Files
  /-- The bytes of the files that can be opened -/
  artifact : String → Option (List Byte)
  /-- The debug file of the module at a path -/
  debug : String → Except Exception ModuleDebug

/-- The value a unit has for a local; `none` when the unit does not cover the address. -/
def LocalPath.inspectUnit (path : LocalPath) (sections : LocationSections) (pc : Word)
    (name : String) (u : DieUnit) : Except Exception (Option LocalScalarValue) := do
  match ← path.bind u sections pc name with
  | none => return none
  | some binding =>
    return some (← path.evaluate name (u.die binding.subprogram) binding.root binding.expression)

/-- The loop over the units. -/
def inspectUnits (uncovered : String)
    (inspect : DieUnit → Except Exception (Option LocalScalarValue)) :
    DebugInfo → Except Exception LocalScalarValue
  | [] => throw (.runtimeError uncovered)
  | parsed :: rest => do
    match ← inspect (← parsed) with
    | some value => return value
    | none => inspectUnits uncovered inspect rest

namespace CoreView

variable (v : CoreView)

def read (address : Word) (length : Nat) : Except Exception SnapshotMemoryRead :=
  readSnapshotMemory v.snapshot v.files v.artifact address length

/-- The frame with the module that owns it; `changed` says that the frame has another module. -/
def owned (changed : String) : Except Exception CoreFrame := do
  validateSnapshotInspectionFrame v.snapshot v.frame
  validateSnapshotFrameLookupPc v.frame
  let owner ← resolveSnapshotModuleAddress v.snapshot v.files (← snapshotFrameLookupPc v.frame)
  if owner.modulePath ≠ v.frame.modulePath then throw (.logicError changed)
  return ⟨v.snapshot, v.frame, v.files, v.artifact, owner⟩

/-- `inspect_local_value` -/
def inspectLocalValue (name : String) : Except Exception LocalScalarValue := do
  if name = "" then throw (.invalidArgument "local variable name must not be empty")
  let core ← v.owned "snapshot inspection frame module ownership changed"
  let debug ← v.debug core.owner.modulePath
  inspectUnits
    "snapshot inspection-frame lookup PC is not covered by a supported DWARF4/5 subprogram"
    ((LocalPath.snapshot core).inspectUnit debug.sections core.owner.virtualAddress name) debug.info

def inspectInlineLocalValue (inlineDieOffset : Word) (name : String) :
    Except Exception LocalScalarValue := do
  if name = "" then throw (.invalidArgument "selected-inline local name must not be empty")
  let core ← v.owned "selected-inline scalar module ownership changed"
  let debug ← v.debug core.owner.modulePath
  let ranges ← debug.ranges
  inspectUnits "selected inline DIE is unavailable in the owning debug file"
    ((LocalPath.inlined core ranges inlineDieOffset).inspectUnit debug.sections
      core.owner.virtualAddress name) debug.info

end CoreView

/-! ## Dereferencing -/

/-- What `dereference_local_pointer` asks of a member of the structure. -/
def checkDereferencedMember (pointeeSize : Nat) (member : LocalStructMemberType) :
    Except Exception Unit := do
  if member.byteSize = 0 ∨ 8 < member.byteSize ∨ pointeeSize < member.offset ∨
      pointeeSize - member.offset < member.byteSize then
    throw (.runtimeError "pointer structure member exceeds bounded pointee layout")
  if member.kind = .integer then
    if member.pointeeType.isSome then
      throw (.runtimeError "integer structure member retained unexpected pointee metadata")
  else if member.kind = .pointer then
    if member.byteSize ≠ 8 ∨ member.isSigned ∨
        member.pointeeType.all fun pointee => pointee.byteSize = 0 ∨ 8 < pointee.byteSize then
      throw (.runtimeError "pointer structure member has invalid bounded metadata")
  else throw (.runtimeError "pointer structure member kind is unsupported")

/-- The type that `dereference_local_pointer` reads. -/
def dereferencedType (pointee : LocalValueType) : Except Exception LocalValueType := do
  if pointee.kind = .integer then
    if pointee.byteSize = 0 ∨ 8 < pointee.byteSize ∨ pointee.members ≠ [] then
      throw (.runtimeError "pointer does not have a bounded integer pointee type")
    return { byteSize := pointee.byteSize, isSigned := pointee.isSigned }
  else if pointee.kind = .structure_ then
    if pointee.byteSize = 0 ∨ kMaxLocalStructSize < pointee.byteSize ∨
        kMaxLocalStructMembers < pointee.members.length then
      throw (.runtimeError "pointer does not have a bounded structure pointee type")
    pointee.members.forM (checkDereferencedMember pointee.byteSize)
    return { byteSize := pointee.byteSize, isSigned := false, kind := .structure_
             members := pointee.members }
  else throw (.runtimeError "pointer pointee kind is unsupported for bounded dereference")

namespace CoreView

variable (v : CoreView)

/-- `dereference_local_pointer`, for the pointer that it has inspected. -/
def dereference (name : String) (pointer : LocalScalarValue) :
    Except Exception LocalScalarValue := do
  if pointer.kind ≠ .pointer then
    throw (.runtimeError ("local value is not a pointer: " ++ name))
  match pointer.pointeeType with
  | none => throw (.runtimeError "pointer does not have bounded pointee metadata")
  | some pointee =>
    if pointer.rawValue = 0 then
      throw (.runtimeError ("cannot dereference a null core pointer: " ++ name))
    let type ← dereferencedType pointee
    let memory ← v.read pointer.rawValue type.byteSize
    let result ← materializeSnapshotMemoryValue pointer.modulePath ("*" ++ pointer.name) type
      memory false
    if result.kind = .structure_ ∧ result.members.length ≠ pointee.members.length then
      throw (.logicError "bounded structure materialization changed member count")
    return result

def dereferenceLocalPointer (name : String) : Except Exception LocalScalarValue := do
  v.dereference name (← v.inspectLocalValue name)

end CoreView

/-! ## Members -/

def checkedAddress (base : Word) (offset : Nat) (context : String) : Except Exception Word :=
  if base = 0 then throw (.runtimeError ("cannot traverse a null " ++ context))
  else if 2 ^ 64 - 1 - base.toNat < offset then
    throw (.runtimeError (context ++ " member address overflows"))
  else return base + BitVec.ofNat 64 offset

/-- `decode_scalar` -/
def decodeMemberScalar (memory : SnapshotMemoryRead) (byteSize : Nat) : Except Exception Word :=
  if byteSize = 0 ∨ 8 < byteSize ∨ memory.bytes.length ≠ byteSize then
    throw (.runtimeError "selected-inline member has an unsupported scalar width")
  else return BitVec.ofNat 64 (littleEndian memory.bytes)

def attachStorage (result : LocalScalarValue) (memory : SnapshotMemoryRead) : LocalScalarValue :=
  if memory.provenance = .core then { result with storage := .snapshotCoreMemory }
  else
    { result with
      storage := .snapshotRuntimeArtifact, storageModulePath := memory.modulePath
      storageFilePath := memory.moduleFilePath, storageFileOffset := memory.artifactFileOffset }

/-- The pointee that both lookups give to a pointer member. -/
def LocalPointerPointeeType.asInteger (pointee : LocalPointerPointeeType) : LocalValueType where
  byteSize := pointee.byteSize
  isSigned := pointee.isSigned

/-- Where `inspect_local_pointer_member` finds a member of the object. -/
def placeMember (result object : LocalScalarValue) (offset : Nat) :
    Except Exception LocalScalarValue :=
  let result := { result with
    storage := object.storage, storageModulePath := object.storageModulePath
    storageFilePath := object.storageFilePath, storageFileOffset := object.storageFileOffset }
  if object.storage ≠ .snapshotRuntimeArtifact then return result
  else if 2 ^ 64 - 1 - object.storageFileOffset.toNat < offset then
    throw (.runtimeError "pointer member artifact offset overflow")
  else
    return { result with storageFileOffset := object.storageFileOffset + BitVec.ofNat 64 offset }

/-- What `inspect_inline_local_pointer_member` asks of the member. -/
def checkInlinePointerMember (pointeeSize : Nat) (member : LocalStructMemberType) :
    Except Exception Unit := do
  if member.byteSize = 0 ∨ 8 < member.byteSize ∨ pointeeSize < member.offset ∨
      pointeeSize - member.offset < member.byteSize ∨ !member.members.isEmpty then
    throw (.logicError "selected-inline structure member exceeds bounded pointee layout")
  if member.kind = .integer then
    if member.pointeeType.isSome then
      throw (.logicError "selected-inline integer member unexpectedly has pointee metadata")
  else if member.kind = .pointer then
    if member.byteSize ≠ 8 ∨ member.isSigned ∨
        member.pointeeType.all fun pointee => pointee.byteSize = 0 ∨ 8 < pointee.byteSize then
      throw (.logicError "selected-inline pointer member has invalid bounded pointee metadata")
  else
    throw (.runtimeError
      "selected-inline structure member kind is outside the bounded traversal model")

/-- The first member of the name. -/
def LocalValueType.memberNamed (type : LocalValueType) (memberName : String) :
    Option LocalStructMemberType :=
  type.members.find? fun member => member.name = memberName

namespace CoreView

variable (v : CoreView)

/-- `inspect_local_pointer_member`, for the pointer and the object that it has read. -/
def selectPointerMember (pointer object : LocalScalarValue) (pointee : LocalValueType)
    (memberName : String) : Except Exception LocalScalarValue := do
  if object.kind ≠ .structure_ ∨ object.members.length ≠ pointee.members.length then
    throw (.logicError "bounded containing structure lost member ownership")
  match pointee.memberNamed memberName with
  | none => throw (.runtimeError ("bounded structure has no member named: " ++ memberName))
  | some type =>
    match type.pointeeType with
    | none =>
      throw (.runtimeError ("bounded structure member is not a supported pointer: " ++ memberName))
    | some memberPointee =>
      if type.kind ≠ .pointer then
        throw (.runtimeError
          ("bounded structure member is not a supported pointer: " ++ memberName))
      match object.members.find? fun member => member.name = memberName with
      | none => throw (.logicError "bounded structure materialization lost the selected member")
      | some member =>
        let result ← placeMember
          { modulePath := pointer.modulePath, name := pointer.name ++ "->" ++ memberName
            rawValue := member.rawValue, byteSize := type.byteSize, isSigned := false
            kind := .pointer } object type.offset
        attachPointerMetadata result (some memberPointee.asInteger)

def inspectLocalPointerMember (name memberName : String) : Except Exception LocalScalarValue := do
  if memberName = "" then throw (.invalidArgument "pointer member name must not be empty")
  let pointer ← v.inspectLocalValue name
  match pointer.pointeeType with
  | none =>
    throw (.runtimeError ("local value is not a pointer to a bounded structure: " ++ name))
  | some pointee =>
    if pointer.kind ≠ .pointer ∨ pointee.kind ≠ .structure_ then
      throw (.runtimeError ("local value is not a pointer to a bounded structure: " ++ name))
    let object ← v.dereferenceLocalPointer name
    selectPointerMember pointer object pointee memberName

/-- `inspect_inline_local_pointer_member`, for the member that it has found. -/
def readPointerMember (pointer : LocalScalarValue) (member : LocalStructMemberType)
    (memberName : String) : Except Exception LocalScalarValue := do
  let address ← checkedAddress pointer.rawValue member.offset "selected-inline structure pointer"
  let memory ← v.read address member.byteSize
  let raw ← decodeMemberScalar memory member.byteSize
  let result := attachStorage
    { modulePath := pointer.modulePath, name := pointer.name ++ "->" ++ memberName
      rawValue := raw, byteSize := member.byteSize, isSigned := member.isSigned
      kind := member.kind } memory
  if member.kind = .pointer then
    return { result with pointeeType := member.pointeeType.map (·.asInteger) }
  else return result

def inspectInlineLocalPointerMember (inlineDieOffset : Word) (name memberName : String) :
    Except Exception LocalScalarValue := do
  if memberName = "" then
    throw (.invalidArgument "selected-inline pointer member name must not be empty")
  let pointer ← v.inspectInlineLocalValue inlineDieOffset name
  match pointer.pointeeType with
  | none =>
    throw (.runtimeError
      ("selected-inline local is not a pointer to a bounded structure: " ++ name))
  | some pointee =>
    if pointer.kind ≠ .pointer ∨ pointee.kind ≠ .structure_ then
      throw (.runtimeError
        ("selected-inline local is not a pointer to a bounded structure: " ++ name))
    if pointee.byteSize = 0 ∨ pointee.members.isEmpty then
      throw (.logicError "selected-inline structure pointer lost bounded member metadata")
    match pointee.memberNamed memberName with
    | none =>
      throw (.runtimeError
        ("bounded selected-inline structure has no member named: " ++ memberName))
    | some member =>
      checkInlinePointerMember pointee.byteSize member
      v.readPointerMember pointer member memberName

/-! ## Dereferencing a member -/

/-- What a pointer member points to, in `dereference_local_pointer_member`. -/
def dereferenceMember (member : LocalScalarValue) : Except Exception LocalScalarValue :=
  match member.pointeeType with
  | none => throw (.runtimeError "pointer member does not have a bounded integer pointee")
  | some pointee => do
    if pointee.kind ≠ .integer ∨ pointee.byteSize = 0 ∨ 8 < pointee.byteSize then
      throw (.runtimeError "pointer member does not have a bounded integer pointee")
    if member.rawValue = 0 then
      throw (.runtimeError "cannot dereference a null pointer-valued structure member")
    let memory ← v.read member.rawValue pointee.byteSize
    materializeSnapshotMemoryValue member.modulePath ("*(" ++ member.name ++ ")")
      { byteSize := pointee.byteSize, isSigned := pointee.isSigned } memory false

def dereferenceLocalPointerMember (name memberName : String) :
    Except Exception LocalScalarValue := do
  v.dereferenceMember (← v.inspectLocalPointerMember name memberName)

/-- What `dereference_inline_local_pointer_member` and `dereference_local_aggregate_member` make of
the member; they word their errors differently. -/
def dereferenceSelected (unbounded context : String) (member : LocalScalarValue) :
    Except Exception LocalScalarValue :=
  match member.pointeeType with
  | none => throw (.runtimeError unbounded)
  | some pointee => do
    if member.kind ≠ .pointer ∨ pointee.kind ≠ .integer ∨ pointee.byteSize = 0 ∨
        8 < pointee.byteSize ∨ pointee.members ≠ [] then
      throw (.runtimeError unbounded)
    let address ← checkedAddress member.rawValue 0 context
    let memory ← v.read address pointee.byteSize
    let raw ← decodeMemberScalar memory pointee.byteSize
    return attachStorage
      { modulePath := member.modulePath, name := "*(" ++ member.name ++ ")", rawValue := raw
        byteSize := pointee.byteSize, isSigned := pointee.isSigned } memory

def dereferenceInlineLocalPointerMember (inlineDieOffset : Word) (name memberName : String) :
    Except Exception LocalScalarValue := do
  v.dereferenceSelected
    "selected-inline pointer member does not have a bounded integer pointee"
    "selected-inline pointer-valued member"
    (← v.inspectInlineLocalPointerMember inlineDieOffset name memberName)

def dereferenceLocalAggregateMember (aggregate : LocalScalarValue) (memberName : String) :
    Except Exception LocalScalarValue := do
  v.dereferenceSelected
    "selected-inline aggregate pointer member does not have a bounded integer pointee"
    "selected-inline aggregate pointer-valued member"
    (← inspectLocalAggregateMember aggregate memberName)

end CoreView

end MiniDebugger
