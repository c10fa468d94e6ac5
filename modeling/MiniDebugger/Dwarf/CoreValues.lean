import MiniDebugger.Core.Readers
import MiniDebugger.Core.Session
import MiniDebugger.Dwarf.AncestorWalks
import MiniDebugger.Dwarf.LiveValues
import MiniDebugger.Unwind.FrameBase

/-!
# Reading a local of a core

`inspect_snapshot_unit` reads a local of a recovered frame of a core, and
`inspect_inline_scalar_unit` a local of an inlined call in such a frame. Registers come from the
notes and the recovered frame, memory from the core or from the file behind a mapping.
-/

namespace MiniDebugger

def kDwOpAddr : Byte := 0x03
def kSnapshotDwOpRdi : Byte := 0x55
def kSnapshotDwOpR12 : Byte := 0x5c
def kSnapshotDwOpXmm0 : Byte := 0x61
def kInlineDwOpRdx : Byte := 0x51
def kInlineDwOpRcx : Byte := 0x52

/-- A core with the frame that is looked at, the module that owns it and the files. -/
structure CoreFrame where
  snapshot : CoreSnapshot
  frame : SnapshotInspectionFrameContext
  files : Files
  /-- The bytes of the files that can be opened -/
  artifact : String → Option (List Byte)
  owner : SnapshotModuleAddress

namespace CoreFrame

variable (c : CoreFrame)

/-- A scalar held in a register of the core. -/
def registerValue (name : String) (type : LocalValueType) (raw : Word) : LocalScalarValue where
  modulePath := c.owner.modulePath
  name := name
  rawValue := raw
  byteSize := type.byteSize
  isSigned := type.isSigned
  kind := type.kind
  storage := .snapshotCoreRegister

/-! ## Recovered frames -/

/-- The register that `materialize_snapshot_xmm_value` reads. -/
def xmm0 : Except Exception (List Byte) :=
  if c.frame.index = 0 then do
    let _ ← c.snapshot.thread c.frame.threadTid
    match ← readCoreFloatingPointState c.snapshot.bytes c.frame.threadTid with
    | none =>
      throw (.runtimeError
        "selected core thread has no NT_FPREGSET state for XMM source recovery")
    | some floating =>
      match floating.xmm[0]? with
      | none =>
        throw (.runtimeError "snapshot XMM register number is outside the FPREGSET model")
      | some xmm => return xmm
  else
    match c.frame.registers.xmm0 with
    | none =>
      throw (.runtimeError "historical snapshot frame has no restored XMM0 ownership")
    | some xmm => return xmm

def materializeSnapshotXmmValue (name : String) (type : LocalValueType) (expression : List Byte) :
    Except Exception LocalScalarValue := do
  if type.kind ≠ .floating ∨ (type.byteSize ≠ 4 ∧ type.byteSize ≠ 8) then
    throw (.runtimeError
      "snapshot XMM register location requires a bounded floating scalar type")
  if expression.length ≠ 1 then
    throw (.runtimeError
      "snapshot XMM local requires one exact compiler-proven DW_OP_reg expression")
  let xmm ← c.xmm0
  let raw := BitVec.ofNat 64 (littleEndian (xmm.take type.byteSize))
  return { c.registerValue name type raw with isSigned := false }

/-- The lambda `register_value` of the register pieces -/
def restoredPiece (rdi rsi : Word) (op : Byte) : Except Exception Word :=
  if op = kDwOpReg5 then return rdi
  else if op = kDwOpReg4 then return rsi
  else
    throw (.runtimeError
      "snapshot historical register-piece local requested an unowned register")

/-- A structure in RDI and RSI. -/
def restoredStructure (name : String) (type : LocalValueType) (expression : List Byte) :
    Except Exception LocalScalarValue :=
  match c.frame.registers.rdi, c.frame.registers.rsi with
  | some rdi, some rsi => do
    let bytes ← evaluateRegisterPieceValue expression (restoredPiece rdi rsi) type
    let _ ← c.files.elf c.owner.moduleFilePath
    let result ← decodeStructure c.owner.modulePath name type bytes
    return { result with storage := .snapshotCoreRegister }
  | _, _ =>
    throw (.runtimeError
      "snapshot register-piece local requires explicit restored RDI/RSI ownership")

/-- What is said of `DW_OP_reg5` and of `DW_OP_reg12`. -/
structure RegisterTexts where
  exact_ : String
  scalar : String
  owner : String

def rdiTexts : RegisterTexts where
  exact_ := "snapshot DW_OP_reg5 requires one exact compiler-proven register operation"
  scalar := "snapshot DW_OP_reg5 requires a bounded integer/pointer scalar value"
  owner := "snapshot DW_OP_reg5 requires immutable RDI ownership"

def r12Texts : RegisterTexts where
  exact_ := "snapshot DW_OP_reg12 requires one exact compiler-proven register operation"
  scalar := "snapshot DW_OP_reg12 requires a bounded integer/pointer scalar value"
  owner := "snapshot DW_OP_reg12 requires immutable R12 ownership"

/-- An integer or a pointer in a register of the frame. -/
def restoredScalar (texts : RegisterTexts) (register : Option Word) (name : String)
    (root : BoundedRootTypeResolution) (expression : List Byte) :
    Except Exception LocalScalarValue := do
  let type := root.valueType
  if expression.length ≠ 1 then throw (.runtimeError texts.exact_)
  if type.kind.isAggregate ∨ type.kind = .enumeration ∨ type.kind = .floating ∨
      type.byteSize = 0 ∨ 8 < type.byteSize then
    throw (.runtimeError texts.scalar)
  match register with
  | none => throw (.runtimeError texts.owner)
  | some value =>
    attachPointerMetadata (c.registerValue name type (truncateInteger value type.byteSize))
      root.pointeeType

/-- The types that `DW_OP_fbreg` of a recovered frame is read for. -/
def checkFbregType (type : LocalValueType) : Except Exception Unit :=
  match type.kind with
  | .integer =>
    if type.byteSize = 0 ∨ 8 < type.byteSize then
      throw (.runtimeError "snapshot DW_OP_fbreg scalar width exceeds the bounded model")
    else return ()
  | .enumeration => do
    if type.byteSize = 0 ∨ 8 < type.byteSize then
      throw (.runtimeError "snapshot DW_OP_fbreg scalar width exceeds the bounded model")
    if type.enumType.all fun enumType => enumType.byteSize ≠ type.byteSize ∨
        enumType.isSigned ≠ type.isSigned ∨ enumType.enumerators = [] then
      throw (.runtimeError "snapshot DW_OP_fbreg enum lost bounded compiler metadata")
  | .structure_ =>
    if type.byteSize = 0 ∨ kMaxLocalStructSize < type.byteSize ∨ type.members = [] ∨
        kMaxLocalStructMembers < type.members.length then
      throw (.runtimeError
        "snapshot DW_OP_fbreg structure exceeds the bounded aggregate model")
    else return ()
  | .array =>
    if type.members ≠ [] ∨ type.arrayType.all fun arrayType =>
        arrayType.elementCount = 0 ∨ kMaxLocalArrayElements < arrayType.elementCount ∨
        arrayType.elementByteSize = 0 ∨ 8 < arrayType.elementByteSize ∨
        arrayType.elementKind ≠ .integer ∨
        type.byteSize ≠ arrayType.elementCount * arrayType.elementByteSize then
      throw (.runtimeError
        "snapshot DW_OP_fbreg fixed array exceeds the bounded array model")
    else return ()
  | .union =>
    if type.byteSize = 0 ∨ kMaxLocalStructSize < type.byteSize ∨ type.members = [] ∨
        kMaxLocalStructMembers < type.members.length ∨ type.arrayType.isSome then
      throw (.runtimeError
        "snapshot DW_OP_fbreg union exceeds the bounded overlapping-storage model")
    else return ()
  | _ =>
    throw (.runtimeError ("snapshot DW_OP_fbreg requires a bounded integer, enum, structure, " ++
      "fixed array, or union local"))

/-- The address that `DW_OP_fbreg` stands for. -/
def fbregAddress (subprogram : Die) (expression : List Byte) (what : String) :
    Except Exception Word := do
  let base ← snapshotFrameBase subprogram c.snapshot c.frame c.files c.artifact c.owner
  let offset ← fbregOffset
    "snapshot stack local requires one compiler-proven DW_OP_fbreg expression"
    "snapshot DW_OP_fbreg offset" "snapshot DW_OP_fbreg does not support trailing operations"
    expression
  addSigned base offset what

/-- A value in the memory of the core. -/
def memoryValue (name : String) (type : LocalValueType) (address : Word) :
    Except Exception LocalScalarValue := do
  let memory ← readSnapshotMemory c.snapshot c.files c.artifact address type.byteSize
  materializeSnapshotMemoryValue c.owner.modulePath name type memory

/-- The part of `inspect_snapshot_unit` for `DW_OP_breg3`, whose value has no storage. -/
def historicalRbxValue (name : String) (root : BoundedRootTypeResolution)
    (expression : List Byte) : Except Exception LocalScalarValue := do
  let type := root.valueType
  if type.kind.isAggregate ∨ type.kind = .enumeration ∨ type.kind = .floating then
    throw (.runtimeError
      "snapshot caller DW_OP_breg3 requires an integer/pointer scalar value")
  match c.frame.registers.rbx with
  | none =>
    throw (.runtimeError
      "snapshot caller DW_OP_breg3 requires CFI-recovered historical RBX")
  | some rbx =>
    let raw := truncateInteger (← evaluateBreg3XorStackValue expression rbx) type.byteSize
    attachPointerMetadata { c.registerValue name type raw with storage := .computed }
      root.pointeeType

/-- `decode_snapshot_address` -/
def decodeSnapshotAddress (expression : List Byte) : Except Exception Word :=
  if expression.length ≠ 9 then
    throw (.runtimeError "snapshot DW_OP_addr requires one exact x86-64 address operand")
  else return BitVec.ofNat 64 (littleEndian (expression.drop 1))

/-- The types that `DW_OP_addr` is read for. -/
def checkAddrType (type : LocalValueType) : Except Exception Unit := do
  if type.kind = .array then
    throw (.runtimeError ("snapshot DW_OP_addr fixed-array materialization is outside current " ++
      "compiler evidence"))
  if type.kind = .enumeration then
    throw (.runtimeError
      "snapshot DW_OP_addr enum materialization is outside current compiler evidence")
  if type.kind = .union then
    throw (.runtimeError
      "snapshot DW_OP_addr union materialization is outside current compiler evidence")
  if type.kind ≠ .structure_ ∧ (type.byteSize = 0 ∨ 8 < type.byteSize) then
    throw (.runtimeError "snapshot DW_OP_addr scalar width exceeds the bounded reader")
  if type.kind = .structure_ ∧
      (type.byteSize = 0 ∨ kMaxLocalStructSize < type.byteSize) then
    throw (.runtimeError "snapshot DW_OP_addr aggregate width exceeds the bounded reader")

/-- The part of `inspect_snapshot_unit` for `DW_OP_addr`; `std::overflow_error` is a
`std::runtime_error`. -/
def staticValue (name : String) (root : BoundedRootTypeResolution) (expression : List Byte) :
    Except Exception LocalScalarValue := do
  checkAddrType root.valueType
  let lookupPc ← snapshotFrameLookupPc c.frame
  if lookupPc < c.owner.virtualAddress then
    throw (.runtimeError "snapshot frame lookup PC is below its module virtual address")
  let loadBias := lookupPc - c.owner.virtualAddress
  let virtualAddress ← decodeSnapshotAddress expression
  if BitVec.allOnes 64 - loadBias < virtualAddress then
    throw (.runtimeError "snapshot DW_OP_addr runtime address overflow")
  let result ← c.memoryValue name root.valueType (virtualAddress + loadBias)
  attachPointerMetadata result root.pointeeType

/-- What is said of a location in no form that is read. -/
def wrongLocation : String :=
  if c.frame.index = 0 then
    "snapshot frame-zero local requires compiler-proven XMM0, register-piece, " ++
      "DW_OP_fbreg, DW_OP_reg5, DW_OP_reg12, or DW_OP_addr ownership"
  else
    "snapshot caller local requires compiler-proven XMM0, register-piece, DW_OP_fbreg, " ++
      "DW_OP_breg3, DW_OP_reg5, DW_OP_reg12, or DW_OP_addr ownership"

/-- `inspect_snapshot_unit`, behind the location expression. -/
def inspectSnapshotUnitValue (name : String) (subprogram : Die)
    (root : BoundedRootTypeResolution) (expression : List Byte) :
    Except Exception LocalScalarValue := do
  let type := root.valueType
  match expression.head? with
  | none =>
    throw (.runtimeError "snapshot local requires a compiler-proven location form")
  | some opcode =>
    if opcode = kSnapshotDwOpXmm0 then c.materializeSnapshotXmmValue name type expression
    else if type.kind = .structure_ ∧ opcode = kDwOpReg5 then
      c.restoredStructure name type expression
    else if opcode = kSnapshotDwOpRdi then
      c.restoredScalar rdiTexts c.frame.registers.rdi name root expression
    else if opcode = kSnapshotDwOpR12 then
      c.restoredScalar r12Texts c.frame.registers.r12 name root expression
    else if opcode = kDwOpFbreg then
      checkFbregType type
      c.memoryValue name type
        (← c.fbregAddress subprogram expression "snapshot DW_OP_fbreg runtime address")
    else if opcode = kDwOpBreg3 then c.historicalRbxValue name root expression
    else if opcode ≠ kDwOpAddr then throw (.runtimeError c.wrongLocation)
    else c.staticValue name root expression

/-! ## Inlined calls -/

/-- `validate_selected_inline_structure_type` -/
def validateSelectedInlineStructureType (type : LocalValueType) : Except Exception Unit := do
  if type.kind = .structure_ then
    if type.byteSize = 0 ∨ kMaxLocalStructSize < type.byteSize ∨ type.members = [] ∨
        kMaxLocalStructMembers < type.members.length then
      throw (.runtimeError "selected-inline structure exceeds the bounded canonical model")
    type.members.tails.forM fun members =>
      match members with
      | [] => return ()
      | member :: rest =>
        if member.name = "" then
          throw (.runtimeError "selected-inline structure has an unnamed direct member")
        else if rest.any fun other => other.name = member.name then
          throw (.runtimeError "selected-inline structure has duplicate member names")
        else return ()

/-- A member that is a plain integer, a bit-field or a nested structure. -/
def isPlainScalarMember (member : LocalStructMemberType) : Bool :=
  member.kind = .integer && member.pointeeType.isNone && member.bitSlice.isNone &&
    member.enumType.isNone && member.members.isEmpty

def isBitFieldMember (member : LocalStructMemberType) : Bool :=
  member.kind = .integer && member.bitSlice.isSome && member.pointeeType.isNone &&
    member.enumType.isNone && member.members.isEmpty

def isOneScalarStructure (member : LocalStructMemberType) : Bool :=
  match member.members with
  | [terminal] =>
    member.kind = .structure_ && member.pointeeType.isNone && member.bitSlice.isNone &&
      member.enumType.isNone && isPlainScalarMember terminal
  | _ => false

/-- The structures that `frame_zero_fbreg_value_eligible` lets through. -/
def eligibleStructure (type : LocalValueType) : Bool :=
  let bitFields := type.members.all isBitFieldMember
  let nested := match type.members with
    | [first, second] =>
      (isPlainScalarMember first && isOneScalarStructure second) ||
        (isOneScalarStructure first && isPlainScalarMember second)
    | _ => false
  let pointer := match type.members with
    | [member] =>
      member.kind = .pointer && member.offset = 0 && member.byteSize = 8 &&
        (member.pointeeType.any fun pointee => pointee.byteSize = 4 && pointee.isSigned) &&
        member.bitSlice.isNone && member.enumType.isNone && member.members.isEmpty
    | _ => false
  let enumeration := match type.members with
    | [direct, mode] =>
      direct.isPlainInteger 0 4 && direct.isSigned && mode.kind = .enumeration &&
        mode.offset = 4 && mode.byteSize = 4 && !mode.isSigned && mode.pointeeType.isNone &&
        mode.bitSlice.isNone && (mode.enumType.any fun enumType => enumType.byteSize = 4 &&
          !enumType.isSigned && enumType.name ≠ "" && !enumType.enumerators.isEmpty) &&
        mode.members.isEmpty
    | _ => false
  bitFields || nested || pointer || enumeration

def frameZeroFbregValueEligible (type : LocalValueType) (pointee : Option LocalValueType) : Bool :=
  match type.kind with
  | .floating =>
    type.byteSize = 8 && !type.isSigned && type.members.isEmpty && type.arrayType.isNone &&
      type.enumType.isNone && pointee.isNone
  | .pointer =>
    type.byteSize = 8 && !type.isSigned && type.members.isEmpty && type.arrayType.isNone &&
      type.enumType.isNone && pointee.any fun pointee =>
        pointee.kind = .integer && pointee.byteSize = 4 && pointee.isSigned &&
          pointee.members.isEmpty && pointee.arrayType.isNone && pointee.enumType.isNone
  | .enumeration =>
    type.byteSize = 4 && !type.isSigned && type.members.isEmpty && type.arrayType.isNone &&
      type.enumType.any fun enumType => enumType.byteSize = 4 && !enumType.isSigned &&
        enumType.name ≠ "" && !enumType.enumerators.isEmpty
  | .array =>
    type.byteSize = 8 && type.members.isEmpty && type.arrayType = some ⟨2, 4, true, .integer⟩
  | .union =>
    match type.members with
    | [signed, unsigned] =>
      type.byteSize = 4 && type.arrayType.isNone && signed.name = "signed_value" &&
        signed.isPlainInteger 0 4 && signed.isSigned && unsigned.name = "unsigned_value" &&
        unsigned.isPlainInteger 0 4 && !unsigned.isSigned
    | _ => false
  | .structure_ =>
    !type.members.isEmpty && type.arrayType.isNone && eligibleStructure type
  | .integer => false

/-- The lambda `register_value` of the register pieces of an inlined call -/
def inlinePiece (regs : UserRegs) (op : Byte) : Except Exception Word :=
  if op = kInlineDwOpRdx then return regs.rdx
  else if op = kInlineDwOpRcx then return regs.rcx
  else
    throw (.runtimeError
      "frame-zero selected-inline typed value requested an unproven register piece")

/-- The registers of the thread of the frame. -/
def threadRegisters : Except Exception UserRegs := do
  let thread ← c.snapshot.thread c.frame.threadTid
  return (c.snapshot.threads.get thread).registers

/-- An aggregate in RDX and RCX. -/
def inlineAggregate (name : String) (type : LocalValueType) (expression : List Byte) :
    Except Exception LocalScalarValue := do
  let regs ← c.threadRegisters
  let bytes ← evaluateRegisterPieceValue expression (inlinePiece regs) type
  let result ← match type.kind with
    | .structure_ => do
      let _ ← c.files.elf c.owner.moduleFilePath
      decodeStructure c.owner.modulePath name type bytes
    | .array => materializeBoundedArrayBytes c.owner.modulePath name type bytes
    | _ => materializeBoundedUnionBytes c.owner.modulePath name type bytes
  return { result with storage := .snapshotCoreRegister }

/-- The raw value of a scalar in RDX or RCX. -/
def inlineRaw (expression : List Byte) : Except Exception Word := do
  if expression.length ≠ 1 then
    throw (.runtimeError
      "frame-zero selected-inline value requires one exact compiler-proven register operation")
  let regs ← c.threadRegisters
  if expression = [kInlineDwOpRdx] then return regs.rdx
  else if expression = [kInlineDwOpRcx] then return regs.rcx
  else
    throw (.runtimeError ("frame-zero selected-inline value currently requires " ++
      "compiler-proven DW_OP_reg1 (rdx) or DW_OP_reg2 (rcx)"))

/-- A scalar in RDX or RCX. -/
def inlineScalar (name : String) (root : BoundedRootTypeResolution) (expression : List Byte) :
    Except Exception LocalScalarValue := do
  let type := root.valueType
  let raw ← c.inlineRaw expression
  let result := c.registerValue name type (truncateInteger raw type.byteSize)
  if type.kind = .enumeration then
    if type.enumType.isNone then
      throw (.logicError "selected-inline register enum lost canonical type metadata")
    return { result with enumType := type.enumType }
  else if type.kind = .pointer then
    if root.pointeeType.isNone then
      throw (.logicError "selected-inline register pointer lost canonical pointee metadata")
    attachPointerMetadata result root.pointeeType
  else return result

/-- `inspect_inline_scalar_unit`, behind the location expression. -/
def inspectInlineScalarUnitValue (name : String) (subprogram : Die)
    (root : BoundedRootTypeResolution) (expression : List Byte) :
    Except Exception LocalScalarValue := do
  let type := root.valueType
  match expression.head? with
  | none =>
    throw (.runtimeError
      "selected-inline value requires one exact compiler-proven location operation")
  | some opcode =>
    let frameZeroFbreg := c.frame.index = 0 ∧
      frameZeroFbregValueEligible type root.pointeeType = true
    if c.frame.index ≠ 0 ∨ (frameZeroFbreg ∧ opcode = kDwOpFbreg) then
      if opcode ≠ kDwOpFbreg then
        throw (.runtimeError ("caller-frame selected-inline value currently requires " ++
          "compiler-proven DW_OP_fbreg"))
      let address ← c.fbregAddress subprogram expression
        "caller-frame selected-inline DW_OP_fbreg runtime address"
      attachPointerMetadata (← c.memoryValue name type address) root.pointeeType
    else if type.kind.isAggregate then c.inlineAggregate name type expression
    else c.inlineScalar name root expression

end CoreFrame

namespace DieUnit

variable (u : DieUnit)

/-- What `inspect_snapshot_unit` goes by -/
def bindSnapshot (sections : LocationSections) (pc : Word) (name : String) :
    Except Exception (Option u.LocalBinding) :=
  u.bindLocal inspectSnapshotUnitTexts u.resolveBoundedRootValueType sections pc name

def inlineBindingTexts : BindingTexts where
  noLocation := "selected-inline local has no DW_AT_location"
  noType := "selected-inline local has no supported DW_FORM_ref4 type"
  noForm := "selected-inline value has no supported DW_AT_location form"

/-- A round of the loop of `inspect_inline_scalar_unit` over the entries. -/
def selectInlineStep (inlineIndex : u.Index) (pc : Word) (ranges : List Byte) (unitBase : Word)
    (name : String) (best : Option (u.Index × Nat)) (index : u.Index) :
    Except Exception (Option (u.Index × Nat)) := do
  if !(u.die index).isValue then return best
  match ← u.attributeWithAbstractOrigin index kDwAtName with
  | none => return best
  | some localName =>
    if localName.text ≠ name then return best
    match ← u.inlineLocalScopeDepth index inlineIndex pc ranges unitBase with
    | none => return best
    | some depth =>
      match best with
      | none => return some (index, depth)
      | some (_, bestDepth) =>
        if bestDepth < depth then return some (index, depth)
        else if depth = bestDepth then
          throw (.runtimeError ("ambiguous selected-inline local at equal lexical depth: " ++ name))
        else return best

/-- The type of the value, with the checks of `inspect_inline_scalar_unit`. -/
def resolveInlineType (offset : Word) : Except Exception BoundedRootTypeResolution := do
  let root ← u.resolveBoundedRootValueType offset
  CoreFrame.validateSelectedInlineStructureType root.valueType
  if (root.valueType.kind = .integer ∨ root.valueType.kind = .pointer) ∧
      (root.valueType.byteSize = 0 ∨ 8 < root.valueType.byteSize) then
    throw (.runtimeError "selected-inline value materialization requires a bounded scalar")
  return root

/-- What `inspect_inline_scalar_unit` goes by; `none` when the inlined call is in another unit. A
name that a scope owns has a value, so that only one of the two errors about it can be thrown. -/
def bindInline (sections : LocationSections) (ranges : List Byte) (pc : Word)
    (inlineDieOffset : Word) (name : String) : Except Exception (Option u.LocalBinding) := do
  match u.dieIndexByOffset inlineDieOffset with
  | none => return none
  | some inlineIndex =>
    if (u.die inlineIndex).tag ≠ kDwTagInlinedSubroutine then
      throw (.runtimeError "selected inline context does not reference an inline DIE")
    let unitBase ← u.compilationUnitBase
    if !(← (u.die inlineIndex).inlineScopeContainsPc pc ranges unitBase u.version) then
      throw (.runtimeError "selected inline context no longer owns the physical frame PC")
    match ← u.findPhysicalSubprogram pc ranges unitBase with
    | none => throw (.runtimeError "selected inline context lost physical-frame ownership")
    | some subprogram =>
      if !u.isDescendantOf inlineIndex subprogram then
        throw (.runtimeError "selected inline context lost physical-frame ownership")
      match ← (List.finRange u.size).foldlM
          (u.selectInlineStep inlineIndex pc ranges unitBase name) none with
      | none =>
        throw (.runtimeError
          ("local value is not owned by the selected inline context: " ++ name))
      | some (value, _) =>
        return some (← u.bindValue inlineBindingTexts u.resolveInlineType sections pc unitBase
          subprogram value)

end DieUnit

end MiniDebugger
