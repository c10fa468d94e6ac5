import MiniDebugger.Dwarf.LocationLists
import MiniDebugger.Dwarf.ValueBytes
import MiniDebugger.Sessions.EntryValues
import MiniDebugger.Unwind.Cfi

/-!
# Reading a live local

What the evaluators do with the entry they have selected: they resolve its type, find the location
expression, and read the value from registers or memory. `inspect_unit` reads the innermost frame of
a stopped tracee and `inspect_caller_stack_unit` the frames of its callers.
-/

namespace MiniDebugger

def kDwOpReg0 : Byte := 0x50
def kDwOpReg1 : Byte := 0x51
def kDwOpReg2 : Byte := 0x52
def kDwOpReg3 : Byte := 0x53
def kDwOpReg4 : Byte := 0x54
def kDwOpReg6 : Byte := 0x56
def kDwOpReg7 : Byte := 0x57
def kDwOpFbreg : Byte := 0x91
def kDwOpPiece : Byte := 0x93
def kDwOpEntryValue : Byte := 0xa3

/-! ## What an evaluator goes by -/

/-- `active_location_expression` -/
def activeLocationExpression (sections : LocationSections) (offset pc initialBase : Word)
    (unitVersion : Nat) : Except Exception (List Byte) :=
  if unitVersion = 4 then
    activeDwarf4LocationExpression sections.locations offset pc initialBase
  else if unitVersion = 5 then
    activeDwarf5LocationExpression sections.locationLists offset pc initialBase
  else throw (.runtimeError "unsupported DWARF unit version for location list")

/-- The errors about the attributes of the selected entry. -/
structure BindingTexts where
  noLocation : String
  noType : String
  noForm : String

def localBindingTexts : BindingTexts where
  noLocation := "local value has no DW_AT_location"
  noType := "local value has no supported DW_FORM_ref4 type"
  noForm := "local value has no supported DW_AT_location form"

namespace DieUnit

variable (u : DieUnit)

/-- The subprogram, and the type and the location of the value. -/
structure LocalBinding where
  subprogram : u.Index
  root : BoundedRootTypeResolution
  expression : List Byte

/-- The part that all evaluators share, for the entry `value`. -/
def bindValue (texts : BindingTexts) (resolve : Word → Except Exception BoundedRootTypeResolution)
    (sections : LocationSections) (pc base : Word) (subprogram value : u.Index) :
    Except Exception u.LocalBinding := do
  let type ← u.attributeWithAbstractOrigin value kDwAtType
  match (u.die value).attribute kDwAtLocation with
  | none => throw (.runtimeError texts.noLocation)
  | some location =>
    match type with
    | none => throw (.runtimeError texts.noType)
    | some type =>
      if type.form ≠ kDwFormRef4 then throw (.runtimeError texts.noType)
      let root ← resolve type.number
      if location.form = kDwFormExprloc then return ⟨subprogram, root, location.expression⟩
      else if location.form = kDwFormSecOffset ∨ location.form = kDwFormLoclistx then
        return ⟨subprogram, root,
          ← activeLocationExpression sections location.number pc base u.version⟩
      else throw (.runtimeError texts.noForm)

/-- What `inspect_unit` and its copies go by; `none` when the unit does not cover the address. -/
def bindLocal (texts : LookupTexts) (resolve : Word → Except Exception BoundedRootTypeResolution)
    (sections : LocationSections) (pc : Word) (name : String) :
    Except Exception (Option u.LocalBinding) := do
  match ← u.findSubprogram texts pc, ← u.selectLocal texts pc name with
  | some subprogram, some value =>
    return some (← u.bindValue localBindingTexts resolve sections pc u.lookupBase subprogram value)
  | _, _ => return none

end DieUnit

/-! ## Pieces -/

/-- A kind whose values have members or elements. -/
def LocalValueKind.isAggregate (kind : LocalValueKind) : Bool :=
  kind = .structure_ || kind = .union || kind = .array

def truncateInteger (value : Word) (byteSize : Nat) : Word :=
  if byteSize = 8 then value else value &&& ((1#64 <<< (byteSize * 8)) - 1#64)

/-- `fbreg_offset` and `decode_snapshot_fbreg_offset`, which word their errors differently. -/
def fbregOffset (wrongForm what trailing : String) (expression : List Byte) :
    Except Exception Int :=
  if expression.head? ≠ some kDwOpFbreg then throw (.runtimeError wrongForm)
  else do
    let form : Parse Int := do
      let offset ← readDwarfSleb expression expression.length what
      requireEnd expression trailing
      return offset
    let (offset, _) ← form 1
    return offset

/-- A member that `register_piece` shapes are made of. -/
def LocalStructMemberType.isPlainInteger (member : LocalStructMemberType)
    (offset byteSize : Nat) : Bool :=
  member.kind = .integer && member.offset = offset && member.byteSize = byteSize &&
    member.pointeeType.isNone && member.bitSlice.isNone && member.enumType.isNone &&
    member.members.isEmpty

/-- `proven_union` -/
def LocalValueType.isProvenUnion (type : LocalValueType) : Bool :=
  match type.members with
  | [first, second] =>
    type.kind = .union && type.arrayType.isNone && type.enumType.isNone &&
      first.name = "signed_value" && second.name = "unsigned_value" &&
      first.isPlainInteger 0 4 && second.isPlainInteger 0 4 && first.isSigned && !second.isSigned
  | _ => false

/-- `proven_structure` -/
def LocalValueType.isProvenStructure (type : LocalValueType) : Bool :=
  match type.members with
  | [first, second] =>
    type.kind = .structure_ && first.isPlainInteger 0 4 && second.isPlainInteger 4 4
  | _ => false

/-- `proven_array` -/
def LocalValueType.isProvenArray (type : LocalValueType) : Bool :=
  type.kind = .array && type.members.isEmpty && type.arrayType = some ⟨2, 4, true, .integer⟩

/-- `read_op` -/
def readPieceOp (expression : List Byte) (what : String) : Parse Byte := fun cursor =>
  match expression[cursor]? with
  | some op => return (op, cursor + 1)
  | none => throw (.runtimeError ("register-piece local is missing " ++ what))

/-- `require_piece` -/
def requirePiece (expression : List Byte) (expected : Word) (what : String) : Parse Unit := do
  let op ← readPieceOp expression what
  if op ≠ kDwOpPiece then
    throw (.runtimeError ("register-piece local requires DW_OP_piece after " ++ what))
  let width ← readDwarfUleb expression expression.length what
  if width ≠ expected then
    throw (.runtimeError ("register-piece local has an unsupported " ++ what ++ " width"))

/-- The register of a union of four bytes. -/
def unionPiece (expression : List Byte) : Parse Byte := do
  let first ← readPieceOp expression "the union register"
  if first ≠ kDwOpReg1 ∧ first ≠ kDwOpReg2 then
    throw (.runtimeError
      "4-byte union register requires compiler-proven RDX or RCX ownership")
  if first = kDwOpReg1 then requirePiece expression 4 "GCC union 4-byte piece"
  requireEnd expression "unsupported trailing operations after 4-byte register union"
  return first

/-- The registers of a structure of sixteen bytes. -/
def structurePieces (expression : List Byte) : Parse (Byte × Byte) := do
  let first ← readPieceOp expression "the first register"
  if first ≠ kDwOpReg5 then
    throw (.runtimeError
      "16-byte register-piece local requires compiler-proven DW_OP_reg5 first")
  requirePiece expression 8 "first 8-byte piece"
  let second ← readPieceOp expression "the second register"
  if second ≠ kDwOpReg4 then
    throw (.runtimeError
      "16-byte register-piece local requires compiler-proven DW_OP_reg4 second")
  requirePiece expression 8 "second 8-byte piece"
  requireEnd expression "unsupported trailing operations after 16-byte register-piece local"
  return (first, second)

/-- The registers of a value of eight bytes. -/
def halfPieces (expression : List Byte) : Parse (Byte × Byte) := do
  let first ← readPieceOp expression "the first 4-byte register"
  if first ≠ kDwOpReg1 ∧ first ≠ kDwOpReg2 then
    throw (.runtimeError
      "8-byte register-piece local requires compiler-proven RDX/RCX pieces")
  requirePiece expression 4 "first 4-byte piece"
  let second ← readPieceOp expression "the second 4-byte register"
  if (first = kDwOpReg1 ∧ second ≠ kDwOpReg2) ∨ (first = kDwOpReg2 ∧ second ≠ kDwOpReg1) then
    throw (.runtimeError
      "8-byte register-piece local requires the opposite RDX/RCX register second")
  requirePiece expression 4 "second 4-byte piece"
  requireEnd expression "unsupported trailing operations after 8-byte register-piece local"
  return (first, second)

def evaluateRegisterPieceValue (expression : List Byte)
    (registerValue : Byte → Except Exception Word) (type : LocalValueType) :
    Except Exception (List Byte) := do
  if type.byteSize = 4 then
    if !type.isProvenUnion then
      throw (.runtimeError
        "4-byte register value requires the compiler-proven signed/unsigned union shape")
    let (first, _) ← unionPiece expression 0
    return fieldBytes 4 (← registerValue first).toNat
  else if type.byteSize = 16 then
    if type.kind ≠ .structure_ then
      throw (.runtimeError "16-byte register-piece local requires the proven structure shape")
    let ((first, second), _) ← structurePieces expression 0
    return fieldBytes 8 (← registerValue first).toNat ++
      fieldBytes 8 (← registerValue second).toNat
  else if type.byteSize = 8 then
    if !type.isProvenStructure ∧ !type.isProvenArray then
      throw (.runtimeError ("8-byte register-piece local requires the compiler-proven " ++
        "two-int32 structure/array shape"))
    let ((first, second), _) ← halfPieces expression 0
    return fieldBytes 4 (← registerValue first).toNat ++
      fieldBytes 4 (← registerValue second).toNat
  else
    throw (.runtimeError ("register-piece local is outside the proven 4-byte union, 8-byte, " ++
      "or 16-byte typed-value shapes"))

/-! ## The innermost frame -/

/-- A stopped tracee and the module whose code it executes. -/
structure LiveModule where
  tracee : Tracee
  elf : ElfFile
  /-- The `.eh_frame` of the module -/
  cfi : Except Exception EhFrame
  /-- The debugger that has kept the registers of breakpoint hits -/
  debugger : Debugger

namespace LiveModule

variable (m : LiveModule)

def frameBase (expression : List Byte) : Except Exception Word :=
  match expression with
  | [op] =>
    if op = kDwOpReg6 then return m.tracee.registers.rbp
    else if op = kDwOpReg7 then return m.tracee.registers.rsp
    else if op ≠ kDwOpCallFrameCfa then
      throw (.runtimeError "unsupported DW_AT_frame_base operation")
    else do
      let cfi ← m.cfi
      if !cfi.available then throw (.runtimeError "DW_OP_call_frame_cfa requires .eh_frame")
      match ← m.tracee.callerFrame cfi m.elf m.tracee.registers.cursor with
      | none => throw (.runtimeError "CFI did not cover the current source frame")
      | some caller => return caller.stackPointer
  | _ => throw (.runtimeError "unsupported compound DW_AT_frame_base expression")

def evaluateBreg5MemoryAddress (expression : List Byte) : Except Exception Word :=
  if expression.head? ≠ some kDwOpBreg5 then
    throw (.runtimeError
      "local memory location is not the compiler-proven DW_OP_breg5 form")
  else do
    let form : Parse Int := do
      let offset ← readDwarfSleb expression expression.length "DW_OP_breg5 memory offset"
      requireEnd expression "unsupported trailing operations after DW_OP_breg5 memory location"
      return offset
    let (offset, _) ← form 1
    addSigned m.tracee.registers.rdi offset "DW_OP_breg5 memory address"

/-- The raw value of a scalar in any form but `DW_OP_fbreg`; `none` where it is in none of them. -/
def registerScalar (subprogram : Die) (byteSize : Nat) (expression : List Byte) :
    Except Exception (Option Word) := do
  let regs := m.tracee.registers
  if expression = [kDwOpReg0] then return some (truncateInteger regs.rax byteSize)
  if expression = [kDwOpReg5] then return some (truncateInteger regs.rdi byteSize)
  match expression.head? with
  | none => return none
  | some op =>
    if op = kDwOpEntryValue then
      let loadBias := m.tracee.loadBias m.elf
      return some (truncateInteger
        (← evaluateEntryRdi expression m.debugger loadBias subprogram) byteSize)
    else if op = kDwOpBreg8 then
      return some (truncateInteger (← evaluateCompositeStackValue expression regs) byteSize)
    else if op = kDwOpBreg3 then
      return some (truncateInteger (← evaluateBreg3XorStackValue expression regs.rbx) byteSize)
    else if op = kDwOpBreg5 then
      if expression.getLast? = some kDwOpStackValue then
        return some (truncateInteger
          (← evaluateBreg5StackValue expression regs.rdi m.tracee.readMemory) byteSize)
      else
        return some (← readInteger m.tracee.readMemory (← m.evaluateBreg5MemoryAddress expression)
          byteSize)
    else return none

/-- What is said of a location that is no `DW_OP_fbreg`. -/
def wrongLocation (kind : LocalValueKind) : String :=
  match kind with
  | .structure_ =>
    "local struct is not in a supported compiler-proven fbreg/register-piece form"
  | .array => "live fixed array is not in the compiler-proven DW_OP_fbreg form"
  | .union => "live union is not in the compiler-proven DW_OP_fbreg form"
  | _ => "local value location is not a supported compiler-proven register/stack/fbreg form"

/-- The address of a local in the frame. -/
def frameAddress (kind : LocalValueKind) (subprogram : Die) (expression : List Byte) :
    Except Exception Word := do
  if expression.head? ≠ some kDwOpFbreg then throw (.runtimeError (wrongLocation kind))
  match subprogram.attribute kDwAtFrameBase with
  | none =>
    throw (.runtimeError "current subprogram has no supported DW_AT_frame_base expression")
  | some base =>
    if base.form ≠ kDwFormExprloc then
      throw (.runtimeError "current subprogram has no supported DW_AT_frame_base expression")
    let base ← m.frameBase base.expression
    let offset ← fbregOffset "local variable location is not the supported DW_OP_fbreg form"
      "DW_OP_fbreg offset" "unsupported trailing operations in local variable location" expression
    addSigned base offset "local variable address"

/-- `read_memory`, with the test of the callers. -/
def readWhole (address : Word) (length : Nat) (short : String) : Except Exception (List Byte) := do
  let bytes ← m.tracee.readMemory address length
  if bytes.length ≠ length then throw (.runtimeError short)
  return bytes

def liveRegisterPiece (op : Byte) : Except Exception Word :=
  if op = kDwOpReg5 then return m.tracee.registers.rdi
  else if op = kDwOpReg4 then return m.tracee.registers.rsi
  else
    throw (.runtimeError "live register-piece structure requested an unproven register")

/-- The value at an address. -/
def valueAt (name : String) (type : LocalValueType) (address : Word) :
    Except Exception LocalScalarValue :=
  match type.kind with
  | .structure_ => do
    decodeStructure m.elf.path name type
      (← m.readWhole address type.byteSize "short local-struct memory read")
  | .array => do
    materializeBoundedArrayBytes m.elf.path name type
      (← m.readWhole address type.byteSize "short live fixed-array memory read")
  | .union => do
    materializeBoundedUnionBytes m.elf.path name type
      (← m.readWhole address type.byteSize "short live union memory read")
  | _ => do
    materializeLiveScalar m.elf.path name type
      (← readInteger m.tracee.readMemory address type.byteSize)

/-- `inspect_unit`, behind the location expression. -/
def inspectUnitValue (name : String) (subprogram : Die) (type : LocalValueType)
    (expression : List Byte) : Except Exception LocalScalarValue := do
  let raw ← if type.kind.isAggregate then pure none
    else m.registerScalar subprogram type.byteSize expression
  match raw with
  | some raw => materializeLiveScalar m.elf.path name type raw
  | none =>
    if type.kind = .structure_ ∧ expression.head? = some kDwOpReg5 then
      decodeStructure m.elf.path name type
        (← evaluateRegisterPieceValue expression m.liveRegisterPiece type)
    else m.valueAt name type (← m.frameAddress type.kind subprogram expression)

/-! ## The frames of callers -/

def callerFrameBase (frame : InspectionFrameContext) (expression : List Byte) :
    Except Exception Word :=
  match expression with
  | [op] =>
    if op = kDwOpReg6 then
      match frame.registers.rbp with
      | none => throw (.runtimeError "caller-frame DW_OP_reg6 requires recovered RBP")
      | some rbp => return rbp
    else if op ≠ kDwOpCallFrameCfa then
      throw (.runtimeError "unsupported caller-frame DW_AT_frame_base operation")
    else do
      let cfi ← m.cfi
      if !cfi.available then
        throw (.runtimeError "caller-frame DW_OP_call_frame_cfa requires .eh_frame")
      match ← m.tracee.callerFrame cfi m.elf frame.cursor with
      | none => throw (.runtimeError "CFI did not recover caller-frame CFA")
      | some caller => return caller.stackPointer
  | _ =>
    throw (.runtimeError
      "caller-frame inspection does not support compound DW_AT_frame_base")

/-- The address of a local in the frame of a caller. -/
def callerFrameAddress (frame : InspectionFrameContext) (subprogram : Die)
    (expression : List Byte) : Except Exception Word := do
  if expression.head? ≠ some kDwOpFbreg then
    throw (.runtimeError ("caller-frame local requires compiler-proven DW_OP_fbreg stack " ++
      "storage or CFI-recovered DW_OP_breg3 historical RBX"))
  match subprogram.attribute kDwAtFrameBase with
  | none =>
    throw (.runtimeError
      "caller-frame subprogram has no supported DW_AT_frame_base expression")
  | some base =>
    if base.form ≠ kDwFormExprloc then
      throw (.runtimeError
        "caller-frame subprogram has no supported DW_AT_frame_base expression")
    let base ← m.callerFrameBase frame base.expression
    let offset ← fbregOffset "local variable location is not the supported DW_OP_fbreg form"
      "DW_OP_fbreg offset" "unsupported trailing operations in local variable location" expression
    addSigned base offset "caller-frame local variable address"

/-- A value without any metadata, as `inspect_caller_stack_unit` returns most of them. -/
def bareValue (name : String) (type : LocalValueType) (raw : Word) : LocalScalarValue where
  modulePath := m.elf.path
  name := name
  rawValue := raw
  byteSize := type.byteSize
  isSigned := type.isSigned
  kind := type.kind

/-- The part of `inspect_caller_stack_unit` for `DW_OP_reg3`. -/
def historicalRbxValue (frame : InspectionFrameContext) (name : String)
    (root : BoundedRootTypeResolution) : Except Exception LocalScalarValue :=
  match frame.registers.rbx with
  | none =>
    throw (.runtimeError "historical live DW_OP_reg3 requires CFI-recovered RBX")
  | some rbx =>
    if root.valueType.kind = .pointer ∧ root.pointeeType.isNone then
      throw (.logicError "historical live pointer lost canonical bounded pointee metadata")
    else
      materializeLiveScalar m.elf.path name root.valueType
        (truncateInteger rbx root.valueType.byteSize) root.pointeeType

/-- `inspect_caller_stack_unit`, behind the location expression. -/
def inspectCallerStackUnitValue (frame : InspectionFrameContext) (name : String)
    (subprogram : Die) (root : BoundedRootTypeResolution) (expression : List Byte) :
    Except Exception LocalScalarValue := do
  let type := root.valueType
  if expression = [kDwOpReg3] ∧ (type.kind = .enumeration ∨ type.kind = .pointer) then
    m.historicalRbxValue frame name root
  else if type.kind = .enumeration then
    throw (.runtimeError "historical live enum requires compiler-proven DW_OP_reg3 (rbx)")
  else if !type.kind.isAggregate ∧ expression.head? = some kDwOpBreg3 then
    match frame.registers.rbx with
    | none =>
      throw (.runtimeError
        "caller-frame DW_OP_breg3 requires CFI-recovered historical RBX")
    | some rbx =>
      return m.bareValue name type
        (truncateInteger (← evaluateBreg3XorStackValue expression rbx) type.byteSize)
  else
    let address ← m.callerFrameAddress frame subprogram expression
    if type.kind = .structure_ then
      decodeStructure m.elf.path name type
        (← m.readWhole address type.byteSize "short caller-frame local-struct memory read")
    else
      return m.bareValue name type (← readInteger m.tracee.readMemory address type.byteSize)

end LiveModule

namespace DieUnit

variable (u : DieUnit)

/-- The types of the innermost frame come without a pointee. -/
def resolveLiveType (offset : Word) : Except Exception BoundedRootTypeResolution := do
  return ⟨← u.resolveValueType offset, none⟩

/-- What `inspect_unit` goes by -/
def bindCurrent (sections : LocationSections) (pc : Word) (name : String) :
    Except Exception (Option u.LocalBinding) :=
  u.bindLocal inspectUnitTexts u.resolveLiveType sections pc name

/-- What `inspect_caller_stack_unit` goes by -/
def bindCaller (sections : LocationSections) (pc : Word) (name : String) :
    Except Exception (Option u.LocalBinding) :=
  u.bindLocal inspectCallerStackUnitTexts u.resolveBoundedRootValueType sections pc name

end DieUnit

end MiniDebugger
