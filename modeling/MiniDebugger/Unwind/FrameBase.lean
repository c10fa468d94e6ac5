import MiniDebugger.Dwarf.Die
import MiniDebugger.Dwarf.Rows
import MiniDebugger.Unwind.Snapshot

/-!
# The frame base of a recovered frame

A local variable of a frame of a core is found relative to the frame base, which for
`DW_OP_call_frame_cfa` is the CFA. `snapshotFrameBase` evaluates it at the lookup address, the one
before a return address, while `buildSnapshotInspectionFrames` unwinds the frame at the return
address itself.

The two use one row of the call-frame information exactly when the row of the return address spans
the call.
-/

namespace MiniDebugger

def kSnapshotDwOpRsp : Byte := 0x57
def kDwOpCallFrameCfa : Byte := 0x9c

inductive SnapshotMemoryProvenance where
  | core | runtimeArtifact
  deriving DecidableEq, Repr

structure SnapshotMemoryRead where
  bytes : List Byte
  provenance : SnapshotMemoryProvenance
  modulePath : String := ""
  moduleFilePath : String := ""
  artifactFileOffset : Word := 0

/-- One byte of `read_snapshot_memory`; `none` where the core has omitted it. -/
def CoreSnapshot.capturedByte (snapshot : CoreSnapshot) (address : Word) :
    Except Exception (Option Byte) :=
  match snapshot.readMemory address 1 with
  | .ok bytes => return bytes.head?
  | .error (.runtimeError _) => return none
  | .error e => throw e

/-- `read_snapshot_memory`, with the bytes of the files that can be opened. -/
def readSnapshotMemory (snapshot : CoreSnapshot) (files : Files)
    (artifact : String → Option (List Byte)) (address : Word) (length : Nat) :
    Except Exception SnapshotMemoryRead := do
  if length = 0 then
    throw (.invalidArgument "snapshot memory read length must be non-zero")
  if 4096 < length then
    throw (.invalidArgument "snapshot memory read length exceeds bounded limit")
  if 2 ^ 64 - 1 - address.toNat < length then
    throw (.invalidArgument "snapshot memory read range overflows")
  let stop := address + BitVec.ofNat 64 length
  let bytes ← (List.range length).mapM fun index =>
    snapshot.capturedByte (address + BitVec.ofNat 64 index)
  if bytes.all (·.isSome) then return { bytes := bytes.map (·.getD 0), provenance := .core }
  if bytes.any (·.isSome) then
    throw (.runtimeError
      "snapshot memory range mixes captured and omitted bytes; artifact fallback refused")
  match snapshot.mappingForAddress address with
  | none =>
    throw (.runtimeError
      "omitted snapshot memory range is not wholly owned by one NT_FILE mapping")
  | some mapping =>
    if mapping.stop < stop then
      throw (.runtimeError
        "omitted snapshot memory range is not wholly owned by one NT_FILE mapping")
    if mapping.path.toList.head? ≠ some '/' then
      throw (.runtimeError "omitted snapshot memory lacks an absolute NT_FILE owner")
    let delta := address - mapping.start
    if 2 ^ 64 - 1 - mapping.fileOffset.toNat < delta.toNat then
      throw (.runtimeError "snapshot artifact file offset overflows")
    let fileOffset := mapping.fileOffset + delta
    let moduleFilePath ← files.resolve mapping.path
    match artifact moduleFilePath with
    | none =>
      throw (.runtimeError ("failed to open snapshot runtime artifact: " ++ moduleFilePath))
    | some file =>
      if file.length < fileOffset.toNat ∨ file.length - fileOffset.toNat < length then
        throw (.runtimeError "snapshot runtime artifact range extends past end of file")
      return ⟨(file.drop fileOffset.toNat).take length, .runtimeArtifact, mapping.path,
        moduleFilePath, fileOffset⟩

/-- `std::underflow_error` is a `std::runtime_error`. -/
def snapshotFrameLookupPc (frame : SnapshotInspectionFrameContext) : Except Exception Word :=
  if frame.pcOwnership = .exactInstruction then return frame.runtimePc
  else if frame.runtimePc = 0 then
    throw (.runtimeError "historical snapshot return PC cannot be normalized below zero")
  else return frame.runtimePc - 1

/-- The reader `snapshot_frame_base` hands to `caller_frame`. -/
def frameBaseMemory (snapshot : CoreSnapshot) (files : Files)
    (artifact : String → Option (List Byte)) : CfiMemoryReader := fun address length => do
  let read ← readSnapshotMemory snapshot files artifact address length
  return read.bytes

def snapshotFrameBase (subprogram : Die) (snapshot : CoreSnapshot)
    (frame : SnapshotInspectionFrameContext) (files : Files)
    (artifact : String → Option (List Byte)) (owner : SnapshotModuleAddress) :
    Except Exception Word :=
  match subprogram.attribute kDwAtFrameBase with
  | none =>
    throw (.runtimeError
      "snapshot DW_OP_fbreg requires one compiler-proven DW_AT_frame_base operation")
  | some frameBase =>
    match frameBase.expression with
    | [op] => do
      if frameBase.form ≠ kDwFormExprloc then
        throw (.runtimeError
          "snapshot DW_OP_fbreg requires one compiler-proven DW_AT_frame_base operation")
      if op = kSnapshotDwOpRsp then
        match frame.registers.rsp with
        | none =>
          throw (.runtimeError
            "snapshot DW_OP_reg7 frame base requires immutable RSP ownership")
        | some rsp =>
          if rsp ≠ frame.stackPointer then
            throw (.logicError
              "snapshot inspection-frame RSP ownership does not match its stack pointer")
          return rsp
      else if op ≠ kDwOpCallFrameCfa then
        throw (.runtimeError
          "snapshot DW_OP_fbreg has an unsupported DW_AT_frame_base operation")
      else
        let cfi ← files.ehFrame owner.moduleFilePath
        if !cfi.available then
          throw (.runtimeError "snapshot DW_OP_call_frame_cfa requires owner .eh_frame")
        match ← cfi.callerFrame (frameBaseMemory snapshot files artifact) owner.virtualAddress
            frame.cursor with
        | none =>
          throw (.runtimeError
            "snapshot CFI did not cover compiler-proven DW_OP_call_frame_cfa")
        | some caller => return caller.stackPointer
    | _ =>
      throw (.runtimeError
        "snapshot DW_OP_fbreg requires one compiler-proven DW_AT_frame_base operation")

/-- `snapshot_frame_base` with the owner `inspect_local_value` gives it. -/
def localFrameBase (subprogram : Die) (snapshot : CoreSnapshot)
    (frame : SnapshotInspectionFrameContext) (files : Files)
    (artifact : String → Option (List Byte)) : Except Exception Word := do
  let lookupPc ← snapshotFrameLookupPc frame
  let owner ← resolveSnapshotModuleAddress snapshot files lookupPc
  if owner.modulePath ≠ frame.modulePath then
    throw (.logicError "snapshot inspection frame module ownership changed")
  snapshotFrameBase subprogram snapshot frame files artifact owner

/-! ## Rows and slots -/

/-- The row that covers an address, with the module it stands in. -/
def coveringRow (snapshot : CoreSnapshot) (files : Files) (address : Word) :
    Except Exception (Option (String × CfiRow)) := do
  let module ← resolveSnapshotModuleAddress snapshot files address
  let cfi ← files.ehFrame module.moduleFilePath
  if !cfi.available then return none
  let row ← findRow cfi.section_ cfi.sectionVirtualAddress module.virtualAddress
  return row.map fun row => (module.modulePath, row)

/-- The row a frame is unwound with; a signal trampoline is unwound without one. -/
def unwindRow (snapshot : CoreSnapshot) (files : Files) (address : Word) :
    Except Exception (Option (String × CfiRow)) := do
  let module ← resolveSnapshotModuleAddress snapshot files address
  let signalIndex ← files.signalIndex module.moduleFilePath
  if ← signalIndex.isSignalFrame module.virtualAddress then return none
  coveringRow snapshot files address

/-- The CFA of a row. -/
def CfiRow.cfa (row : CfiRow) (readRegister : Word → Except Exception Word) :
    Except Exception Word := do
  addSigned (← readRegister row.state.cfaRegister) row.state.cfaOffset "CFI CFA"

/-- Where a row says that a register of the caller has been saved. -/
def CfiRow.slot (row : CfiRow) (cfa reg : Word) : Option Word :=
  match row.state.rules[reg]? with
  | some ⟨.offset, offset⟩ => (addSigned cfa offset "").toOption
  | _ => none

/-- A reader can read what a row refers to, and the return address is not zero. -/
structure SlotsReadable (readMemory : CfiMemoryReader) (row : CfiRow) (cfa : Word) : Prop where
  returnAddress : ∀ slot, row.slot cfa row.fde.cie.returnRegister = some slot →
    ∃ value, (readMemory slot 8 >>= readU64) = .ok value ∧ value ≠ 0
  framePointer : ∀ slot, row.slot cfa kDwarfRbp = some slot →
    ∃ value, (readMemory slot 8 >>= readU64) = .ok value
  rbx : ∀ slot, row.slot cfa kDwarfRbx = some slot →
    ∃ value, (readMemory slot 8 >>= readU64) = .ok value

/-- The caller a row describes. -/
def callerOfRow (readMemory : CfiMemoryReader) (current : EhFrameCursor) (row : CfiRow) :
    Except Exception EhFrameCursor := do
  let evaluated ← frameOfRow readMemory (cursorRegister current) row
  let framePointer ← recoverRegister readMemory evaluated kDwarfRbp current.framePointer
    "CFI RBP slot"
  let rbx ← recoverRegister readMemory evaluated kDwarfRbx current.rbx "CFI RBX slot"
  return ⟨evaluated.returnAddress, evaluated.cfa, framePointer, rbx⟩

section CallerOfRow

variable {readMemory readMemory' : CfiMemoryReader} {current caller : EhFrameCursor} {row : CfiRow}
  {cfi : EhFrame} {pc cfa : Word}

theorem callerFrame_eq (havailable : cfi.available = true) :
    cfi.callerFrame readMemory pc current = (do
      match ← findRow cfi.section_ cfi.sectionVirtualAddress pc with
      | none => return none
      | some row => return some (← callerOfRow readMemory current row)) := by
  unfold EhFrame.callerFrame
  rw [evaluateFrame_eq]
  simp only [havailable, Bool.not_true, Bool.false_eq_true, if_false]
  cases findRow cfi.section_ cfi.sectionVirtualAddress pc with
  | error e => rfl
  | ok found =>
    cases found with
    | none => rfl
    | some row =>
      dsimp only [Bind.bind, Except.bind]
      unfold callerOfRow
      cases frameOfRow readMemory (cursorRegister current) row with
      | error e => rfl
      | ok evaluated =>
        dsimp only [Bind.bind, Except.bind, pure, Except.pure]
        cases recoverRegister readMemory evaluated kDwarfRbp current.framePointer
            "CFI RBP slot" with
        | error e => rfl
        | ok framePointer =>
          dsimp only
          cases recoverRegister readMemory evaluated kDwarfRbx current.rbx "CFI RBX slot" with
          | error e => rfl
          | ok rbx => rfl

theorem readCfiSlot_ok_iff {slot value : Word} {what : String} :
    readCfiSlot readMemory slot what = .ok value ↔
      (readMemory slot 8 >>= readU64) = .ok value := by
  unfold readCfiSlot
  cases readMemory slot 8 >>= readU64 with
  | error e => simp [throw, throwThe, MonadExceptOf.throw]
  | ok v => simp [pure, Except.pure]

theorem addSigned_toOption {base : Word} {offset : Int} (what what' : String) :
    (addSigned base offset what).toOption = (addSigned base offset what').toOption := by
  unfold addSigned
  split
  · split <;> rfl
  · split <;> rfl

theorem addSigned_ok_iff {base value : Word} {offset : Int} {what what' : String} :
    addSigned base offset what = .ok value ↔
      (addSigned base offset what').toOption = some value := by
  rw [addSigned_toOption what' what]
  cases addSigned base offset what with
  | error e => simp [Except.toOption]
  | ok v => simp [Except.toOption]

theorem CfiRow.slot_eq_some_iff {reg slot : Word} (what : String) :
    row.slot cfa reg = some slot ↔ ∃ offset, row.state.rules[reg]? = some ⟨.offset, offset⟩ ∧
      addSigned cfa offset what = .ok slot := by
  unfold CfiRow.slot
  constructor
  · intro h
    split at h
    case h_1 offset hrule => exact ⟨offset, hrule, addSigned_ok_iff.mpr h⟩
    case h_2 => cases h
  · intro h
    obtain ⟨offset, hrule, hslot⟩ := h
    rw [hrule]
    exact addSigned_ok_iff.mp hslot

/-- What a frame of a row is made of. -/
theorem frameOfRow_ok_iff {readRegister : Word → Except Exception Word}
    {evaluated : EvaluatedFrame} :
    frameOfRow readMemory readRegister row = .ok evaluated ↔
      row.state.cfaDefined = true ∧ row.cfa readRegister = .ok evaluated.cfa ∧
        evaluated.state = row.state ∧ ∃ slot,
          row.slot evaluated.cfa row.fde.cie.returnRegister = some slot ∧
            (readMemory slot 8 >>= readU64) = .ok evaluated.returnAddress ∧
              evaluated.returnAddress ≠ 0 := by
  constructor
  · intro h
    have hdefined : row.state.cfaDefined = true := by
      by_contra hundefined
      unfold frameOfRow at h
      rw [if_pos (by simpa using hundefined)] at h
      cases h
    unfold frameOfRow at h
    rw [if_neg (by simp [hdefined])] at h
    obtain ⟨base, hbase, h⟩ := except_bind_ok h
    obtain ⟨cfa, hcfa, h⟩ := except_bind_ok h
    split at h
    case h_2 => cases h
    case h_1 offset hrule =>
      obtain ⟨slot, hslot, h⟩ := except_bind_ok h
      obtain ⟨value, hvalue, h⟩ := except_bind_ok h
      dsimp only at h
      split at h
      case isTrue => cases h
      case isFalse hzero =>
        cases h
        refine ⟨hdefined, ?_, rfl, slot, ?_, readCfiSlot_ok_iff.mp hvalue, hzero⟩
        · unfold CfiRow.cfa
          rw [hbase]
          exact hcfa
        · exact (CfiRow.slot_eq_some_iff _).mpr ⟨offset, hrule, hslot⟩
  · intro h
    obtain ⟨hdefined, hcfa, hstate, slot, hslot, hvalue, hzero⟩ := h
    obtain ⟨base, hbase, hcfa⟩ := except_bind_ok hcfa
    obtain ⟨offset, hrule, hslot⟩ := (CfiRow.slot_eq_some_iff "CFI return slot").mp hslot
    have hread : readCfiSlot readMemory slot "CFI return-address slot" =
        .ok evaluated.returnAddress := readCfiSlot_ok_iff.mpr hvalue
    unfold frameOfRow
    rw [hdefined, hbase, hrule]
    dsimp only [Bind.bind, Except.bind]
    rw [if_neg (by simp), hcfa]
    dsimp only
    rw [hslot]
    dsimp only
    rw [hread]
    dsimp only
    rw [if_neg hzero, ← hstate]
    rfl

/-- A register of the caller is recovered exactly when its slot, if it has one, can be read. -/
theorem recoverRegister_ok_iff {evaluated evaluated' : EvaluatedFrame} {reg : Word}
    {value : Option Word} {what : String} (hstate : evaluated.state = row.state)
    (hstate' : evaluated'.state = row.state) (hcfa : evaluated'.cfa = evaluated.cfa)
    (h : ∃ recovered, recoverRegister readMemory evaluated reg value what = .ok recovered) :
    (∃ recovered, recoverRegister readMemory' evaluated' reg value what = .ok recovered) ↔
      ∀ slot, row.slot evaluated.cfa reg = some slot →
        ∃ read, (readMemory' slot 8 >>= readU64) = .ok read := by
  obtain ⟨recovered, h⟩ := h
  unfold recoverRegister at h ⊢
  rw [hstate] at h
  rw [hstate', hcfa]
  split at h
  case h_1 hrule => simp [CfiRow.slot, hrule, pure, Except.pure]
  case h_2 hrule => simp [CfiRow.slot, hrule, pure, Except.pure]
  case h_3 hrule => simp [CfiRow.slot, hrule, pure, Except.pure]
  case h_4 offset hrule =>
    obtain ⟨slot, hslot, -⟩ := except_bind_ok h
    dsimp only [Bind.bind, Except.bind]
    rw [hslot]
    dsimp only
    constructor
    · intro hread
      obtain ⟨recovered', hread⟩ := hread
      obtain ⟨read, hread, -⟩ := except_bind_ok hread
      intro slot' hslot'
      obtain ⟨offset', hrule', hslot'⟩ := (CfiRow.slot_eq_some_iff what).mp hslot'
      rw [hrule] at hrule'
      cases hrule'
      rw [hslot] at hslot'
      cases hslot'
      exact ⟨read, readCfiSlot_ok_iff.mp hread⟩
    · intro hslots
      obtain ⟨read, hread⟩ :=
        hslots slot ((CfiRow.slot_eq_some_iff what).mpr ⟨offset, hrule, hslot⟩)
      refine ⟨some read, ?_⟩
      rw [readCfiSlot_ok_iff.mpr hread]
      rfl

theorem callerOfRow_ok {caller : EhFrameCursor}
    (h : callerOfRow readMemory current row = .ok caller) :
    ∃ evaluated, frameOfRow readMemory (cursorRegister current) row = .ok evaluated ∧
      (∃ framePointer, recoverRegister readMemory evaluated kDwarfRbp current.framePointer
        "CFI RBP slot" = .ok framePointer) ∧
      (∃ rbx, recoverRegister readMemory evaluated kDwarfRbx current.rbx "CFI RBX slot" =
        .ok rbx) ∧
      caller.stackPointer = evaluated.cfa ∧
      caller.instructionPointer = evaluated.returnAddress := by
  obtain ⟨evaluated, hframe, h⟩ := except_bind_ok h
  obtain ⟨framePointer, hframePointer, h⟩ := except_bind_ok h
  obtain ⟨rbx, hrbx, h⟩ := except_bind_ok h
  cases h
  exact ⟨evaluated, hframe, ⟨framePointer, hframePointer⟩, ⟨rbx, hrbx⟩, rfl, rfl⟩

/-- Another reader recovers a caller from the same row exactly when it can read its slots. -/
theorem callerOfRow_ok_iff (h : callerOfRow readMemory current row = .ok caller) :
    (∃ caller', callerOfRow readMemory' current row = .ok caller' ∧
      caller'.stackPointer = caller.stackPointer) ↔
      SlotsReadable readMemory' row caller.stackPointer := by
  obtain ⟨evaluated, hframe, hframePointer, hrbx, hcfa, -⟩ := callerOfRow_ok h
  obtain ⟨hdefined, hrowCfa, hstate, slot, hslot, -, -⟩ := frameOfRow_ok_iff.mp hframe
  rw [hcfa]
  constructor
  · intro hcaller
    obtain ⟨caller', hcaller, -⟩ := hcaller
    obtain ⟨evaluated', hframe', hframePointer', hrbx', -, -⟩ := callerOfRow_ok hcaller
    obtain ⟨-, hrowCfa', hstate', slot', hslot', hread', hzero'⟩ := frameOfRow_ok_iff.mp hframe'
    have hcfa' : evaluated'.cfa = evaluated.cfa := Except.ok.inj (hrowCfa'.symm.trans hrowCfa)
    refine ⟨?_, ?_, ?_⟩
    · intro slot'' hslot''
      rw [hcfa', hslot''] at hslot'
      cases hslot'
      exact ⟨evaluated'.returnAddress, hread', hzero'⟩
    · exact (recoverRegister_ok_iff hstate hstate' hcfa' hframePointer).mp hframePointer'
    · exact (recoverRegister_ok_iff hstate hstate' hcfa' hrbx).mp hrbx'
  · intro hslots
    obtain ⟨value, hvalue, hzero⟩ := hslots.returnAddress slot hslot
    obtain ⟨evaluated', hframe', hstate', hcfa'⟩ : ∃ evaluated',
        frameOfRow readMemory' (cursorRegister current) row = .ok evaluated' ∧
          evaluated'.state = row.state ∧ evaluated'.cfa = evaluated.cfa :=
      ⟨⟨row.state, evaluated.cfa, value⟩,
        frameOfRow_ok_iff.mpr ⟨hdefined, hrowCfa, rfl, slot, hslot, hvalue, hzero⟩, rfl, rfl⟩
    obtain ⟨framePointer, hframePointer'⟩ :=
      (recoverRegister_ok_iff hstate hstate' hcfa' hframePointer).mpr hslots.framePointer
    obtain ⟨rbx, hrbx'⟩ :=
      (recoverRegister_ok_iff hstate hstate' hcfa' hrbx).mpr hslots.rbx
    refine ⟨⟨evaluated'.returnAddress, evaluated'.cfa, framePointer, rbx⟩, ?_, hcfa'⟩
    unfold callerOfRow
    rw [hframe']
    dsimp only [Bind.bind, Except.bind]
    rw [hframePointer']
    dsimp only
    rw [hrbx']
    rfl

end CallerOfRow

end MiniDebugger
