import MiniDebugger.Unwind.Cfi

/-!
# Unwinding a thread of a core

`CoreSnapshot` is a parsed core file. `buildSnapshotInspectionFrames` unwinds one of its threads:
the owning module of each cursor comes from the `NT_FILE` mappings, memory from the captured
segments, and a signal trampoline is crossed by reading the interrupted registers from the signal
frame instead of by call-frame information.
-/

namespace MiniDebugger

structure CoreLoadSegment where
  virtualAddress : Word
  memorySize : Word
  fileOffset : Word
  fileSize : Word

structure CoreFileMapping where
  start : Word
  stop : Word
  fileOffset : Word
  path : String

structure CoreThreadSnapshot where
  tid : Pid
  signalNumber : Int
  registers : UserRegs

structure CoreSnapshot where
  bytes : List Byte
  loadSegments : List CoreLoadSegment
  fileMappings : List CoreFileMapping
  threads : List CoreThreadSnapshot
  /-- Which object this is; frames keep a pointer to theirs. -/
  address : Nat := 0

/-- `checked_add` -/
def checkedAdd (left right : Word) (what : String) : Except Exception Word :=
  if 2 ^ 64 - 1 - left.toNat < right.toNat then throw (.runtimeError (what ++ " overflows"))
  else return left + right

namespace CoreSnapshot

/-- The loop of `read_memory` over the segments. -/
def readSegments (snapshot : CoreSnapshot) (start stop : Word) (length : Nat) :
    List CoreLoadSegment → Except Exception (List Byte)
  | [] => throw (.runtimeError "core memory range is unmapped")
  | segment :: rest => do
    let memoryEnd ← checkedAdd segment.virtualAddress segment.memorySize "core PT_LOAD memory range"
    if start < segment.virtualAddress ∨ memoryEnd ≤ start then
      readSegments snapshot start stop length rest
    else
      if memoryEnd < stop then throw (.runtimeError "core memory read spans PT_LOAD boundary")
      let capturedEnd ← checkedAdd segment.virtualAddress segment.fileSize
        "core PT_LOAD captured range"
      if capturedEnd < stop then
        throw (.runtimeError "core memory range is not captured in PT_LOAD file bytes")
      let fileOffset ← checkedAdd segment.fileOffset (start - segment.virtualAddress)
        "core memory file offset"
      if snapshot.bytes.length < fileOffset.toNat + length then
        throw (.runtimeError "core memory bytes extends past end of file")
      return (snapshot.bytes.drop fileOffset.toNat).take length

def readMemory (snapshot : CoreSnapshot) : CfiMemoryReader := fun address length =>
  if length = 0 then return []
  else do
    let stop ← checkedAdd address (BitVec.ofNat 64 length) "core memory read range"
    snapshot.readSegments address stop length snapshot.loadSegments

/-- `mapping_for_address`: the mappings are sorted by their start. -/
def mappingForAddress (snapshot : CoreSnapshot) (address : Word) : Option CoreFileMapping :=
  (snapshot.fileMappings.takeWhile fun mapping => mapping.start ≤ address).find? fun mapping =>
    mapping.start ≤ address && address < mapping.stop

/-- `CoreSnapshot::thread`, as the position of the thread -/
def thread (snapshot : CoreSnapshot) (tid : Pid) :
    Except Exception (Fin snapshot.threads.length) :=
  match snapshot.threads.findFinIdx? fun thread => thread.tid = tid with
  | none => throw (.logicError "core thread TID is unavailable")
  | some thread => return thread

/-- The register `greg_index` of the signal context. -/
def signalSlot (snapshot : CoreSnapshot) (ucontextAddress gregIndex : Word) :
    Except Exception Word := do
  let bytes ← snapshot.readMemory (ucontextAddress + 0x28 + gregIndex * 8) 8
  if bytes.length ≠ 8 then
    throw (.runtimeError "Linux x86-64 signal context register is truncated")
  return BitVec.ofNat 64 (littleEndian bytes)

/-- `read_linux_x86_signal_xmm0`; `std::overflow_error` is a `std::runtime_error`. -/
def signalXmm0 (snapshot : CoreSnapshot) (ucontextAddress restoredRsp : Word) :
    Except Exception (List Byte) := do
  let fpregsPointerOffset := 0x28 + 23 * 8
  if 2 ^ 64 - 1 - fpregsPointerOffset < ucontextAddress.toNat then
    throw (.runtimeError "Linux x86-64 signal fpregs pointer address overflows")
  let pointerBytes ←
    snapshot.readMemory (ucontextAddress + BitVec.ofNat 64 fpregsPointerOffset) 8
  if pointerBytes.length ≠ 8 then
    throw (.runtimeError "Linux x86-64 signal fpregs pointer is truncated")
  let fpstate := BitVec.ofNat 64 (littleEndian pointerBytes)
  if fpstate = 0 then throw (.runtimeError "Linux x86-64 signal fpregs pointer is invalid")
  if fpstate ≤ ucontextAddress ∨ restoredRsp ≤ fpstate then
    throw (.runtimeError
      "Linux x86-64 signal fpstate is outside the evidence-proven same-stack layout")
  if 2 ^ 64 - 1 - 160 < fpstate.toNat then
    throw (.runtimeError "Linux x86-64 signal XMM0 address overflows")
  let xmm0Address := fpstate + 160
  if 2 ^ 64 - 1 - 16 < xmm0Address.toNat then
    throw (.runtimeError "Linux x86-64 signal XMM0 range overflows")
  if restoredRsp < xmm0Address + 16 then
    throw (.runtimeError
      "Linux x86-64 signal XMM0 state extends outside the evidence-proven same-stack layout")
  let bytes ← snapshot.readMemory xmm0Address 16
  if bytes.length ≠ 16 then
    throw (.runtimeError "Linux x86-64 signal XMM0 state is truncated")
  return bytes

end CoreSnapshot

/-- Whether the instruction of a frame is the one at its pc or the call before it. -/
inductive SnapshotFramePcOwnership where
  | exactInstruction | returnAddress
  deriving DecidableEq, Repr

/-- A recovered caller, with what a signal frame adds to it. -/
structure SnapshotCaller where
  cursor : EhFrameCursor
  r12 : Option Word := none
  rdi : Option Word := none
  rsi : Option Word := none
  xmm0 : Option (List Byte) := none
  pcOwnership : SnapshotFramePcOwnership := .returnAddress

/-- `recover_linux_x86_signal_frame` -/
def recoverLinuxX86SignalFrame (snapshot : CoreSnapshot) (ucontextAddress : Word) :
    Except Exception SnapshotCaller := do
  let r12 ← snapshot.signalSlot ucontextAddress 4
  let rdi ← snapshot.signalSlot ucontextAddress 8
  let rsi ← snapshot.signalSlot ucontextAddress 9
  let rip ← snapshot.signalSlot ucontextAddress 16
  let rsp ← snapshot.signalSlot ucontextAddress 15
  let rbp ← snapshot.signalSlot ucontextAddress 10
  let rbx ← snapshot.signalSlot ucontextAddress 11
  if rip = 0 ∨ rsp = 0 then
    throw (.runtimeError "Linux x86-64 signal context contains a zero RIP or RSP")
  if rsp ≤ ucontextAddress then
    throw (.runtimeError
      "Linux x86-64 signal context is outside the evidence-proven same-stack layout")
  let xmm0 ← snapshot.signalXmm0 ucontextAddress rsp
  return { cursor := ⟨rip, rsp, rbp, rbx⟩, r12, rdi, rsi, xmm0, pcOwnership := .exactInstruction }

structure SnapshotModuleAddress where
  modulePath : String
  moduleFilePath : String
  virtualAddress : Word
  deriving DecidableEq

def resolveSnapshotModuleAddress (snapshot : CoreSnapshot) (files : Files) (address : Word) :
    Except Exception SnapshotModuleAddress :=
  match snapshot.mappingForAddress address with
  | none => throw (.runtimeError "snapshot address is not covered by NT_FILE mapping")
  | some mapping => do
    if mapping.path.toList.head? ≠ some '/' then
      throw (.runtimeError "snapshot NT_FILE mapping lacks an absolute module path")
    let moduleFilePath ← files.resolve mapping.path
    let module ← files.elf moduleFilePath
    if !module.isPie then return ⟨mapping.path, moduleFilePath, address⟩
    match snapshot.fileMappings.find? fun candidate =>
        candidate.path = mapping.path && candidate.fileOffset = 0 with
    | none => throw (.runtimeError "snapshot PIE module lacks offset-zero NT_FILE mapping")
    | some base =>
      if base.start < module.loadVirtualBase then
        throw (.runtimeError "snapshot PIE mapping is below ELF load virtual base")
      let bias := base.start - module.loadVirtualBase
      if address < bias then
        throw (.runtimeError "snapshot runtime address is below module load bias")
      return ⟨mapping.path, moduleFilePath, address - bias⟩

/-- One recovery of `build_snapshot_inspection_frames`, inside its `try`. -/
def snapshotCaller (snapshot : CoreSnapshot) (files : Files) (current : EhFrameCursor) :
    Except Exception (Option SnapshotCaller) := do
  let module ← resolveSnapshotModuleAddress snapshot files current.instructionPointer
  let cfi ← files.ehFrame module.moduleFilePath
  if !cfi.available then return none
  let signalIndex ← files.signalIndex module.moduleFilePath
  if ← signalIndex.isSignalFrame module.virtualAddress then
    let signal ← recoverLinuxX86SignalFrame snapshot current.stackPointer
    return some signal
  else
    let caller ← cfi.callerFrame snapshot.readMemory module.virtualAddress current
    return caller.map fun cursor => { cursor }

structure SnapshotInspectionFrameContext where
  index : Nat
  ownerSnapshot : Nat := 0
  threadTid : Pid
  threadSignalNumber : Int
  originRuntimePc : Word
  originStackPointer : Word
  originFramePointer : Option Word
  runtimePc : Word
  stackPointer : Word
  framePointer : Option Word
  pcOwnership : SnapshotFramePcOwnership
  modulePath : String
  registers : InspectionRegisterState
  deriving DecidableEq, Repr

/-- The cursor a frame was made from. -/
def SnapshotInspectionFrameContext.cursor (frame : SnapshotInspectionFrameContext) :
    EhFrameCursor :=
  ⟨frame.runtimePc, frame.stackPointer, frame.framePointer, frame.registers.rbx⟩

structure SnapshotInspectionTrace where
  frames : List SnapshotInspectionFrameContext
  stopReason : CfiUnwindStopReason

def snapshotFrameModulePath (snapshot : CoreSnapshot) (address : Word) :
    Except Exception String :=
  match snapshot.mappingForAddress address with
  | none => throw (.runtimeError "snapshot frame address is not covered by NT_FILE mapping")
  | some mapping =>
    if mapping.path.toList.head? ≠ some '/' then
      throw (.runtimeError "snapshot frame NT_FILE mapping lacks an absolute module path")
    else return mapping.path

/-- The check that a thread context belongs to this snapshot. -/
def CoreSnapshot.checkOwner (snapshot : CoreSnapshot) (thread : Fin snapshot.threads.length) :
    Except Exception Unit := do
  let owned ← snapshot.thread (snapshot.threads.get thread).tid
  if owned ≠ thread then
    throw (.logicError "snapshot thread context belongs to a different owner")

def makeSnapshotInspectionFrame (snapshot : CoreSnapshot)
    (thread : Fin snapshot.threads.length) (index : Nat) (caller : SnapshotCaller) :
    Except Exception SnapshotInspectionFrameContext := do
  snapshot.checkOwner thread
  let data := snapshot.threads.get thread
  let origin := data.registers
  let cursor := caller.cursor
  let modulePath ← snapshotFrameModulePath snapshot cursor.instructionPointer
  return { index, ownerSnapshot := snapshot.address, threadTid := data.tid
           threadSignalNumber := data.signalNumber
           originRuntimePc := origin.rip, originStackPointer := origin.rsp
           originFramePointer := origin.rbp, runtimePc := cursor.instructionPointer
           stackPointer := cursor.stackPointer, framePointer := cursor.framePointer
           pcOwnership := caller.pcOwnership, modulePath
           registers := { rbx := cursor.rbx, rbp := cursor.framePointer, rsp := cursor.stackPointer
                          r12 := caller.r12, rdi := caller.rdi, rsi := caller.rsi
                          xmm0 := caller.xmm0 } }

/-- The loop of `build_snapshot_inspection_frames`, with room for `room` more frames. -/
def snapshotFramesFrom (snapshot : CoreSnapshot) (files : Files)
    (thread : Fin snapshot.threads.length) : Nat → EhFrameCursor →
    List SnapshotInspectionFrameContext → Except Exception SnapshotInspectionTrace
  | 0, _, frames => return ⟨frames, .frameLimit⟩
  | room + 1, current, frames =>
    match snapshotCaller snapshot files current with
    | .error _ => return ⟨frames, .invalidFrameState⟩
    | .ok none => return ⟨frames, if frames.length = 1 then .noFrameInfo else .endOfChain⟩
    | .ok (some caller) =>
      if caller.cursor.instructionPointer = current.instructionPointer ∨
          caller.cursor.stackPointer ≤ current.stackPointer then
        return ⟨frames, .invalidFrameState⟩
      else
        match resolveSnapshotModuleAddress snapshot files caller.cursor.instructionPointer with
        | .error _ => return ⟨frames, .invalidFrameState⟩
        | .ok _ => do
          let frame ← makeSnapshotInspectionFrame snapshot thread frames.length caller
          snapshotFramesFrom snapshot files thread room caller.cursor (frames ++ [frame])

def buildSnapshotInspectionFrames (snapshot : CoreSnapshot) (files : Files)
    (thread : Fin snapshot.threads.length) (maxFrames : Nat) :
    Except Exception SnapshotInspectionTrace := do
  if maxFrames = 0 then
    throw (.invalidArgument "snapshot inspection requires a non-zero frame limit")
  snapshot.checkOwner thread
  let current := (snapshot.threads.get thread).registers.cursor
  let frame ← makeSnapshotInspectionFrame snapshot thread 0
    { cursor := current, pcOwnership := .exactInstruction }
  if maxFrames = 1 then return ⟨[frame], .frameLimit⟩
  snapshotFramesFrom snapshot files thread (maxFrames - 1) current [frame]

/-! ## The loop is a walk -/

/-- One caller recovery in a core. -/
def snapshotStep (snapshot : CoreSnapshot) (files : Files) (current : EhFrameCursor) :
    Option EhFrameCursor :=
  (snapshotCaller snapshot files current).toOption.join.map (·.cursor)

/-- The address has an owning module in the core. -/
def CoreSnapshot.Backed (snapshot : CoreSnapshot) (files : Files) (address : Word) : Prop :=
  (resolveSnapshotModuleAddress snapshot files address).toOption.isSome = true

instance (snapshot : CoreSnapshot) (files : Files) (address : Word) :
    Decidable (snapshot.Backed files address) := inferInstanceAs (Decidable (_ = _))

section Walks

variable {snapshot : CoreSnapshot} {files : Files} {thread : Fin snapshot.threads.length}

/-- Where no signal trampoline is involved the step is `EhFrame::caller_frame` on the owning
module. -/
theorem snapshotStep_of_not_signal {current : EhFrameCursor} {module : SnapshotModuleAddress}
    {cfi : EhFrame} {signalIndex : EhFrameSignalIndex}
    (hmodule : resolveSnapshotModuleAddress snapshot files current.instructionPointer = .ok module)
    (hcfi : files.ehFrame module.moduleFilePath = .ok cfi)
    (hindex : files.signalIndex module.moduleFilePath = .ok signalIndex)
    (hsignal : signalIndex.isSignalFrame module.virtualAddress = .ok false) :
    snapshotStep snapshot files current =
      (cfi.callerFrame snapshot.readMemory module.virtualAddress current).toOption.join := by
  have hunavailable : cfi.available = false →
      cfi.callerFrame snapshot.readMemory module.virtualAddress current = .ok none := by
    intro h
    simp [EhFrame.callerFrame, h, pure, Except.pure]
  unfold snapshotStep snapshotCaller
  rw [hmodule]
  simp only [hcfi, hindex, hsignal, bind, Except.bind, pure, Except.pure]
  cases havailable : cfi.available with
  | false => simp [hunavailable havailable, Except.toOption]
  | true =>
    cases hcall : cfi.callerFrame snapshot.readMemory module.virtualAddress current with
    | error e => simp [Except.toOption]
    | ok caller => cases caller <;> simp [Except.toOption]

theorem snapshotFrameModulePath_ok {address : Word} {module : SnapshotModuleAddress}
    (h : resolveSnapshotModuleAddress snapshot files address = .ok module) :
    ∃ path, snapshotFrameModulePath snapshot address = .ok path := by
  unfold resolveSnapshotModuleAddress at h
  unfold snapshotFrameModulePath
  split at h
  · cases h
  · rename_i mapping hmapping
    by_cases hpath : mapping.path.toList.head? = some '/'
    · exact ⟨mapping.path, by simp [hpath, pure, Except.pure]⟩
    · simp [hpath, bind, Except.bind, throw, throwThe, MonadExceptOf.throw] at h

/-- A frame can be made for every address the code knows a module path for. -/
theorem makeSnapshotInspectionFrame_ok (howner : snapshot.checkOwner thread = .ok ())
    (index : Nat) (caller : SnapshotCaller) {path : String}
    (hpath : snapshotFrameModulePath snapshot caller.cursor.instructionPointer = .ok path) :
    ∃ frame, makeSnapshotInspectionFrame snapshot thread index caller = .ok frame ∧
      frame.cursor = caller.cursor := by
  unfold makeSnapshotInspectionFrame
  simp only [howner, hpath, bind, Except.bind, pure, Except.pure]
  exact ⟨_, rfl, rfl⟩

theorem snapshotFramesFrom_cursors (howner : snapshot.checkOwner thread = .ok ()) (room : Nat)
    (current : EhFrameCursor) (frames : List SnapshotInspectionFrameContext) :
    ∃ trace, snapshotFramesFrom snapshot files thread room current frames = .ok trace ∧
      trace.frames.map (·.cursor) = frames.map (·.cursor) ++
        walk (snapshotStep snapshot files)
          (fun s t => s.Precedes t ∧ snapshot.Backed files t.instructionPointer) room current := by
  induction room generalizing current frames with
  | zero => exact ⟨_, rfl, by simp [walk]⟩
  | succ room ih =>
    unfold snapshotFramesFrom walk
    have hstep : snapshotStep snapshot files current =
        (snapshotCaller snapshot files current).toOption.join.map (·.cursor) := rfl
    cases hcall : snapshotCaller snapshot files current with
    | error e => exact ⟨_, rfl, by simp [hstep, hcall, Except.toOption]⟩
    | ok caller =>
      cases caller with
      | none => exact ⟨_, rfl, by simp [hstep, hcall, Except.toOption]⟩
      | some caller =>
        have hstep : snapshotStep snapshot files current = some caller.cursor := by
          simp [hstep, hcall, Except.toOption]
        rw [hstep]
        dsimp only
        by_cases hprec : current.Precedes caller.cursor
        · rw [if_neg (fun h => not_precedes_iff.mp h hprec)]
          cases hmodule : resolveSnapshotModuleAddress snapshot files
              caller.cursor.instructionPointer with
          | error e =>
            have hback : ¬snapshot.Backed files caller.cursor.instructionPointer := by
              simp [CoreSnapshot.Backed, hmodule, Except.toOption]
            rw [if_neg (fun h => hback h.2)]
            exact ⟨_, rfl, by simp⟩
          | ok module =>
            have hback : snapshot.Backed files caller.cursor.instructionPointer := by
              simp [CoreSnapshot.Backed, hmodule, Except.toOption]
            obtain ⟨path, hpath⟩ := snapshotFrameModulePath_ok hmodule
            obtain ⟨frame, hframe, hcursor⟩ :=
              makeSnapshotInspectionFrame_ok howner frames.length caller hpath
            obtain ⟨trace, htrace, hcursors⟩ := ih caller.cursor (frames ++ [frame])
            refine ⟨trace, ?_, ?_⟩
            · simp only [hframe, bind, Except.bind, htrace]
            · rw [hcursors, if_pos ⟨hprec, hback⟩]
              simp [hcursor]
        · rw [if_pos (not_precedes_iff.mpr hprec), if_neg (fun h => hprec h.1)]
          exact ⟨_, rfl, by simp⟩

end Walks

end MiniDebugger
