import MiniDebugger.Dwarf.EhFrameSignal
import MiniDebugger.Unwind.Walk

/-!
# Unwinding a stopped tracee

`unwindEhFrame` and `buildInspectionFrames` recover the callers of a stopped thread one after the
other, each with the call-frame information of the module its instruction pointer lies in. `Tracee`
is what they read of the debugger, with `/proc/<pid>/maps` as a list of lines, and `Files` what they
read from disk.

Both loops are walks over the cursors that `callerForCursor` yields; `CfiStackFrame.ofCursor` and
`InspectionFrameContext.cursor` say which frame stands for which cursor.
-/

namespace MiniDebugger

inductive CfiUnwindStopReason where
  | endOfChain | frameLimit | noFrameInfo | invalidFrameState
  deriving DecidableEq, Repr

/-- A line of `/proc/<pid>/maps`, with the blanks before the path removed. -/
structure MapsLine where
  start : Word
  stop : Word
  offset : Word
  path : String

inductive ElfType where
  | exec | dyn | other
  deriving DecidableEq, Repr

structure ElfFile where
  path : String
  /-- `mapped_identity_path(path_)` -/
  mappedPath : String
  elfType : ElfType
  loadVirtualBase : Word
  deriving DecidableEq

def ElfFile.isPie (elf : ElfFile) : Bool := elf.elfType = .dyn

/-- The files the unwinders open, as their parsers read them. -/
structure Files where
  /-- `same_file` -/
  sameFile : String → String → Bool
  elf : String → Except Exception ElfFile
  ehFrame : String → Except Exception EhFrame
  signalIndex : String → Except Exception EhFrameSignalIndex
  /-- `SnapshotModulePathResolver::resolve` -/
  resolve : String → Except Exception String

structure Tracee where
  state : ProcessState
  pid : Pid
  activeTid : Pid
  stopSequence : Nat
  registers : UserRegs
  readMemory : CfiMemoryReader
  /-- `none` when `/proc/<pid>/maps` cannot be opened. -/
  maps : Option (List MapsLine)

def isDeletedMapping (path : String) : Bool := " (deleted)".toList.isSuffixOf path.toList

/-- Neither anonymous nor deleted. -/
def isModulePath (path : String) : Bool :=
  path.toList.head? = some '/' && !isDeletedMapping path

namespace Tracee

def mappedModulePath (tracee : Tracee) (address : Word) : Except Exception (Option String) :=
  match tracee.maps with
  | none => throw (.runtimeError "failed to open tracee memory map for CFI unwind")
  | some lines =>
    match lines.find? fun line => line.start ≤ address && address < line.stop with
    | none => return none
    | some line => return if isModulePath line.path then some line.path else none

/-- `ElfFile::load_bias` -/
def loadBias (tracee : Tracee) (elf : ElfFile) : Except Exception Word :=
  match elf.elfType with
  | .exec => return 0
  | .other => throw (.runtimeError "unsupported ELF executable type")
  | .dyn =>
    match tracee.maps with
    | none => throw (.runtimeError "failed to open tracee memory map")
    | some lines =>
      match lines.find? fun line => line.path = elf.mappedPath && line.offset = 0 with
      | none =>
        throw (.runtimeError ("could not locate ELF mapping for load bias: " ++ elf.mappedPath))
      | some line =>
        if line.start < elf.loadVirtualBase then
          throw (.runtimeError "invalid ELF mapping below load virtual address")
        else return line.start - elf.loadVirtualBase

/-- `EhFrame::caller_frame` for a live tracee -/
def callerFrame (tracee : Tracee) (cfi : EhFrame) (elf : ElfFile) (current : EhFrameCursor) :
    Except Exception (Option EhFrameCursor) := do
  if !cfi.available then return none
  if tracee.state ≠ .stopped then
    throw (.logicError "CFI backtrace requires a stopped tracee")
  let bias ← tracee.loadBias elf
  if current.instructionPointer < bias then
    throw (.runtimeError "runtime frame RIP is below executable load bias")
  cfi.callerFrame tracee.readMemory (current.instructionPointer - bias) current

end Tracee

structure ModuleCfi where
  path : String
  elf : ElfFile
  cfi : EhFrame
  deriving DecidableEq

/-- The modules loaded in the course of one unwind. -/
abbrev ModuleCache := List ModuleCfi

def cachedModule (files : Files) (path : String) :
    StateT ModuleCache (Except Exception) ModuleCfi := fun modules =>
  match modules.find? fun known => files.sameFile known.path path with
  | some known => return (known, modules)
  | none => do
    let elf ← files.elf path
    let cfi ← files.ehFrame path
    return (⟨path, elf, cfi⟩, modules ++ [⟨path, elf, cfi⟩])

/-- The module the caller of the unwinder has loaded already. -/
structure Preferred where
  elf : ElfFile
  cfi : EhFrame

def callerForCursor (tracee : Tracee) (files : Files) (preferred : Preferred)
    (current : EhFrameCursor) : StateT ModuleCache (Except Exception) (Option EhFrameCursor) := do
  match ← tracee.mappedModulePath current.instructionPointer with
  | none => return none
  | some path =>
    if files.sameFile path preferred.elf.path then
      if !preferred.cfi.available then return none
      else tracee.callerFrame preferred.cfi preferred.elf current
    else
      let module ← cachedModule files path
      if !module.cfi.available then return none
      else tracee.callerFrame module.cfi module.elf current

/-! ## The two unwinders -/

structure CfiStackFrame where
  instructionPointer : Word
  stackPointer : Word
  framePointer : Option Word
  deriving DecidableEq, Repr

def CfiStackFrame.ofCursor (cursor : EhFrameCursor) : CfiStackFrame :=
  ⟨cursor.instructionPointer, cursor.stackPointer, cursor.framePointer⟩

structure CfiBacktrace where
  frames : List CfiStackFrame
  stopReason : CfiUnwindStopReason

/-- The cursor of the innermost frame. -/
def UserRegs.cursor (regs : UserRegs) : EhFrameCursor := ⟨regs.rip, regs.rsp, regs.rbp, regs.rbx⟩

/-- The loop of `unwind_eh_frame`, with room for `room` more frames. -/
def unwindFrom (tracee : Tracee) (files : Files) (preferred : Preferred) :
    Nat → EhFrameCursor → ModuleCache → List CfiStackFrame → CfiBacktrace
  | 0, _, _, frames => ⟨frames, .frameLimit⟩
  | room + 1, current, modules, frames =>
    match callerForCursor tracee files preferred current modules with
    | .error _ => ⟨frames, .invalidFrameState⟩
    | .ok (none, _) => ⟨frames, if frames.length = 1 then .noFrameInfo else .endOfChain⟩
    | .ok (some caller, modules) =>
      if caller.instructionPointer = current.instructionPointer ∨
          caller.stackPointer ≤ current.stackPointer then ⟨frames, .invalidFrameState⟩
      else unwindFrom tracee files preferred room caller modules (frames ++ [.ofCursor caller])

def unwindEhFrame (tracee : Tracee) (files : Files) (preferred : Preferred) (maxFrames : Nat) :
    Except Exception CfiBacktrace :=
  if maxFrames = 0 then throw (.invalidArgument "CFI unwind requires a non-zero frame limit")
  else if tracee.state ≠ .stopped then throw (.logicError "CFI unwind requires a stopped tracee")
  else
    let current := tracee.registers.cursor
    if maxFrames = 1 then return ⟨[.ofCursor current], .frameLimit⟩
    else return unwindFrom tracee files preferred (maxFrames - 1) current [] [.ofCursor current]

structure InspectionRegisterState where
  rax : Option Word := none
  rbx : Option Word := none
  rcx : Option Word := none
  rdx : Option Word := none
  rsi : Option Word := none
  rdi : Option Word := none
  rbp : Option Word := none
  rsp : Option Word := none
  r8 : Option Word := none
  r9 : Option Word := none
  r10 : Option Word := none
  r11 : Option Word := none
  r12 : Option Word := none
  r13 : Option Word := none
  r14 : Option Word := none
  r15 : Option Word := none
  xmm0 : Option (List Byte) := none
  deriving DecidableEq, Repr

def liveRegisterState (regs : UserRegs) : InspectionRegisterState :=
  { rax := regs.rax, rbx := regs.rbx, rcx := regs.rcx, rdx := regs.rdx, rsi := regs.rsi
    rdi := regs.rdi, rbp := regs.rbp, rsp := regs.rsp, r8 := regs.r8, r9 := regs.r9
    r10 := regs.r10, r11 := regs.r11, r12 := regs.r12, r13 := regs.r13, r14 := regs.r14
    r15 := regs.r15 }

def callerRegisterState (caller : EhFrameCursor) : InspectionRegisterState :=
  { rsp := caller.stackPointer, rbx := caller.rbx, rbp := caller.framePointer }

structure InspectionFrameContext where
  index : Nat
  processPid : Pid
  tid : Pid
  originStopSequence : Nat
  originRuntimePc : Word
  originStackPointer : Word
  originFramePointer : Option Word
  runtimePc : Word
  stackPointer : Word
  framePointer : Option Word
  modulePath : String
  registers : InspectionRegisterState
  deriving DecidableEq, Repr

/-- The cursor a frame was made from. -/
def InspectionFrameContext.cursor (frame : InspectionFrameContext) : EhFrameCursor :=
  ⟨frame.runtimePc, frame.stackPointer, frame.framePointer, frame.registers.rbx⟩

def currentInspectionFrame (tracee : Tracee) : Except Exception InspectionFrameContext := do
  if tracee.state ≠ .stopped then
    throw (.logicError "inspection-frame construction requires a stopped tracee")
  let regs := tracee.registers
  match ← tracee.mappedModulePath regs.rip with
  | none => throw (.runtimeError "current frame is not owned by a file-backed module")
  | some module =>
    return { index := 0, processPid := tracee.pid, tid := tracee.activeTid
             originStopSequence := tracee.stopSequence, originRuntimePc := regs.rip
             originStackPointer := regs.rsp, originFramePointer := regs.rbp
             runtimePc := regs.rip, stackPointer := regs.rsp, framePointer := regs.rbp
             modulePath := module, registers := liveRegisterState regs }

/-- The frame of a recovered caller. -/
def InspectionFrameContext.caller (current : InspectionFrameContext) (index : Nat)
    (caller : EhFrameCursor) (module : String) : InspectionFrameContext :=
  { current with
    index, runtimePc := caller.instructionPointer, stackPointer := caller.stackPointer
    framePointer := caller.framePointer, modulePath := module
    registers := callerRegisterState caller }

/-- The loop of `build_inspection_frames`, with room for `room` more frames. -/
def inspectionFramesFrom (tracee : Tracee) (files : Files) (preferred : Preferred)
    (context : InspectionFrameContext) : Nat → EhFrameCursor → ModuleCache →
    List InspectionFrameContext → Except Exception (List InspectionFrameContext)
  | 0, _, _, result => return result
  | room + 1, current, modules, result =>
    match callerForCursor tracee files preferred current modules with
    | .error _ => return result
    | .ok (none, _) => return result
    | .ok (some caller, modules) =>
      if caller.instructionPointer = current.instructionPointer ∨
          caller.stackPointer ≤ current.stackPointer then return result
      else do
        match ← tracee.mappedModulePath caller.instructionPointer with
        | none => return result
        | some module =>
          inspectionFramesFrom tracee files preferred context room caller modules
            (result ++ [context.caller result.length caller module])

def buildInspectionFrames (tracee : Tracee) (files : Files) (preferred : Preferred)
    (maxFrames : Nat) : Except Exception (List InspectionFrameContext) := do
  if maxFrames = 0 then
    throw (.invalidArgument "inspection-frame construction requires a non-zero frame limit")
  let context ← currentInspectionFrame tracee
  if maxFrames = 1 then return [context]
  inspectionFramesFrom tracee files preferred context (maxFrames - 1) context.cursor [] [context]

/-! ## The loops are walks -/

/-- One caller recovery, with the modules loaded so far. -/
def liveStep (tracee : Tracee) (files : Files) (preferred : Preferred)
    (state : EhFrameCursor × ModuleCache) : Option (EhFrameCursor × ModuleCache) :=
  match callerForCursor tracee files preferred state.1 state.2 with
  | .ok (some caller, modules) => some (caller, modules)
  | _ => none

/-- The checks of the unwinders on a recovered caller. -/
def EhFrameCursor.Precedes (current caller : EhFrameCursor) : Prop :=
  current.instructionPointer ≠ caller.instructionPointer ∧
    current.stackPointer < caller.stackPointer

instance : DecidableRel EhFrameCursor.Precedes := fun _ _ => inferInstanceAs (Decidable (_ ∧ _))

/-- The address lies in a file-backed module of the tracee. -/
def Tracee.Backed (tracee : Tracee) (address : Word) : Prop :=
  (tracee.mappedModulePath address).toOption.join.isSome = true

instance (tracee : Tracee) (address : Word) : Decidable (tracee.Backed address) :=
  inferInstanceAs (Decidable (_ = _))

section Walks

variable {tracee : Tracee} {files : Files} {preferred : Preferred}

theorem not_precedes_iff {current caller : EhFrameCursor} :
    caller.instructionPointer = current.instructionPointer ∨
      caller.stackPointer ≤ current.stackPointer ↔ ¬current.Precedes caller := by
  unfold EhFrameCursor.Precedes
  rw [not_and_or, not_not, BitVec.not_lt, eq_comm]

theorem liveStep_eq (tracee : Tracee) (files : Files) (preferred : Preferred)
    (state : EhFrameCursor × ModuleCache) :
    liveStep tracee files preferred state =
      match callerForCursor tracee files preferred state.1 state.2 with
      | .ok (some caller, modules) => some (caller, modules)
      | _ => none := rfl

theorem unwindFrom_frames (room : Nat) (state : EhFrameCursor × ModuleCache)
    (frames : List CfiStackFrame) :
    (unwindFrom tracee files preferred room state.1 state.2 frames).frames =
      frames ++ (walk (liveStep tracee files preferred) (fun s t => s.1.Precedes t.1) room
        state).map fun s => .ofCursor s.1 := by
  induction room generalizing state frames with
  | zero => simp [unwindFrom, walk]
  | succ room ih =>
    have hstep := liveStep_eq tracee files preferred state
    unfold unwindFrom walk
    cases hcall : callerForCursor tracee files preferred state.1 state.2 with
    | error e => simp [hstep, hcall]
    | ok result =>
      obtain ⟨caller, modules⟩ := result
      rw [hstep, hcall]
      cases caller with
      | none => simp
      | some caller =>
        dsimp only
        by_cases hprec : state.1.Precedes caller
        · rw [if_neg (fun h => not_precedes_iff.mp h hprec), if_pos hprec,
            ih (caller, modules), List.map_cons, List.append_assoc]
          simp
        · rw [if_pos (not_precedes_iff.mpr hprec), if_neg hprec]
          simp

/-- The maps of the tracee open, so that looking up a module does not throw. -/
theorem mappedModulePath_ok (hmaps : tracee.maps.isSome = true) (address : Word) :
    ∃ module, tracee.mappedModulePath address = .ok module := by
  obtain ⟨lines, hlines⟩ := Option.isSome_iff_exists.mp hmaps
  unfold Tracee.mappedModulePath
  rw [hlines]
  dsimp only
  split
  · exact ⟨none, rfl⟩
  · exact ⟨_, rfl⟩

@[simp] theorem caller_cursor (context : InspectionFrameContext) (index : Nat)
    (caller : EhFrameCursor) (module : String) :
    (context.caller index caller module).cursor = caller := rfl

theorem inspectionFramesFrom_cursors (context : InspectionFrameContext)
    (hmaps : tracee.maps.isSome = true) (room : Nat) (state : EhFrameCursor × ModuleCache)
    (result : List InspectionFrameContext) :
    ∃ frames, inspectionFramesFrom tracee files preferred context room state.1 state.2 result =
        .ok frames ∧
      frames.map (·.cursor) = result.map (·.cursor) ++
        (walk (liveStep tracee files preferred)
          (fun s t => s.1.Precedes t.1 ∧ tracee.Backed t.1.instructionPointer) room state).map
          (·.1) := by
  induction room generalizing state result with
  | zero => exact ⟨result, rfl, by simp [walk]⟩
  | succ room ih =>
    have hstep := liveStep_eq tracee files preferred state
    unfold inspectionFramesFrom walk
    cases hcall : callerForCursor tracee files preferred state.1 state.2 with
    | error e => exact ⟨result, rfl, by simp [hstep, hcall]⟩
    | ok found =>
      obtain ⟨caller, modules⟩ := found
      rw [hstep, hcall]
      cases caller with
      | none => exact ⟨result, rfl, by simp⟩
      | some caller =>
        dsimp only
        by_cases hprec : state.1.Precedes caller
        · rw [if_neg (fun h => not_precedes_iff.mp h hprec)]
          obtain ⟨module, hmodule⟩ := mappedModulePath_ok hmaps caller.instructionPointer
          cases module with
          | none =>
            have hback : ¬tracee.Backed caller.instructionPointer := by
              simp [Tracee.Backed, hmodule, Except.toOption]
            rw [if_neg (fun h => hback h.2)]
            exact ⟨result, by rw [hmodule]; rfl, by simp⟩
          | some path =>
            have hback : tracee.Backed caller.instructionPointer := by
              simp [Tracee.Backed, hmodule, Except.toOption]
            rw [if_pos ⟨hprec, hback⟩, hmodule]
            obtain ⟨frames, hframes, hcursors⟩ := ih (caller, modules)
              (result ++ [context.caller result.length caller path])
            refine ⟨frames, hframes, ?_⟩
            rw [hcursors]
            simp
        · rw [if_pos (not_precedes_iff.mpr hprec), if_neg (fun h => hprec h.1)]
          exact ⟨result, rfl, by simp⟩

end Walks

end MiniDebugger
