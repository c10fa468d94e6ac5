import MiniDebugger.Core.Session
import MiniDebugger.Debugger.Runs
import MiniDebugger.X86.CallDecoder

/-!
# Moving by source lines

`step`, `next` and `finish` are loops around the operations of the debugger. `next` and `finish` run
to the return address of a call: they put a temporary breakpoint there, unless the user has one, and
take it away again when the tracee has stopped, wherever that was.
-/

namespace MiniDebugger

open Command

/-- `ModuleSourcePosition` -/
structure ModuleSourcePosition where
  modulePath : String
  source : SourceLocation
  deriving DecidableEq, Repr

/-- What `find_module_source_by_runtime_address` finds for the active process. -/
abbrev SourceFinder := Session → Addr → Except Exception (Option ModuleSourcePosition)

inductive SourceStepStopReason where
  | lineChanged | interrupted | instructionLimit
  deriving DecidableEq, Repr

structure SourceStepResult where
  reason : SourceStepStopReason
  stop : StopInfo
  source : Option SourceLocation
  instructions : Nat
  sourceModulePath : Option String
  deriving DecidableEq, Repr

inductive FinishStopReason where
  | returned | interrupted
  deriving DecidableEq, Repr

structure FinishResult where
  reason : FinishStopReason
  stop : StopInfo
  returnAddress : Addr
  deriving DecidableEq, Repr

def sameSourceLine (left right : ModuleSourcePosition) : Bool :=
  left.modulePath = right.modulePath ∧ left.source.file = right.source.file ∧
    left.source.line = right.source.line

section Motion

variable (sources : SourceFinder) (tracees : Tracees)

def currentModuleSource : Act (Option ModuleSourcePosition) := do
  let process ← view (·.process)
  if process.state ≠ .stopped then return none
  let regs ← registers
  match ← read fun s => sources s regs.rip with
  | .ok position => return position
  | .error e => raise e

/-- A result with the position the tracee has stopped at. -/
def sourceStepResult (reason : SourceStepStopReason) (stop : StopInfo)
    (position : Option ModuleSourcePosition) (instructions : Nat) : SourceStepResult where
  reason
  stop
  source := position.map (·.source)
  instructions
  sourceModulePath := position.map (·.modulePath)

/-- The byte of the instruction at `rip`; there is none past the end of the address space. -/
def readInstructionByte (rip : Addr) (offset : Nat) : Act (Option Byte) := do
  if 2 ^ 64 - 1 - rip.toNat < offset then return none
  let bytes ← readMemory (rip + BitVec.ofNat 64 offset) 1
  return bytes.head?

def supportedCallReturnAddress : Act (Option Addr) := do
  let regs ← registers
  match ← decodeSupportedNearCallLength (readInstructionByte regs.rip) with
  | none => return none
  | some length =>
    if 2 ^ 64 - 1 - regs.rip.toNat < length then
      raise (.runtimeError "call return address overflows address space")
    return some (regs.rip + BitVec.ofNat 64 length)

/-! ## Temporary breakpoints -/

def hasBreakpointAt (address : Addr) : Act Bool := do
  return (← breakpoints).any fun bp => bp.address = address

/-- `remove_temporary_breakpoint`; `what` is the command that placed it. -/
def removeTemporaryBreakpoint (what : String) : Option Nat → Act Unit
  | none => return ()
  | some id => do
    if !(← removeBreakpoint id) then
      raise (.logicError ("temporary " ++ what ++ " breakpoint disappeared"))

def addTemporaryBreakpoint (user : Bool) (address : Addr) : Act (Option Nat) :=
  if user then return none else some <$> addBreakpoint address

/-- `catch (...)`: take the temporary breakpoint away, if that is possible, and pass the exception
on. -/
def abandonMotion {α : Type} (what : String) (temporary : Option Nat) (e : Exception) : Act α := do
  let process ← view (·.process)
  if temporary.isSome ∧ process.state ≠ .running then
    handle (removeTemporaryBreakpoint what temporary) fun _ => return ()
  raise e

/-- Run to `address`, as `next` and `finish` do: was there a breakpoint of the user, and the
stop. -/
def runTo (what : String) (address : Addr) : Act (Bool × StopInfo) := do
  let userBreakpoint ← hasBreakpointAt address
  let temporary ← addTemporaryBreakpoint userBreakpoint address
  let stop ← handle (continueExecution tracees .suppress) (abandonMotion what temporary)
  removeTemporaryBreakpoint what temporary
  return (userBreakpoint, stop)

/-- `stop.reason == StopReason::Breakpoint && stop.breakpoint_address == return_address` -/
def StopInfo.isAt (stop : StopInfo) (address : Addr) : Bool :=
  stop.reason = .breakpoint ∧ stop.breakpointAddress = some address

def runToReturnAddress (returnAddress : Addr) : Act FinishResult := do
  let (userBreakpoint, stop) ← runTo tracees "finish" returnAddress
  return {
    reason := if stop.isAt returnAddress && !userBreakpoint then .returned else .interrupted
    stop, returnAddress }

/-- `finish_frame` and `finish_frame_pointer`, which differ in where they find the return
address. -/
def finishFrame (returnAddress : Session → Except Exception Addr) : Act FinishResult := do
  match ← read returnAddress with
  | .ok address => runToReturnAddress tracees address
  | .error e => raise e

/-! ## The loops -/

def validateSourceMotion (instructionLimit : Nat) (operation : String) : Act Unit := do
  if instructionLimit = 0 then
    raise (.invalidArgument (operation ++ " instruction limit must be positive"))
  let process ← view (·.process)
  if process.state ≠ .stopped then
    raise (.logicError (operation ++ " requires a stopped tracee"))

/-- What becomes of a stop; `none` goes round again. -/
def judgeStop (start : ModuleSourcePosition) (interrupted : Bool) (stop : StopInfo)
    (instructions : Nat) : Act (Option SourceStepResult) := do
  let source ← currentModuleSource sources
  if interrupted then
    return some (sourceStepResult .interrupted stop source instructions)
  else if source.any fun position => !sameSourceLine position start then
    return some (sourceStepResult .lineChanged stop source instructions)
  else return none

def stepPass (start : ModuleSourcePosition) (instructions : Nat) :
    Act (Option SourceStepResult) := do
  let stop ← singleStep tracees .suppress
  judgeStop sources start (stop.reason ≠ .singleStep) stop instructions

def nextPass (start : ModuleSourcePosition) (instructions : Nat) :
    Act (Option SourceStepResult) := do
  match ← supportedCallReturnAddress with
  | some returnAddress =>
    let (userBreakpoint, stop) ← runTo tracees "next" returnAddress
    judgeStop sources start (!stop.isAt returnAddress || userBreakpoint) stop instructions
  | none => stepPass sources tracees start instructions

/-- The passes that are left, and what is reported when there are none. -/
def motionLoop (pass : Nat → Act (Option SourceStepResult)) (instructionLimit : Nat) :
    Nat → Act SourceStepResult
  | 0 => do
    let source ← currentModuleSource sources
    let stop ← view (·.stopInfo)
    return sourceStepResult .instructionLimit stop source instructionLimit
  | left + 1 => do
    match ← pass (instructionLimit - left) with
    | some result => return result
    | none => motionLoop pass instructionLimit left

def sourceMotion (operation : String)
    (pass : ModuleSourcePosition → Nat → Act (Option SourceStepResult))
    (instructionLimit : Nat) : Act SourceStepResult := do
  validateSourceMotion instructionLimit operation
  match ← currentModuleSource sources with
  | none => raise (.invalidArgument "current instruction has no source location")
  | some start => motionLoop sources (pass start) instructionLimit instructionLimit

def stepSource (instructionLimit : Nat) : Act SourceStepResult :=
  sourceMotion sources "source step" (stepPass sources tracees) instructionLimit

def nextSource (instructionLimit : Nat) : Act SourceStepResult :=
  sourceMotion sources "source next" (nextPass sources tracees) instructionLimit

end Motion

end MiniDebugger
