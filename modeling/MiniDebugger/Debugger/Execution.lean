import MiniDebugger.Debugger.ClassifyRules

/-!
# Resuming and detaching

`continue_execution`, `single_step` and `detach`, and the list of the debugger's operations. A
displaced step over a breakpoint that was hit is made before anything else runs.
-/

namespace MiniDebugger

open Command

def resumeSignal (policy : SignalPolicy) (tid : Pid) : Act Nat :=
  view fun d => if policy ≠ .forward then 0 else (d.pendingSignals[tid]?).getD 0

/-- Resume the selected thread and wait for the next stop. -/
def resumeAndWait (tracees : Tracees) (kind : ResumeKind) (policy : SignalPolicy) :
    Act StopInfo := do
  let tid ← stoppedTid
  let signal ← resumeSignal policy tid
  match kind with
  | .cont => Lowlevel.continueProcess tid signal
  | .step => Lowlevel.singleStep tid signal
  modifyDebugger fun d => { d with pendingSignals := d.pendingSignals.erase tid }
  modifyProcess (·.markRunning tid)
  waitAndClassify tracees (kind = .step)

/-- The task through which a displaced breakpoint can be put back, if any. -/
def reinsertTid (pending : PendingBreakpointStep) : Act (Option Pid) := do
  let process ← view (·.process)
  if process.taskState pending.tid = some .stopped then return some pending.tid
  else if process.state = .stopped then return some (← stoppedTid)
  else return none

/-- `if (reinsert_tid > 0) reinsert_breakpoint(...)`, with `none` for a `reinsert_tid` of `-1`. -/
def reinsertThrough (address : Addr) : Option Pid → Act Unit
  | some tid => when (0 < tid) (reinsertBreakpoint address tid)
  | none => pure ()

/-- Put the displaced breakpoint back after the step over it. -/
def finishDisplacedStep (pending : PendingBreakpointStep) (exposeSingleStep : Bool)
    (info : StopInfo) : Act StopInfo := do
  reinsertThrough pending.address (← reinsertTid pending)
  modifyDebugger fun d => { d with
    pendingBreakpointStep := none
    stopInfo := if exposeSingleStep ∧ info.reason = .singleStep then info else d.stopInfo }
  return info

def stepOverPendingBreakpoint (tracees : Tracees) (pending : PendingBreakpointStep)
    (exposeSingleStep : Bool) : Act StopInfo := do
  Lowlevel.singleStep pending.tid 0
  modifyProcess (·.markRunning pending.tid)
  let info ← waitAndClassify tracees true
  if info.reason = .exec then return info
  finishDisplacedStep pending exposeSingleStep info

def checkPendingOwner (pending : PendingBreakpointStep) : Act Unit := do
  if pending.tid ≠ (← stoppedTid) then
    raise (.logicError "pending breakpoint step belongs to a different thread")

def continueExecution (tracees : Tracees) (policy : SignalPolicy) : Act StopInfo := do
  let process ← view (·.process)
  if process.state ≠ .stopped then raise (.logicError "continue requires a stopped tracee")
  match ← view (·.pendingBreakpointStep) with
  | some pending =>
    checkPendingOwner pending
    let internal ← stepOverPendingBreakpoint tracees pending false
    if internal.reason ≠ .singleStep then return internal
    resumeAndWait tracees .cont policy
  | none => resumeAndWait tracees .cont policy

def singleStep (tracees : Tracees) (policy : SignalPolicy) : Act StopInfo := do
  let process ← view (·.process)
  if process.state ≠ .stopped then raise (.logicError "single-step requires a stopped tracee")
  match ← view (·.pendingBreakpointStep) with
  | some pending =>
    checkPendingOwner pending
    stepOverPendingBreakpoint tracees pending true
  | none => resumeAndWait tracees .step policy

def detach (policy : SignalPolicy) : Act Unit := do
  let d ← view id
  if !d.retainedProcesses.isEmpty then
    raise (.logicError "detach is not yet supported for a multi-process session")
  if d.process.origin ≠ .attached then
    raise (.logicError "detach is only valid for an attached process")
  if d.process.state ≠ .stopped then raise (.logicError "detach requires a stopped tracee")
  let tid ← stoppedTid
  let signal ← resumeSignal policy tid
  restoreAllBreakpoints
  restoreWatchpointRegisters
  detachProcess signal
  modifyDebugger (·.discardImageState)

/-! ## Sessions -/

/-- The debugger after `Debugger::launch`. -/
def launched (pid : Pid) (path : String) (sequence : Nat) : Debugger where
  process := Process.single pid .launched
  stopInfo := { reason := .initialExec, value := sigtrap, tid := pid, sequence }
  executablePath := path

/-- The debugger after `Debugger::attach`, with the threads it found and stopped. -/
def attached (pid : Pid) (tids : List Pid) (path : String) (sequence : Nat) : Debugger where
  process := {
    pid, currentTid := pid, state := .stopped, origin := .attached
    taskStates := eachTask (pid :: tids) .stopped }
  stopInfo := { reason := .attached, value := sigstop, tid := pid, sequence }
  executablePath := path

/-- The operations of `Debugger` that change its state. -/
inductive Operation where
  | addBreakpoint (address : Addr)
  | removeBreakpoint (id : Nat)
  | addWriteWatchpoint (address : Addr) (length : Nat)
  | removeWatchpoint (id : Nat)
  | writeMemory (address : Addr) (bytes : List Byte)
  | continueExecution (policy : SignalPolicy)
  | singleStep (policy : SignalPolicy)
  | selectThread (tid : Pid)
  | selectProcess (pid : Pid)
  | setForkFollowPolicy (policy : ForkFollowPolicy)
  | detach (policy : SignalPolicy)

/-- `continue_execution` and `single_step` -/
def Operation.resumes : Operation → Bool
  | .continueExecution _ | .singleStep _ => true
  | _ => false

def Operation.detaches : Operation → Bool
  | .detach _ => true
  | _ => false

/-- What an operation hands back. -/
inductive Result where
  | done
  | breakpoint (id : Nat)
  | watchpoint (id : Nat)
  | found (removed : Bool)
  | stop (info : StopInfo)
  deriving DecidableEq, Repr

def Operation.run (tracees : Tracees) : Operation → Act Result
  | .addBreakpoint address => .breakpoint <$> MiniDebugger.addBreakpoint address
  | .removeBreakpoint id => .found <$> MiniDebugger.removeBreakpoint id
  | .addWriteWatchpoint address length =>
    .watchpoint <$> MiniDebugger.addWriteWatchpoint address length
  | .removeWatchpoint id => .found <$> MiniDebugger.removeWatchpoint id
  | .writeMemory address bytes => (fun _ => .done) <$> MiniDebugger.writeMemory address bytes
  | .continueExecution policy => .stop <$> MiniDebugger.continueExecution tracees policy
  | .singleStep policy => .stop <$> MiniDebugger.singleStep tracees policy
  | .selectThread tid => (fun _ => .done) <$> MiniDebugger.selectThread tid
  | .selectProcess pid => (fun _ => .done) <$> MiniDebugger.selectProcess pid
  | .setForkFollowPolicy policy => (fun _ => .done) <$> MiniDebugger.setForkFollowPolicy policy
  | .detach policy => (fun _ => .done) <$> MiniDebugger.detach policy

end MiniDebugger
