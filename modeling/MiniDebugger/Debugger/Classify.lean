import MiniDebugger.Debugger.ForkRules

/-!
# `wait_and_classify`

One pass of the loop takes an event and either turns it into a stop or asks for the next event.
`waitLoop` is the loop with a bound on its passes. Every pass uses up a report, so a bound above
the length of the script is never reached (`waitLoop_fuel`), and `waitAndClassify_eq` is the loop
as the source has it.
-/

namespace MiniDebugger

open Command

def Debugger.discardImageState (d : Debugger) : Debugger :=
  { d with
    breakpointsByAddress := ∅
    breakpointIds := ∅
    breakpointRegisterSnapshots := []
    pendingBreakpointStep := none
    watchpoint := none
    watchpointRegisterSnapshot := none
    pendingThreadStarts := ∅
    pendingSignals := ∅ }

def waitActiveProcess (tracees : Tracees) : Act WaitEvent := do
  if !(← view (·.retainedProcesses)).isEmpty then waitCurrent tracees
  else wait tracees (.active (-1))

/-- Forget what was kept for a task that ended. -/
def Debugger.forgetTask (d : Debugger) (tid : Pid) : Debugger :=
  let ownsWatchpoint := d.watchpointRegisterSnapshot.any (·.tid = tid)
  { d with
    pendingThreadStarts := d.pendingThreadStarts.erase tid
    pendingSignals := d.pendingSignals.erase tid
    breakpointRegisterSnapshots := d.discardBreakpointRegisterSnapshots tid
    watchpoint := if ownsWatchpoint then none else d.watchpoint
    watchpointRegisterSnapshot :=
      if ownsWatchpoint then none else d.watchpointRegisterSnapshot }

/-- The active process is gone: continue with a stopped survivor. -/
def promoteSurvivor (survivor : Pid) (reason : StopReason) (event : WaitEvent) :
    Act StopInfo := do
  let terminalPid ← view (·.process.pid)
  let terminal ← makeStop reason event.value event.tid
  modifyDebugger fun d => { d with stopInfo := terminal }
  swapActiveProcess survivor
  modifyDebugger fun d => { d with
    retainedProcesses := d.retainedProcesses.erase terminalPid }
  report terminal

/-- The `Exited` and `Signaled` branches, which differ in the reasons they report. -/
def classifyEnded (event : WaitEvent) (processReason finalReason threadReason : StopReason) :
    Act (Option StopInfo) := do
  modifyDebugger (·.forgetTask event.tid)
  let d ← view id
  if d.process.taskStates.isEmpty then
    match d.firstStoppedRetainedProcess with
    | some survivor => return some (← promoteSurvivor survivor processReason event)
    | none => return some (← report (← makeStop finalReason event.value event.tid))
  else if d.process.state ≠ .stopped then return none
  else return some (← report (← makeStop threadReason event.value event.tid))

def classifyExec (tid : Pid) : Act StopInfo := do
  let message ← Lowlevel.getEventMessage tid
  if pidMax < message then
    raise (.runtimeError "PTRACE_EVENT_EXEC returned an invalid former task id")
  tryProcess (·.collapseAfterExec tid)
  modifyDebugger (·.discardImageState)
  Lowlevel.setOptions tid
  let path ← read fun s => s.world.exe s.dbg.process.pid
  modifyDebugger fun d => { d with executablePath := path }
  let info ← makeStop .exec sigtrap tid
  report { info with formerTid := if message = 0 then none else some (message : Int) }

def classifyClone (event : WaitEvent) : Act Unit := do
  match event.newTid with
  | none => raise (.runtimeError "clone event did not provide a new thread id")
  | some newTid =>
    if (← view (·.watchpoint)).isSome then
      raise (.runtimeError
        "thread creation while a hardware watchpoint is active is unsupported")
    modifyDebugger fun d => { d with
      pendingThreadStarts := d.pendingThreadStarts.insert newTid }

/-- A `SIGTRAP` that is neither a watchpoint nor an awaited single step. -/
def classifyTrap (tid : Pid) : Act StopInfo := do
  let regs ← Lowlevel.getRegisters tid
  let candidate := regs.rip - 1
  if regs.rip ≠ 0 ∧ (← view (hasEntry · candidate true)) then
    prepareBreakpointHit candidate regs tid
    let info ← makeStop .breakpoint sigtrap tid
    report { info with breakpointAddress := some candidate }
  else report (← makeStop .trap sigtrap tid)

/-- A stop without a ptrace event. -/
def classifySignalStop (expectedSingleStep : Bool) (event : WaitEvent) : Act StopInfo := do
  if (← view (·.pendingThreadStarts)).contains event.tid then
    modifyDebugger fun d => { d with
      pendingThreadStarts := d.pendingThreadStarts.erase event.tid }
    let info ← makeStop .threadCreated event.value event.tid
    report { info with newTid := some event.tid }
  else if event.value ≠ sigtrap then
    modifyDebugger fun d => { d with
      pendingSignals := d.pendingSignals.insert event.tid event.value }
    report (← makeStop .signal event.value event.tid)
  else
    match ← classifyWatchpointStop event.tid with
    | some info => report info
    | none =>
      if expectedSingleStep then report (← makeStop .singleStep sigtrap event.tid)
      else classifyTrap event.tid

/-- What the loop body does with an event; `none` goes round again. -/
def classifyEvent (tracees : Tracees) (expectedSingleStep : Bool) (event : WaitEvent) :
    Act (Option StopInfo) :=
  match event.kind with
  | .exited => classifyEnded event .processExited .exited .threadExited
  | .signaled => classifyEnded event .processSignaled .signaled .threadSignaled
  | .stopped =>
    match event.ptraceEvent with
    | .exec => some <$> classifyExec event.tid
    | .vfork => some <$> classifyVfork tracees event.tid
    | .vforkDone => raise (.runtimeError "unexpected standalone PTRACE_EVENT_VFORK_DONE")
    | .fork => some <$> classifyFork event.tid
    | .clone => do
      classifyClone event
      return none
    | _ => some <$> classifySignalStop expectedSingleStep event

def waitPass (tracees : Tracees) (expectedSingleStep : Bool) : Act (Option StopInfo) := do
  let event ← waitActiveProcess tracees
  classifyEvent tracees expectedSingleStep event

/-- The call in which `waitActiveProcess` waits. -/
def Debugger.waitCall (d : Debugger) : WaitCall :=
  if d.retainedProcesses.isEmpty then .active (-1) else .active d.process.currentTid

def waitLoop (tracees : Tracees) (expectedSingleStep : Bool) : Nat → Act StopInfo
  | 0 => do block (← view (·.waitCall))
  | n + 1 => do
    match ← waitPass tracees expectedSingleStep with
    | some info => return info
    | none => waitLoop tracees expectedSingleStep n

def waitAndClassify (tracees : Tracees) (expectedSingleStep : Bool) : Act StopInfo := fun s =>
  waitLoop tracees expectedSingleStep (s.script.length + 1) s

end MiniDebugger
