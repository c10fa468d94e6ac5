import MiniDebugger.Debugger.Domains

/-!
# Fork and vfork stops

What `wait_and_classify` does with a new process: keep it beside its parent (`Both`), move over
to it (`Child`) or release it (`Parent`), and how it sees a `vfork` child through the time it
shares its parent's memory. A child that cannot be kept is killed before the error is passed on.
-/

namespace MiniDebugger

open Command

/-- The id in the event message of a fork-like stop. -/
def eventChild (tid : Pid) (what : String) : Act Pid := do
  let message ← Lowlevel.getEventMessage tid
  if message = 0 ∨ pidMax < message then raise (.runtimeError what)
  return message

def waitForUnfollowedChildStop (_child : Pid) : Act Unit := do
  let status ← read (·.world.childStatus)
  if !status.isStopped then
    raise (.runtimeError "process child did not enter an initial ptrace stop")

def killChild (child : Pid) : Act Unit :=
  handle (Lowlevel.detach child sigkill) (fun _ => Lowlevel.kill child)

/-- Clean up after a child that was not kept, then pass the error on. -/
def killAndRethrow {α : Type} (child : Pid) (e : Exception) : Act α := do
  killChild child
  raise e

/-- The stop reported for a fork-like event. -/
def processEventStop (kind : ProcessEventKind) (tid parent child : Pid) (retainsChild : Bool) :
    Act StopInfo := do
  let info ← makeStop .trap sigtrap tid
  report { info with
    processEvent := kind
    parentPid := some parent
    childPid := some child
    retainsChild }

/-- Give a child the debug slot its parent has armed, with no hit recorded. -/
def copyDebugSlot (parent child : Pid) : Act Unit := do
  let armedDr0 ← Lowlevel.getDebugRegister parent 0
  let armedDr6 ← Lowlevel.getDebugRegister parent 6
  let armedDr7 ← Lowlevel.getDebugRegister parent 7
  replaceDebugSlot child armedDr0 (armedDr6 &&& ~~~dr6Breakpoint0) armedDr7

/-! ## Policy `Both` -/

/-- The conditions under which a fork can be retained. -/
def checkRetainable (tid : Pid) : Act Unit := do
  let d ← view id
  if d.process.origin ≠ .launched then
    raise (.runtimeError
      "simultaneous fork ownership is currently supported for launched tracees only")
  if !d.process.isSingleThread tid then
    raise (.runtimeError
      "simultaneous fork ownership currently requires a single-thread active process")
  if maxProcessDomains ≤ 1 + d.retainedProcesses.size then
    raise (.runtimeError
      "simultaneous fork ownership currently supports at most three process domains")
  if !d.breakpointsByAddress.isEmpty ∨ d.pendingBreakpointStep.isSome then
    raise (.logicError
      "simultaneous fork ownership requires software breakpoints to be armed after fork")

/-- The watchpoint a retained child inherits. -/
def inheritWatchpoint (tid child : Pid) :
    Act (Option (Watchpoint × DebugRegisterSnapshot)) := do
  let d ← view id
  match d.watchpoint with
  | none => return none
  | some watchpoint =>
    match d.watchpointRegisterSnapshot with
    | none =>
      raise (.logicError "watchpoint ownership does not match the process that forked")
    | some snapshot =>
      if snapshot.tid ≠ tid then
        raise (.logicError "watchpoint ownership does not match the process that forked")
      copyDebugSlot tid child
      return some (watchpoint, { snapshot with tid := child })

def retainChild (tid child : Pid) : Act Unit := do
  Lowlevel.setOptions child
  let inherited ← inheritWatchpoint tid child
  let childStop ← makeStop .trap sigstop child
  let d ← view id
  match Process.adoptStopped child d.process.origin with
  | .error e => raise e
  | .ok process =>
    if d.retainedProcesses.contains child then
      raise (.logicError "fork child process identity already exists in registry")
    let domain : RetainedProcessDomain := {
      process
      stopInfo := childStop
      executablePath := d.executablePath
      watchpoint := inherited.map (·.1)
      watchpointRegisterSnapshot := inherited.map (·.2) }
    modifyDebugger fun d => { d with
      retainedProcesses := d.retainedProcesses.insert child domain }

def classifyForkBoth (tid parent child : Pid) : Act StopInfo := do
  handle (checkRetainable tid) (killAndRethrow child)
  handle (retainChild tid child) (killAndRethrow child)
  processEventStop .fork tid parent child true

/-! ## Policy `Child` -/

def checkFollowable (tid : Pid) : Act Unit := do
  let d ← view id
  if d.process.origin ≠ .launched then
    raise (.runtimeError
      "follow-child fork handoff is currently supported for launched tracees only")
  if !d.process.isSingleThread tid then
    raise (.runtimeError
      "follow-child fork handoff currently requires a single-thread parent")

/-- Write the saved byte of every installed breakpoint into the memory of a task. -/
def writeOriginalBytes (tid : Pid) : Act Unit := do
  let table ← view (·.breakpointsByAddress)
  forEach
    (fun entry => if entry.2.installed then
      Lowlevel.writeByte tid entry.1 entry.2.originalByte else pure ())
    table.toList

def handOver (tid child : Pid) : Act Unit := do
  Lowlevel.setOptions child
  writeOriginalBytes tid
  let snapshot ← view (·.watchpointRegisterSnapshot)
  let transferWatchpoint := snapshot.any (·.tid = tid)
  when transferWatchpoint (copyDebugSlot tid child)
  when snapshot.isSome restoreWatchpointRegisters
  Lowlevel.detach tid
  tryProcess (·.adoptStoppedProcess child)
  if transferWatchpoint then
    modifyDebugger fun d => { d with
      watchpointRegisterSnapshot := d.watchpointRegisterSnapshot.map ({ · with tid := child }) }
  else clearWatchpoint
  modifyDebugger fun d => { d with
    pendingThreadStarts := ∅
    pendingSignals := ∅
    breakpointRegisterSnapshots := [] }

def classifyForkChild (tid parent child : Pid) : Act StopInfo := do
  handle (checkFollowable tid) (killAndRethrow child)
  handle (handOver tid child) (killAndRethrow child)
  processEventStop .fork child parent child false

/-! ## Policy `Parent` -/

/-- Undo in a child what it inherited from an armed watchpoint of `tid`. -/
def disarmChild (tid child : Pid) : Act Unit := do
  match ← view (·.watchpointRegisterSnapshot) with
  | some snapshot =>
    if snapshot.tid = tid then replaceDebugSlot child snapshot.dr0 snapshot.dr6 snapshot.dr7
  | none => return ()

def releaseChild (tid child : Pid) : Act Unit := do
  writeOriginalBytes child
  disarmChild tid child
  Lowlevel.detach child

/-- As `killAndRethrow`, but without a second attempt. -/
def detachAndRethrow {α : Type} (child : Pid) (e : Exception) : Act α := do
  handle (Lowlevel.detach child sigkill) (fun _ => pure ())
  raise e

def classifyForkParent (tid parent child : Pid) : Act StopInfo := do
  handle (releaseChild tid child) (detachAndRethrow child)
  processEventStop .fork tid parent child false

def classifyFork (tid : Pid) : Act StopInfo := do
  let child ← eventChild tid "PTRACE_EVENT_FORK returned an invalid child process id"
  let parent ← view (·.process.pid)
  waitForUnfollowedChildStop child
  match ← view (·.forkFollowPolicy) with
  | .both => classifyForkBoth tid parent child
  | .child => classifyForkChild tid parent child
  | .parent => classifyForkParent tid parent child

/-! ## `vfork` -/

/-- Let a vfork child run until it has exited or replaced its image. -/
def followTransientChild (child : Pid) : List WaitStatus → Act Unit
  | [] => block (.transientChild child)
  | .exited _ :: _ | .signaled _ :: _ => return ()
  | .stopped signal event :: rest => do
    if event = .exec then Lowlevel.detach child
    else if event ≠ .none then
      raise (.runtimeError
        "vfork child produced an unsupported ptrace event before VM release")
    else if signal = sigtrap then
      raise (.runtimeError
        "vfork child trapped before releasing the shared address space")
    else
      Lowlevel.continueProcess child signal
      followTransientChild child rest

def runTransientChild (tid child : Pid) : Act Unit := do
  disarmChild tid child
  Lowlevel.setOptions child
  Lowlevel.continueProcess child
  followTransientChild child (← read (·.world.transient))

/-- Wait for the parent to reach the end of its `vfork`. -/
def awaitVforkDone (tracees : Tracees) (tid child : Pid) : Act Unit := do
  let done ← wait tracees .vforkDone
  if done.kind ≠ .stopped ∨ done.tid ≠ tid ∨ done.ptraceEvent ≠ .vforkDone then
    raise (.runtimeError "followed parent did not stop at PTRACE_EVENT_VFORK_DONE")
  let message ← Lowlevel.getEventMessage done.tid
  if (message : Int) ≠ child then
    raise (.runtimeError "PTRACE_EVENT_VFORK_DONE did not match the released child")

def classifyVfork (tracees : Tracees) (tid : Pid) : Act StopInfo := do
  let child ← eventChild tid "PTRACE_EVENT_VFORK returned an invalid child process id"
  waitForUnfollowedChildStop child
  handle (runTransientChild tid child) (killAndRethrow child)
  Lowlevel.continueProcess tid
  modifyProcess (·.markRunning tid)
  awaitVforkDone tracees tid child
  let parent ← view (·.process.pid)
  processEventStop .vfork tid parent child false

end MiniDebugger
