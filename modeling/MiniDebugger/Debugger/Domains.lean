import MiniDebugger.Debugger.Watchpoints

/-!
# Process domains

Under the fork policy `Both` the debugger owns up to three processes. One of them is active: its
state is in the fields of `Debugger` itself. The others wait in `retainedProcesses`, and
`swapActiveProcess` exchanges the active fields with those of a retained domain one by one.
-/

namespace MiniDebugger

open Command
open Std (ExtTreeMap)

/-- `kMaxProcessDomains` -/
def maxProcessDomains : Nat := 3

/-- Is the active process a single thread, namely its leader `tid`? -/
def Process.isSingleThread (p : Process) (tid : Pid) : Bool :=
  p.tids = [tid] ∧ tid = p.pid

def setForkFollowPolicy (policy : ForkFollowPolicy) : Act Unit := do
  let d ← view id
  if !d.retainedProcesses.isEmpty then
    if policy ≠ .both then
      raise (.logicError
        "cannot change fork follow policy while process domains are retained")
    modifyDebugger fun d => { d with forkFollowPolicy := policy }
  else
    if policy = .both then
      if d.process.origin ≠ .launched then
        raise (.logicError
          "simultaneous fork ownership is currently supported for launched tracees only")
      if !d.process.isSingleThread d.process.currentTid then
        raise (.logicError
          "simultaneous fork ownership currently requires a single-thread parent")
      if !d.breakpointsByAddress.isEmpty ∨ d.pendingBreakpointStep.isSome then
        raise (.logicError
          "simultaneous fork ownership requires software breakpoints to be armed after fork")
    modifyDebugger fun d => { d with forkFollowPolicy := policy }

/-- Every process the debugger owns, the active one first, with its state. -/
def processes : Act (List (Pid × ProcessState × Bool)) :=
  view fun d =>
    (if 0 < d.process.pid then [(d.process.pid, d.process.state, true)] else []) ++
    (d.retainedProcesses.toList.filter (fun entry => 0 < entry.1)).map
      fun entry => (entry.1, entry.2.process.state, false)

def Debugger.firstStoppedRetainedProcess (d : Debugger) : Option Pid :=
  (d.retainedProcesses.toList.find? fun entry => entry.2.process.state = .stopped).map (·.1)

/-- The per-process fields of the debugger, as a retained domain keeps them. -/
def Debugger.parked (d : Debugger) : RetainedProcessDomain where
  process := d.process
  stopInfo := d.stopInfo
  executablePath := d.executablePath
  pendingThreadStarts := d.pendingThreadStarts
  pendingSignals := d.pendingSignals
  breakpointsByAddress := d.breakpointsByAddress
  breakpointIds := d.breakpointIds
  breakpointRegisterSnapshots := d.breakpointRegisterSnapshots
  pendingBreakpointStep := d.pendingBreakpointStep
  watchpoint := d.watchpoint
  watchpointRegisterSnapshot := d.watchpointRegisterSnapshot

/-- The debugger with the per-process fields of `domain`. -/
def Debugger.activate (d : Debugger) (domain : RetainedProcessDomain) : Debugger :=
  { d with
    process := domain.process
    stopInfo := domain.stopInfo
    executablePath := domain.executablePath
    pendingThreadStarts := domain.pendingThreadStarts
    pendingSignals := domain.pendingSignals
    breakpointsByAddress := domain.breakpointsByAddress
    breakpointIds := domain.breakpointIds
    breakpointRegisterSnapshots := domain.breakpointRegisterSnapshots
    pendingBreakpointStep := domain.pendingBreakpointStep
    watchpoint := domain.watchpoint
    watchpointRegisterSnapshot := domain.watchpointRegisterSnapshot }

def swapActiveProcess (pid : Pid) : Act Unit := do
  let retained ← view (·.retainedProcesses)
  match retained[pid]? with
  | none => raise (.logicError "no retained process is available for selection")
  | some domain =>
    let d ← view id
    let oldActivePid := d.process.pid
    modifyDebugger fun d =>
      { d.activate domain with retainedProcesses := d.retainedProcesses.erase pid }
    if (← view (·.retainedProcesses)).contains oldActivePid then
      raise (.logicError "active process identity collided with retained registry")
    modifyDebugger ({ · with
      retainedProcesses := (retained.erase pid).insert oldActivePid d.parked })

def nextStopSequence : Act Nat := fun s =>
  .returned (s.sequence + 1) { s with sequence := s.sequence + 1 }

def selectProcess (pid : Pid) : Act Unit := do
  let d ← view id
  if pid = d.process.pid then return ()
  match d.retainedProcesses[pid]? with
  | none => raise (.invalidArgument "cannot select an untracked process")
  | some selected =>
    if d.process.state ≠ .stopped then
      raise (.logicError "process selection requires the active process to be stopped")
    if selected.process.state ≠ .stopped then
      raise (.logicError "cannot select a process that is not stopped")
    if d.pendingBreakpointStep.isSome then
      raise (.logicError
        "cannot switch processes while a breakpoint displaced step is pending")
    swapActiveProcess pid
    let sequence ← nextStopSequence
    modifyDebugger fun d => { d with stopInfo := { d.stopInfo with sequence } }

def threads : Act (List (Pid × ProcessState × Bool)) :=
  view fun d => d.process.taskStates.toList.map
    fun task => (task.1, task.2, decide (task.1 = d.process.currentTid))

def selectThread (tid : Pid) : Act Unit := do
  let pending ← view (·.pendingBreakpointStep)
  if pending.any (·.tid ≠ tid) then
    raise (.logicError "cannot switch threads while a breakpoint displaced step is pending")
  tryProcess (·.selectTid tid)

/-! ## What they do -/

section Rules

variable {s : Session}

/-- The debugger after the active process and the retained process `pid` changed places. -/
def Debugger.swapped (d : Debugger) (pid : Pid) (domain : RetainedProcessDomain) : Debugger :=
  { d.activate domain with
    retainedProcesses := (d.retainedProcesses.erase pid).insert d.process.pid d.parked }

/-- A swap goes through unless the active process is also in the registry. -/
theorem wp_swapActiveProcess {pid : Pid} {domain : RetainedProcessDomain}
    {Q : Post WaitCall Exception Session Unit}
    (hdomain : s.dbg.retainedProcesses[pid]? = some domain)
    (collided : ∀ e, s.dbg.process.pid ∈ s.dbg.retainedProcesses → Q.raised e { s with
      dbg := { s.dbg.activate domain with
        retainedProcesses := s.dbg.retainedProcesses.erase pid } })
    (returned : s.dbg.process.pid ∉ s.dbg.retainedProcesses.erase pid →
      Q.returned () { s with dbg := s.dbg.swapped pid domain }) :
    wp (swapActiveProcess pid) Q s := by
  simp only [swapActiveProcess, wp_bind, wp_view, hdomain, wp_modifyDebugger, wp_ite, wp_raise, id]
  split
  · rename_i h
    refine collided _ ?_
    have h : s.dbg.process.pid ∈ s.dbg.retainedProcesses.erase pid := by simpa using h
    exact (ExtTreeMap.mem_erase.mp h).2
  · rename_i h
    exact returned (by rwa [← ExtTreeMap.contains_iff_mem])

theorem wp_selectProcess {pid : Pid} {Q : Post WaitCall Exception Session Unit}
    (same : pid = s.dbg.process.pid → Q.returned () s)
    (swapped : ∀ domain, s.dbg.retainedProcesses[pid]? = some domain →
      s.dbg.process.state = .stopped → domain.process.state = .stopped →
      s.dbg.pendingBreakpointStep = none →
      Q.returned () { s with
        sequence := s.sequence + 1
        dbg := { s.dbg.swapped pid domain with
          stopInfo := { domain.stopInfo with sequence := s.sequence + 1 } } })
    (collided : ∀ domain e, s.dbg.retainedProcesses[pid]? = some domain →
      s.dbg.process.pid ∈ s.dbg.retainedProcesses → Q.raised e { s with
        dbg := { s.dbg.activate domain with
          retainedProcesses := s.dbg.retainedProcesses.erase pid } })
    (raised : ∀ e, Q.raised e s) : wp (selectProcess pid) Q s := by
  simp only [selectProcess, wp_bind, wp_view, wp_ite, wp_pure]
  split
  · exact same ‹_›
  rcases hdomain : s.dbg.retainedProcesses[pid]? with _ | domain
  · simpa [hdomain] using raised (.invalidArgument _)
  simp only [id, hdomain, wp_ite, wp_raise, wp_bind]
  split
  · exact raised _
  split
  · exact raised _
  split
  · exact raised _
  rename_i hstate hstopped hpending
  refine wp_swapActiveProcess hdomain (fun e h => collided domain e hdomain h) fun _ => ?_
  exact swapped domain hdomain (not_not.mp hstate) (not_not.mp hstopped)
    (by simpa using hpending)

theorem wp_setForkFollowPolicy {policy : ForkFollowPolicy}
    {Q : Post WaitCall Exception Session Unit}
    (returned : (s.dbg.retainedProcesses.isEmpty = false → policy = .both) →
      Q.returned () { s with dbg := { s.dbg with forkFollowPolicy := policy } })
    (raised : ∀ e, Q.raised e s) :
    wp (setForkFollowPolicy policy) Q s := by
  simp only [setForkFollowPolicy, wp_bind, wp_view, wp_ite, wp_raise, wp_modifyDebugger, id]
  split
  · split
    · exact raised _
    · exact returned fun _ => not_not.mp ‹_›
  · rename_i hempty
    have hempty : s.dbg.retainedProcesses.isEmpty = true := by simpa using hempty
    have hret := returned (by simp [hempty])
    split
    · split
      · exact raised _
      split
      · exact raised _
      split
      · exact raised _
      · exact hret
    · exact hret

theorem wp_selectThread {tid : Pid} {Q : Post WaitCall Exception Session Unit}
    (selected : s.dbg.process.taskState tid = some .stopped →
      Q.returned () (s.withProcess { s.dbg.process with currentTid := tid }))
    (raised : ∀ e, Q.raised e s) : wp (selectThread tid) Q s := by
  simp only [selectThread, wp_bind, wp_view, wp_ite, wp_raise]
  split
  · exact raised _
  refine wp_tryProcess (fun p hp => ?_) (fun e _ => raised e)
  obtain ⟨htask, rfl⟩ := Process.selectTid_ok hp
  exact selected htask

end Rules

end MiniDebugger
