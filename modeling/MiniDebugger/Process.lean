import MiniDebugger.Kernel

/-!
# The traced process

`Process` is the debugger's own record of a thread group: the state of each traced task, the
aggregate state derived from them and the selected task. The functions here are the parts of
`Process` that touch nothing but this record; waiting and detaching, which call the kernel, are
in `Wait.lean`.
-/

namespace MiniDebugger

open Std (ExtTreeMap)

inductive ProcessState where
  | stopped | running | exited | signaled | detached
  deriving DecidableEq, Repr

inductive ProcessOrigin where
  | launched | attached
  deriving DecidableEq, Repr

/-- The exceptions the debugger throws; a `PtraceError` carries its `errno`. -/
inductive Exception where
  | invalidArgument (what : String)
  | logicError (what : String)
  | runtimeError (what : String)
  | ptraceError (operation : String) (errno : Nat)
  deriving DecidableEq, Repr

inductive WaitEventKind where
  | stopped | exited | signaled
  deriving DecidableEq, Repr

structure WaitEvent where
  kind : WaitEventKind
  value : Nat
  tid : Pid
  ptraceEvent : PtraceEvent := .none
  newTid : Option Pid := none
  deriving DecidableEq, Repr

structure Process where
  pid : Pid
  currentTid : Pid
  state : ProcessState
  origin : ProcessOrigin
  taskStates : ExtTreeMap Pid ProcessState
  exitCode : Option Nat := none
  terminationSignal : Option Nat := none

namespace Process

def tids (p : Process) : List Pid := p.taskStates.keys

def taskState (p : Process) (tid : Pid) : Option ProcessState := p.taskStates[tid]?

/-- Still traced: neither ended nor detached. -/
def live (p : Process) : Prop := p.state = .stopped ∨ p.state = .running

instance (p : Process) : Decidable p.live := inferInstanceAs (Decidable (_ ∨ _))

def updateAggregateState (p : Process) : Process :=
  if p.taskStates.isEmpty then p
  else if p.taskStates.toList.any (fun task => task.2 = .stopped) then
    { p with state := .stopped }
  else { p with state := .running }

def selectCurrentTask (p : Process) : Process :=
  match p.taskStates.toList.find? (fun task => task.2 = .stopped) with
  | some task => { p with currentTid := task.1 }
  | none =>
    match p.taskStates.toList.head? with
    | some task => { p with currentTid := task.1 }
    | none => { p with currentTid := -1 }

def markRunning (p : Process) (tid : Pid) : Process :=
  if p.taskStates.contains tid then
    updateAggregateState { p with taskStates := p.taskStates.insert tid .running }
  else p

/-- `task_states_.erase(tid)` -/
def dropTask (p : Process) (tid : Pid) : Process :=
  { p with taskStates := p.taskStates.erase tid }

/-- A task that ended leaves the registry; `ended` is the state of a process without tasks. -/
def removeTask (p : Process) (tid : Pid) (ended : ProcessState) : Process :=
  if (p.dropTask tid).taskStates.isEmpty then
    { p.dropTask tid with currentTid := -1, state := ended }
  else (p.dropTask tid).updateAggregateState.selectCurrentTask

/-- The `WIFEXITED` branch of `wait_for`. -/
def taskExited (p : Process) (tid : Pid) (code : Nat) : Process :=
  removeTask { p with exitCode := if tid = p.pid then some code else p.exitCode } tid .exited

/-- The `WIFSIGNALED` branch of `wait_for`. -/
def taskSignaled (p : Process) (tid : Pid) (signal : Nat) : Process :=
  removeTask
    { p with terminationSignal := if tid = p.pid then some signal else p.terminationSignal }
    tid .signaled

/-- The `WIFSTOPPED` branch of `wait_for`. -/
def taskStopped (p : Process) (tid : Pid) : Process :=
  { p with taskStates := p.taskStates.insert tid .stopped, state := .stopped }

/-- `task_states_.try_emplace(tid, Running)` -/
def track (p : Process) (tid : Pid) : Process :=
  if p.taskStates.contains tid then p
  else { p with taskStates := p.taskStates.insert tid .running }

/-- A process that consists of one stopped task, as after `exec` or a fork hand-over. -/
def singleTask (p : Process) (pid : Pid) : Process :=
  { p with
    pid, currentTid := pid, state := .stopped
    taskStates := (∅ : ExtTreeMap Pid ProcessState).insert pid .stopped
    exitCode := none, terminationSignal := none }

def collapseAfterExec (p : Process) (tid : Pid) : Except Exception Process :=
  if tid ≤ 0 then .error (.invalidArgument "exec collapse requires a positive tid")
  else .ok (p.singleTask tid)

def adoptStoppedProcess (p : Process) (pid : Pid) : Except Exception Process :=
  if pid ≤ 0 then .error (.invalidArgument "process adoption requires a positive pid")
  else .ok (p.singleTask pid)

/-- `Process(pid, origin)` after its first stop. -/
def single (pid : Pid) (origin : ProcessOrigin) : Process :=
  singleTask ⟨pid, pid, .running, origin, ∅, none, none⟩ pid

def adoptStopped (pid : Pid) (origin : ProcessOrigin) : Except Exception Process :=
  if pid ≤ 0 then
    .error (.invalidArgument "stopped process adoption requires a positive pid")
  else .ok (single pid origin)

def selectTid (p : Process) (tid : Pid) : Except Exception Process :=
  if p.state ≠ .stopped then
    .error (.logicError "thread selection requires a stopped tracee")
  else if p.taskStates.toList.any (fun task => task.2 ≠ .stopped) then
    .error (.logicError "thread selection requires every traced thread to be stopped")
  else match p.taskState tid with
    | none => .error (.invalidArgument "cannot select an untracked thread")
    | some state =>
      if state ≠ .stopped then .error (.logicError "cannot select a running thread")
      else .ok { p with currentTid := tid }

/-! ## What they do -/

/-- A thread can be selected only while it is stopped. -/
theorem selectTid_ok {p p' : Process} {tid : Pid} (h : p.selectTid tid = .ok p') :
    p.taskState tid = some .stopped ∧ p' = { p with currentTid := tid } := by
  unfold selectTid at h
  split at h
  · cases h
  split at h
  · cases h
  split at h
  · cases h
  · rename_i htask
    split at h
    · cases h
    · rename_i hstate
      cases h
      exact ⟨htask.trans (congrArg some (not_not.mp hstate)), rfl⟩

section Rules

variable {p : Process} {tid other : Pid}

@[simp] theorem updateAggregateState_pid : p.updateAggregateState.pid = p.pid := by
  unfold updateAggregateState; split <;> [rfl; split <;> rfl]

@[simp] theorem updateAggregateState_origin : p.updateAggregateState.origin = p.origin := by
  unfold updateAggregateState; split <;> [rfl; split <;> rfl]

@[simp] theorem updateAggregateState_currentTid :
    p.updateAggregateState.currentTid = p.currentTid := by
  unfold updateAggregateState; split <;> [rfl; split <;> rfl]

@[simp] theorem updateAggregateState_taskStates :
    p.updateAggregateState.taskStates = p.taskStates := by
  unfold updateAggregateState; split <;> [rfl; split <;> rfl]

/-- The aggregate state is `Stopped` exactly when some task is. -/
theorem updateAggregateState_state (h : p.taskStates.isEmpty = false) :
    (p.updateAggregateState.state = .stopped ∧ ∃ tid : Pid, p.taskStates[tid]? = some .stopped) ∨
    (p.updateAggregateState.state = .running ∧
      ∀ tid : Pid, p.taskStates[tid]? ≠ some .stopped) := by
  unfold updateAggregateState
  rw [if_neg (by simp [h])]
  split
  · rename_i hany
    obtain ⟨task, hmem, hstate⟩ := List.any_eq_true.mp hany
    refine .inl ⟨rfl, task.1, ?_⟩
    rw [ExtTreeMap.mem_toList_iff_getElem?_eq_some.mp hmem]
    simpa using hstate
  · rename_i hany
    refine .inr ⟨rfl, fun tid htid => hany ?_⟩
    exact List.any_eq_true.mpr
      ⟨(tid, .stopped), ExtTreeMap.mem_toList_iff_getElem?_eq_some.mpr htid, by simp⟩

@[simp] theorem selectCurrentTask_pid : p.selectCurrentTask.pid = p.pid := by
  unfold selectCurrentTask; split <;> [rfl; split <;> rfl]

@[simp] theorem selectCurrentTask_origin : p.selectCurrentTask.origin = p.origin := by
  unfold selectCurrentTask; split <;> [rfl; split <;> rfl]

@[simp] theorem selectCurrentTask_state : p.selectCurrentTask.state = p.state := by
  unfold selectCurrentTask; split <;> [rfl; split <;> rfl]

@[simp] theorem selectCurrentTask_taskStates : p.selectCurrentTask.taskStates = p.taskStates := by
  unfold selectCurrentTask; split <;> [rfl; split <;> rfl]

/-- A process with tasks selects one of them. -/
theorem selectCurrentTask_mem (h : p.taskStates.isEmpty = false) :
    p.selectCurrentTask.currentTid ∈ p.taskStates := by
  have mem_of : ∀ task ∈ p.taskStates.toList, task.1 ∈ p.taskStates := by
    intro task htask
    rw [ExtTreeMap.mem_iff_isSome_getElem?,
      ExtTreeMap.mem_toList_iff_getElem?_eq_some.mp htask]
    rfl
  unfold selectCurrentTask
  split
  · exact mem_of _ (List.mem_of_find?_eq_some ‹_›)
  · split
    · exact mem_of _ (List.mem_of_mem_head? ‹_›)
    · rename_i hhead
      rw [List.head?_eq_none_iff] at hhead
      have : p.taskStates.toList.isEmpty = false := by rw [ExtTreeMap.isEmpty_toList]; exact h
      simp [hhead] at this

theorem mem_track : other ∈ (p.track tid).taskStates ↔ other = tid ∨ other ∈ p.taskStates := by
  unfold track
  split
  · rename_i h
    have : tid ∈ p.taskStates := by simpa using h
    grind
  · grind

@[simp] theorem track_pid : (p.track tid).pid = p.pid := by
  unfold track; split <;> rfl

@[simp] theorem track_state : (p.track tid).state = p.state := by
  unfold track; split <;> rfl

@[simp] theorem track_currentTid : (p.track tid).currentTid = p.currentTid := by
  unfold track; split <;> rfl

theorem track_taskState {state : ProcessState}
    (h : (p.track tid).taskStates[other]? = some state) :
    p.taskStates[other]? = some state ∨ (other = tid ∧ state = .running) := by
  unfold track at h
  split at h
  · exact .inl h
  · grind

theorem track_of_mem (h : tid ∈ p.taskStates) : p.track tid = p := by
  rw [track, if_pos (by simpa using h)]

@[simp] theorem markRunning_pid : (p.markRunning tid).pid = p.pid := by
  unfold markRunning; split <;> simp

@[simp] theorem markRunning_currentTid : (p.markRunning tid).currentTid = p.currentTid := by
  unfold markRunning; split <;> simp

theorem mem_markRunning : other ∈ (p.markRunning tid).taskStates ↔ other ∈ p.taskStates := by
  unfold markRunning
  split
  · rename_i h
    have : tid ∈ p.taskStates := by simpa using h
    simp only [updateAggregateState_taskStates]
    grind
  · rfl

theorem markRunning_taskStates (h : tid ∈ p.taskStates) :
    (p.markRunning tid).taskStates = p.taskStates.insert tid .running := by
  rw [markRunning, if_pos (by simpa using h), updateAggregateState_taskStates]

theorem live_of_nonempty (h : p.taskStates.isEmpty = false) : p.updateAggregateState.live := by
  rcases updateAggregateState_state h with ⟨hs, -⟩ | ⟨hs, -⟩
  · exact .inl hs
  · exact .inr hs

theorem live_markRunning (h : p.live) : (p.markRunning tid).live := by
  unfold markRunning
  split
  · exact live_of_nonempty (by simp)
  · exact h

/-- What becomes of a process when the task `tid` ends: the last task takes it along, otherwise
it lives on and another task is selected. -/
structure EndedTask (p : Process) (tid : Pid) (q : Process) : Prop where
  pid : q.pid = p.pid
  origin : q.origin = p.origin
  taskStates : q.taskStates = p.taskStates.erase tid
  gone : q.taskStates.isEmpty = true → ¬q.live
  survives : q.taskStates.isEmpty = false → q.live ∧ q.currentTid ∈ q.taskStates
  running : q.taskStates.isEmpty = false → q.state ≠ .stopped →
    ∀ other : Pid, q.taskStates[other]? ≠ some .stopped

theorem endedTask_removeTask (p : Process) (tid : Pid) {ended : ProcessState}
    (hstate : ended ≠ .stopped ∧ ended ≠ .running) :
    p.EndedTask tid (p.removeTask tid ended) := by
  unfold removeTask
  split
  · rename_i hempty
    refine ⟨rfl, rfl, rfl, fun _ hlive => ?_, fun h => ?_, fun h => ?_⟩
    · exact hlive.elim hstate.1 hstate.2
    · simp [hempty] at h
    · simp [hempty] at h
  · rename_i h
    have hne : (p.dropTask tid).taskStates.isEmpty = false := Bool.eq_false_iff.mpr h
    have hne' : (p.dropTask tid).updateAggregateState.taskStates.isEmpty = false := by
      rwa [updateAggregateState_taskStates]
    have htasks : (p.dropTask tid).updateAggregateState.selectCurrentTask.taskStates =
        (p.dropTask tid).taskStates := by simp
    have hmem := selectCurrentTask_mem hne'
    rw [updateAggregateState_taskStates] at hmem
    refine ⟨by simp [dropTask], by simp [dropTask], htasks, fun hempty => ?_, fun _ => ⟨?_, ?_⟩,
      fun _ => ?_⟩
    · rw [htasks, hne] at hempty
      cases hempty
    · unfold live
      rw [selectCurrentTask_state]
      exact live_of_nonempty hne
    · rwa [htasks]
    · rw [selectCurrentTask_state, htasks]
      rcases updateAggregateState_state hne with ⟨hs, -⟩ | ⟨-, hnone⟩
      · exact fun hns => absurd hs hns
      · exact fun _ => hnone

theorem endedTask_taskExited {code : Nat} : p.EndedTask tid (p.taskExited tid code) := by
  have h := endedTask_removeTask
    { p with exitCode := if tid = p.pid then some code else p.exitCode } tid
    (show ProcessState.exited ≠ .stopped ∧ ProcessState.exited ≠ .running by decide)
  exact ⟨h.pid, h.origin, h.taskStates, h.gone, h.survives, h.running⟩

theorem endedTask_taskSignaled {signal : Nat} : p.EndedTask tid (p.taskSignaled tid signal) := by
  have h := endedTask_removeTask
    { p with terminationSignal := if tid = p.pid then some signal else p.terminationSignal } tid
    (show ProcessState.signaled ≠ .stopped ∧ ProcessState.signaled ≠ .running by decide)
  exact ⟨h.pid, h.origin, h.taskStates, h.gone, h.survives, h.running⟩

/-- Only `Stopped` and `Running` are recorded for a task. -/
def Sane (p : Process) : Prop :=
  ∀ (tid : Pid) (state : ProcessState), p.taskStates[tid]? = some state →
    state = .stopped ∨ state = .running

theorem Sane.track (h : p.Sane) (tid : Pid) : (p.track tid).Sane := by
  intro other state hstate
  rcases track_taskState hstate with hold | ⟨-, hnew⟩
  · exact h other state hold
  · exact .inr hnew

theorem Sane.markRunning (h : p.Sane) : (p.markRunning tid).Sane := by
  unfold Process.markRunning
  split
  · intro other state hstate
    rw [updateAggregateState_taskStates] at hstate
    have := h other state
    grind
  · exact h

theorem Sane.taskStopped (h : p.Sane) (tid : Pid) : (p.taskStopped tid).Sane := by
  intro other state hstate
  have := h other state
  simp only [Process.taskStopped] at hstate
  grind

theorem Sane.ended (h : p.Sane) {q : Process} (hq : p.EndedTask tid q) : q.Sane := by
  intro other state hstate
  have := h other state
  rw [hq.taskStates] at hstate
  grind

theorem Sane.dropTask (h : p.Sane) : (p.dropTask tid).Sane := by
  intro other state hstate
  have := h other state
  simp only [Process.dropTask] at hstate
  grind

theorem sane_singleTask {pid : Pid} : (p.singleTask pid).Sane := by
  intro other state hstate
  simp only [singleTask] at hstate
  grind

end Rules

end Process

end MiniDebugger
