import MiniDebugger.Memory.FailedDetach

/-!
# The aggregate state of a process object

A `Process` object keeps an aggregate state and a selected task beside the states of its tasks, and
every operation brings them up to date by itself. Here the objects of a program are created in any
way the class offers and then go through any sequence of calls, each of them in an arbitrary session:
`Consistent` is what their fields say about each other.
-/

namespace MiniDebugger

open Std (ExtTreeMap)
open Command
open Function (update)

namespace Process

/-- The aggregate state, the tasks and the selected task agree. -/
structure Consistent (p : Process) : Prop where
  sane : p.Sane
  stopped : p.taskStates.isEmpty = false →
    (p.state = .stopped ↔ ∃ tid, p.taskState tid = some .stopped)
  running : p.taskStates.isEmpty = false →
    (p.state = .running ↔ ∀ tid, p.taskState tid ≠ some .stopped)
  ended : p.taskStates.isEmpty = true ↔
    p.state = .exited ∨ p.state = .signaled ∨ p.state = .detached
  current : p.taskStates.isEmpty = false → p.currentTid ∈ p.taskStates
  nobody : p.taskStates.isEmpty = true → p.currentTid = -1

/-- A stopped process has a stopped task selected. -/
def SelectsStopped (p : Process) : Prop :=
  p.state = .stopped → p.taskState p.currentTid = some .stopped

/-! ## How objects come into being -/

/-- `Process()` -/
def noProcess : Process := ⟨-1, -1, .exited, .launched, ∅, none, none⟩

/-- `Process(pid, origin)` -/
def created (pid : Pid) (origin : ProcessOrigin) : Process where
  pid := pid
  currentTid := pid
  state := .running
  origin := origin
  taskStates := (∅ : ExtTreeMap Pid ProcessState).insert pid .running

end Process

/-- `Process::launch`, behind the fork. An object that is not returned is destroyed. -/
def launchProcess (tracees : Tracees) (child : Pid) : Act Unit := do
  modifyProcess fun _ => .created child .launched
  let initial ← wait tracees (.active (-1))
  if initial.kind ≠ .stopped ∨ initial.value ≠ sigtrap ∨ initial.tid ≠ child then
    raise (.runtimeError "tracee did not stop with SIGTRAP after exec")
  Lowlevel.setOptions child

def kMaxAttachDiscoveryPasses : Nat := 64
def kMaxAttachTasks : Nat := 4096

/-- `lowlevel::attach`; `false` if the task is gone. -/
def attachTask (leader tid : Pid) : Act Bool :=
  handle
    (do
      Lowlevel.attempt "PTRACE_ATTACH"
      Lowlevel.modifyWorld fun w => { w with
        tasks := w.tasks.insert tid leader
        mode := update w.mode tid (some .cont) }
      return true)
    (fun
      | .ptraceError operation errno =>
        if errno = esrch then return false else raise (.ptraceError operation errno)
      | e => raise e)

/-- A round of the loop of `Process::attach` over the observed threads. -/
def attachThread (tracees : Tracees) (leader tid : Pid) : Act Unit := do
  let process ← view (·.process)
  if process.taskStates.contains tid then return ()
  if kMaxAttachTasks ≤ process.taskStates.size then
    raise (.runtimeError "attach thread count exceeds supported bound")
  if ← attachTask leader tid then
    modifyProcess (·.track tid)
    let initial ← waitFor tracees (.active tid) tid
    if initial.kind ≠ .stopped ∨ initial.value ≠ sigstop ∨ initial.tid ≠ tid then
      raise (.runtimeError "attached tracee thread did not stop with SIGSTOP")
    Lowlevel.setOptions tid

/-- The end of `Process::attach`, when every thread is traced. -/
def completeAttach (leader : Pid) : Act Unit := do
  let process ← view (·.process)
  if !process.taskStates.contains leader then
    raise (.runtimeError "thread-group leader exited during attach")
  modifyProcess fun p => { p with currentTid := leader }.updateAggregateState
  let process ← view (·.process)
  if process.state ≠ .stopped then
    raise (.runtimeError "attach did not stop every traced thread")

/-- The passes of `Process::attach`, with what `thread_ids` finds at the beginning and at the end of
each of them. -/
def attachPasses (tracees : Tracees) (leader : Pid) : List (List Pid × List Pid) → Act Unit
  | [] => raise (.runtimeError "attach thread discovery did not converge")
  | (observed, after) :: passes => do
    if observed.isEmpty then raise (.runtimeError "attach target has no live threads")
    forEach (attachThread tracees leader) observed
    let process ← view (·.process)
    if !after.isEmpty && after.all fun tid => process.taskStates.contains tid then
      completeAttach leader
    else attachPasses tracees leader passes

/-- `Process::attach` -/
def attachProcess (tracees : Tracees) (pid : Pid) (passes : List (List Pid × List Pid)) :
    Act Unit := do
  if pid ≤ 0 then raise (.invalidArgument "attach requires a positive pid")
  modifyProcess fun _ => { Process.created pid .attached with taskStates := ∅, currentTid := -1 }
  attachPasses tracees pid (passes.take kMaxAttachDiscoveryPasses)

/-- A new object, in any of the ways to get one. -/
inductive Process.Created : Process → Prop
  | noProcess : Created .noProcess
  | created (pid : Pid) (origin : ProcessOrigin) : Created (.created pid origin)
  | launched (tracees : Tracees) (child : Pid) (s t : Session)
      (h : launchProcess tracees child s = .returned () t) : Created t.dbg.process
  | attached (tracees : Tracees) (pid : Pid) (passes : List (List Pid × List Pid)) (s t : Session)
      (h : attachProcess tracees pid passes s = .returned () t) : Created t.dbg.process
  | adopted (pid : Pid) (origin : ProcessOrigin) (p : Process)
      (h : Process.adoptStopped pid origin = .ok p) : Created p

/-! ## What is done with objects -/

/-- A call on one object; `wait` is any of the three functions that wait. -/
inductive ProcessCall where
  | wait (tracees : Tracees) (call : WaitCall) (requested : Pid)
  | markRunning (tid : Pid)
  | selectTid (tid : Pid)
  | collapseAfterExec (tid : Pid)
  | adoptStoppedProcess (pid : Pid)
  | detach (signal : Nat)

namespace ProcessCall

def run : ProcessCall → Act (Option WaitEvent)
  | wait tracees call requested => some <$> waitFor tracees call requested
  | markRunning tid => do
    modifyProcess (·.markRunning tid)
    return none
  | selectTid tid => do
    tryProcess (·.selectTid tid)
    return none
  | collapseAfterExec tid => do
    tryProcess (·.collapseAfterExec tid)
    return none
  | adoptStoppedProcess pid => do
    tryProcess (·.adoptStoppedProcess pid)
    return none
  | detach signal => do
    detachProcess signal
    return none

/-- The call has been through with an exit, with a signal or with a detach. A detach that a check
rejects, with a `std::logic_error`, has not begun. -/
def Removes (c : ProcessCall) (o : Outcome WaitCall Exception Session (Option WaitEvent)) : Prop :=
  match c, o with
  | .wait _ _ _, .returned (some event) _ => event.kind ≠ .stopped
  | .detach _, .returned _ _ => True
  | .detach _, .raised e _ => ∀ what, e ≠ .logicError what
  | _, _ => False

end ProcessCall

/-- The objects `i` and `j` after `swap`. -/
def swapObjects {ι : Type} [DecidableEq ι] (objects : ι → Process) (i j : ι) : ι → Process :=
  update (update objects i (objects j)) j (objects i)

/-- The objects of a program after any calls, in sessions that only have the object in common. -/
inductive ObjectRun {ι : Type} [DecidableEq ι] (start : ι → Process) : (ι → Process) → Prop
  | start : ObjectRun start start
  | call {objects : ι → Process} (h : ObjectRun start objects) (i : ι) (c : ProcessCall)
      (s : Session) (hs : s.dbg.process = objects i) :
      ObjectRun start (update objects i (c.run s).state.dbg.process)
  | swap {objects : ι → Process} (h : ObjectRun start objects) (i j : ι) :
      ObjectRun start (swapObjects objects i j)

/-! ## The functions on the record -/

namespace Process

variable {p : Process} {tid : Pid}

/-- The aggregate state is what the states of the tasks add up to. -/
def Summed (p : Process) : Prop :=
  (p.state = .stopped ∧ ∃ tid : Pid, p.taskStates[tid]? = some .stopped) ∨
  (p.state = .running ∧ ∀ tid : Pid, p.taskStates[tid]? ≠ some .stopped)

theorem isEmpty_of_mem (h : tid ∈ p.taskStates) : p.taskStates.isEmpty = false :=
  ExtTreeMap.isEmpty_eq_false_iff.mpr (ExtTreeMap.ne_empty_of_mem h)

theorem consistent_of_summed (hsane : p.Sane) (hsum : p.Summed)
    (hcurrent : p.currentTid ∈ p.taskStates) : p.Consistent := by
  have hne : p.taskStates.isEmpty = false := isEmpty_of_mem hcurrent
  refine ⟨hsane, fun _ => ?_, fun _ => ?_, ?_, fun _ => hcurrent, fun h => ?_⟩
  · rcases hsum with ⟨hs, hex⟩ | ⟨hs, hall⟩
    · exact iff_of_true hs hex
    · exact iff_of_false (by simp [hs]) fun ⟨tid, htid⟩ => hall tid htid
  · rcases hsum with ⟨hs, tid, htid⟩ | ⟨hs, hall⟩
    · exact iff_of_false (by simp [hs]) fun h => h tid htid
    · exact iff_of_true hs hall
  · rcases hsum with ⟨hs, -⟩ | ⟨hs, -⟩ <;> simp [hne, hs]
  · rw [hne] at h
    cases h

theorem consistent_of_empty (hempty : p.taskStates.isEmpty = true)
    (hstate : p.state = .exited ∨ p.state = .signaled ∨ p.state = .detached)
    (hcurrent : p.currentTid = -1) : p.Consistent := by
  refine ⟨fun tid state h => ?_, fun h => ?_, fun h => ?_, iff_of_true hempty hstate, fun h => ?_,
    fun _ => hcurrent⟩
  · rw [ExtTreeMap.isEmpty_iff] at hempty
    simp [hempty] at h
  all_goals rw [hempty] at h; cases h

theorem Consistent.summed (h : p.Consistent) (hne : p.taskStates.isEmpty = false) : p.Summed := by
  by_cases hex : ∃ tid, p.taskState tid = some .stopped
  · exact .inl ⟨(h.stopped hne).mpr hex, hex⟩
  · exact .inr ⟨(h.running hne).mpr fun tid htid => hex ⟨tid, htid⟩, fun tid htid => hex ⟨tid, htid⟩⟩

theorem summed_updateAggregateState (h : p.taskStates.isEmpty = false) :
    p.updateAggregateState.Summed := by
  unfold Summed
  rw [updateAggregateState_taskStates]
  exact updateAggregateState_state h

theorem consistent_updateAggregateState (hsane : p.Sane) (hcurrent : p.currentTid ∈ p.taskStates) :
    p.updateAggregateState.Consistent := by
  refine consistent_of_summed ?_ (summed_updateAggregateState (isEmpty_of_mem hcurrent)) ?_
  · simpa only [Sane, updateAggregateState_taskStates] using hsane
  · rwa [updateAggregateState_currentTid, updateAggregateState_taskStates]

theorem summed_taskStopped : (p.taskStopped tid).Summed :=
  .inl ⟨rfl, tid, by simp [taskStopped]⟩

theorem Summed.track (h : p.Summed) : (p.track tid).Summed := by
  unfold Summed at *
  rw [track_state]
  refine h.imp (fun h => ⟨h.1, ?_⟩) fun h => ⟨h.1, fun other hother => ?_⟩
  · obtain ⟨other, hother⟩ := h.2
    refine ⟨other, ?_⟩
    unfold Process.track
    split
    · exact hother
    · grind
  · rcases track_taskState hother with hold | ⟨-, hnew⟩
    · exact h.2 other hold
    · cases hnew

/-- A task that is selected is stopped if any is. -/
theorem selectsStopped_selectCurrentTask (h : p.Summed) : p.selectCurrentTask.SelectsStopped := by
  intro hstopped
  rw [selectCurrentTask_state] at hstopped
  obtain ⟨-, tid, htid⟩ : p.state = .stopped ∧ ∃ tid : Pid, p.taskStates[tid]? = some .stopped := by
    rcases h with h | ⟨hs, -⟩
    · exact h
    · rw [hs] at hstopped
      cases hstopped
  unfold taskState
  rw [selectCurrentTask_taskStates]
  unfold selectCurrentTask
  split
  · rename_i task hfound
    have hmem := List.mem_of_find?_eq_some hfound
    have hstate := List.find?_some hfound
    rw [ExtTreeMap.mem_toList_iff_getElem?_eq_some.mp hmem]
    simpa using hstate
  · rename_i hnone
    rw [List.find?_eq_none] at hnone
    exact absurd (by simp) (hnone _ (ExtTreeMap.mem_toList_iff_getElem?_eq_some.mpr htid))

/-- What `update_aggregate_state` and `select_current_task` make of tasks that are left. -/
theorem consistent_select (hsane : p.Sane) (hne : p.taskStates.isEmpty = false) :
    p.updateAggregateState.selectCurrentTask.Consistent ∧
      p.updateAggregateState.selectCurrentTask.SelectsStopped := by
  have hsum := summed_updateAggregateState hne
  have hne' : p.updateAggregateState.taskStates.isEmpty = false := by
    rwa [updateAggregateState_taskStates]
  refine ⟨consistent_of_summed ?_ ?_ ?_, selectsStopped_selectCurrentTask hsum⟩
  · simpa only [Sane, selectCurrentTask_taskStates, updateAggregateState_taskStates] using hsane
  · simpa only [Summed, selectCurrentTask_state, selectCurrentTask_taskStates] using hsum
  · rw [selectCurrentTask_taskStates]
    exact selectCurrentTask_mem hne'

theorem consistent_removeTask {ended : ProcessState} (hsane : p.Sane)
    (hended : ended = .exited ∨ ended = .signaled) :
    (p.removeTask tid ended).Consistent ∧ (p.removeTask tid ended).SelectsStopped := by
  unfold removeTask
  split
  · rename_i hempty
    refine ⟨consistent_of_empty hempty (hended.imp_right .inl) rfl, fun hstopped => ?_⟩
    rcases hended with rfl | rfl <;> cases hstopped
  · rename_i hne
    exact consistent_select hsane.dropTask (Bool.eq_false_iff.mpr hne)

theorem consistent_taskExited {code : Nat} (hsane : p.Sane) :
    (p.taskExited tid code).Consistent ∧ (p.taskExited tid code).SelectsStopped :=
  consistent_removeTask (p := { p with exitCode := if tid = p.pid then some code else p.exitCode })
    hsane (.inl rfl)

theorem consistent_taskSignaled {signal : Nat} (hsane : p.Sane) :
    (p.taskSignaled tid signal).Consistent ∧ (p.taskSignaled tid signal).SelectsStopped :=
  consistent_removeTask
    (p := { p with
      terminationSignal := if tid = p.pid then some signal else p.terminationSignal })
    hsane (.inr rfl)

theorem consistent_released (hsane : p.Sane) :
    p.released.Consistent ∧ p.released.SelectsStopped := by
  unfold released
  split
  · rename_i hempty
    exact ⟨consistent_of_empty hempty (.inr (.inr rfl)) rfl, fun hstopped => by cases hstopped⟩
  · rename_i hne
    exact consistent_select hsane (Bool.eq_false_iff.mpr hne)

theorem consistent_taskStopped (hsane : p.Sane) (hcurrent : p.currentTid = tid) :
    (p.taskStopped tid).Consistent := by
  refine consistent_of_summed (hsane.taskStopped tid) summed_taskStopped ?_
  rw [show (p.taskStopped tid).currentTid = tid from hcurrent]
  simp [taskStopped]

theorem Consistent.track (h : p.Consistent) (hne : p.taskStates.isEmpty = false) :
    (p.track tid).Consistent := by
  refine consistent_of_summed (h.sane.track tid) (h.summed hne).track ?_
  rw [track_currentTid]
  exact mem_track.mpr (.inr (h.current hne))

theorem Consistent.markRunning (h : p.Consistent) : (p.markRunning tid).Consistent := by
  unfold Process.markRunning
  split
  · rename_i hin
    refine consistent_updateAggregateState (fun other state hstate => ?_) ?_
    · have := h.sane other state
      grind
    · have := h.current (isEmpty_of_mem (by simpa using hin))
      grind
  · exact h

theorem consistent_singleTask {pid : Pid} : (p.singleTask pid).Consistent := by
  refine consistent_of_summed sane_singleTask (.inl ⟨rfl, pid, ?_⟩) ?_ <;> simp [singleTask]

theorem Consistent.selectTid {q : Process} (h : p.Consistent) (hq : p.selectTid tid = .ok q) :
    q.Consistent := by
  obtain ⟨htask, rfl⟩ := selectTid_ok hq
  have hin : tid ∈ p.taskStates := by
    rw [ExtTreeMap.mem_iff_isSome_getElem?, show p.taskStates[tid]? = _ from htask]
    rfl
  exact consistent_of_summed h.sane (h.summed (isEmpty_of_mem hin)) hin

theorem consistent_noProcess : noProcess.Consistent := consistent_of_empty rfl (.inl rfl) rfl

theorem consistent_created (pid : Pid) (origin : ProcessOrigin) : (created pid origin).Consistent := by
  refine consistent_of_summed (fun tid state h => ?_) (.inr ⟨rfl, fun tid h => ?_⟩) ?_
  · simp only [created] at h
    grind
  · simp only [created] at h
    grind
  · simp [created]

end Process

/-! ## The calls -/

section Calls

variable {tracees : Tracees} {call : WaitCall} {requested : Pid} {s : Session}

/-- Only `Stopped` and `Running` are recorded for a task. -/
abbrev KeepsSane {α : Type} (x : Act α) : Prop := Preserves (fun s => s.dbg.process.Sane) x

theorem keepsSane_waitFor : KeepsSane (waitFor tracees call requested) := by
  intro s h
  refine wp_waitFor ?_ ?_ ?_ ?_ ?_ ?_ trivial
  · exact fun rest => h
  · exact fun d rest hd hout howns => h
  · exact fun d rest event p hd hin hend hkind htid hp => h.ended hp
  · exact fun d rest signal event hd howns hst hevent => (h.reportedBy d.tid).taskStopped d.tid
  · intro d rest signal faults hd howns hst h0 hmax
    exact ((h.reportedBy d.tid).taskStopped d.tid).track _
  · exact fun d rest signal faults e hd howns hst he => (h.reportedBy d.tid).taskStopped d.tid

/-- A wait leaves the record alone or files an event, whatever the event is. -/
theorem consistent_waitFor (h : s.dbg.process.Consistent) :
    wp (waitFor tracees call requested)
      ⟨fun event t => t.dbg.process.Consistent ∧
          (event.kind ≠ .stopped → t.dbg.process.SelectsStopped),
        fun _ t => t.dbg.process.Consistent, fun _ t => t.dbg.process.Consistent⟩ s := by
  have hstopped (tid : Pid) : ((s.dbg.process.reportedBy tid).taskStopped tid).Consistent :=
    Process.consistent_taskStopped (h.sane.reportedBy tid) rfl
  refine wp_waitFor_filed ?_ ?_ ?_ ?_ ?_ ?_ ?_ h
  · exact fun rest => h
  · exact fun d rest hd hout howns => h
  · intro d rest code hd hin hst
    obtain ⟨hconsistent, hselects⟩ := Process.consistent_taskExited (h.sane.reportedBy d.tid)
    exact ⟨hconsistent, fun _ => hselects⟩
  · intro d rest signal hd hin hst
    obtain ⟨hconsistent, hselects⟩ := Process.consistent_taskSignaled (h.sane.reportedBy d.tid)
    exact ⟨hconsistent, fun _ => hselects⟩
  · exact fun d rest signal event hd howns hst hevent => ⟨hstopped d.tid, fun hkind => absurd rfl hkind⟩
  · intro d rest signal faults hd howns hst h0 hmax
    refine ⟨(hstopped d.tid).track ?_, fun hkind => absurd rfl hkind⟩
    simp [Process.taskStopped]
  · exact fun d rest signal faults e hd howns hst he => hstopped d.tid

/-- Once its checks are passed, a detach leaves the record in order, whichever tasks stay. -/
theorem consistent_detachProcess {signal : Nat} (h : s.dbg.process.Consistent) :
    wp (detachProcess signal)
      ⟨fun _ t => t.dbg.process.Consistent ∧ t.dbg.process.SelectsStopped,
        fun e t => t.dbg.process.Consistent ∧
          ((∀ what, e ≠ .logicError what) → t.dbg.process.SelectsStopped),
        fun _ _ => False⟩ s := by
  have hrejected (what : String) : s.dbg.process.Consistent ∧
      ((∀ what', Exception.logicError what ≠ .logicError what') →
        s.dbg.process.SelectsStopped) :=
    ⟨h, fun hno => absurd rfl (hno what)⟩
  simp only [detachProcess, wp_bind, wp_view, wp_ite, wp_raise]
  split
  · exact hrejected _
  split
  · exact hrejected _
  split
  · exact hrejected _
  refine wp_mono (wp_and (wp_detachTasks _ signal _ none) (releases_detachTasks _ signal _ none s))
    ?_ (fun _ _ h => h.1.elim) (fun _ _ h => h.1)
  intro first t ht
  have hreleased := Process.consistent_released (ht.2.sane h.sane)
  rcases first with _ | e
  · exact hreleased
  · exact ⟨hreleased.1, fun _ => hreleased.2⟩

/-- A fallible function on the record, followed by nothing. -/
theorem consistent_tryProcess {f : Process → Except Exception Process}
    (h : s.dbg.process.Consistent) (hf : ∀ p, f s.dbg.process = .ok p → p.Consistent) :
    wp (do tryProcess f; return (none : Option WaitEvent))
      ⟨fun _ t => t.dbg.process.Consistent, fun _ t => t.dbg.process.Consistent,
        fun _ t => t.dbg.process.Consistent⟩ s := by
  rw [wp_bind]
  exact wp_tryProcess hf fun _ _ => h

theorem consistent_singleTask_of {pid : Pid} {e : Exception} {p q : Process}
    (h : (if pid ≤ 0 then .error e else .ok (p.singleTask pid) : Except Exception Process) =
      .ok q) : q.Consistent := by
  split at h
  · cases h
  · cases h
    exact Process.consistent_singleTask

namespace ProcessCall

/-- What one call preserves, and what it has selected if it has removed a task. -/
theorem wp_run (c : ProcessCall) (h : s.dbg.process.Consistent) :
    wp c.run
      ⟨fun r t => t.dbg.process.Consistent ∧
          (c.Removes (.returned r t) → t.dbg.process.SelectsStopped),
        fun e t => t.dbg.process.Consistent ∧
          (c.Removes (.raised e t) → t.dbg.process.SelectsStopped),
        fun w t => t.dbg.process.Consistent ∧
          (c.Removes (.blocked w t) → t.dbg.process.SelectsStopped)⟩ s := by
  cases c with
  | wait tracees call requested =>
    simp only [run, wp_map]
    exact wp_mono (consistent_waitFor h) (fun event t ht => ht) (fun e t ht => ⟨ht, False.elim⟩)
      (fun w t ht => ⟨ht, False.elim⟩)
  | markRunning tid => exact ⟨h.markRunning, False.elim⟩
  | selectTid tid =>
    exact wp_mono (consistent_tryProcess h fun p hp => h.selectTid hp)
      (fun _ t ht => ⟨ht, False.elim⟩) (fun _ t ht => ⟨ht, False.elim⟩)
      (fun _ t ht => ⟨ht, False.elim⟩)
  | collapseAfterExec tid =>
    exact wp_mono (consistent_tryProcess h fun p => consistent_singleTask_of)
      (fun _ t ht => ⟨ht, False.elim⟩) (fun _ t ht => ⟨ht, False.elim⟩)
      (fun _ t ht => ⟨ht, False.elim⟩)
  | adoptStoppedProcess pid =>
    exact wp_mono (consistent_tryProcess h fun p => consistent_singleTask_of)
      (fun _ t ht => ⟨ht, False.elim⟩) (fun _ t ht => ⟨ht, False.elim⟩)
      (fun _ t ht => ⟨ht, False.elim⟩)
  | detach signal =>
    simp only [run, wp_bind]
    exact wp_mono (consistent_detachProcess h) (fun _ t ht => ⟨ht.1, fun _ => ht.2⟩)
      (fun e t ht => ht) (fun _ _ ht => ht.elim)

theorem consistent_run (c : ProcessCall) (h : s.dbg.process.Consistent) :
    (c.run s).state.dbg.process.Consistent ∧
      (c.Removes (c.run s) → (c.run s).state.dbg.process.SelectsStopped) := by
  have hrun := c.wp_run h
  unfold wp at hrun
  cases hc : c.run s <;> rw [hc] at hrun <;> exact hrun

end ProcessCall

/-! ## New objects -/

theorem consistent_launchProcess (child : Pid) (s : Session) :
    wp (launchProcess tracees child)
      ⟨fun _ t => t.dbg.process.Consistent, fun _ _ => True, fun _ _ => True⟩ s := by
  simp only [launchProcess, wp_bind, wp_modifyProcess]
  refine wp_mono (consistent_waitFor (Process.consistent_created child .launched)) ?_
    (fun _ _ _ => trivial) (fun _ _ _ => trivial)
  intro initial t ht
  simp only [wp_ite]
  split
  · trivial
  · refine (Lowlevel.quiet_setOptions child).wp ?_ (fun _ _ _ _ => trivial)
    rintro - u ⟨faults, sequence, debug, rfl⟩
    exact ht.1

theorem keepsSane_of_quiet {α : Type} {x : Act α} (hx : Quiet x) : KeepsSane x := by
  intro s h
  refine hx.wp ?_ ?_
  · rintro - t ⟨faults, sequence, debug, rfl⟩
    exact h
  · rintro - t ⟨faults, sequence, debug, rfl⟩ -
    exact h

theorem keepsSane_attachTask (leader tid : Pid) : KeepsSane (attachTask leader tid) := by
  refine Preserves.handle ?_ fun e => ?_
  · refine (keepsSane_of_quiet (Lowlevel.quiet_attempt _)).bind fun _ => ?_
    exact Preserves.bind (Preserves.update fun _ h => h) fun _ => Preserves.pure true
  · cases e with
    | ptraceError operation errno => exact Preserves.ite (Preserves.pure false) (Preserves.raise _)
    | _ => exact Preserves.raise _

theorem keepsSane_attachThread (leader tid : Pid) :
    KeepsSane (attachThread tracees leader tid) := by
  unfold attachThread
  refine (Preserves.read _).bind fun process => Preserves.ite (Preserves.pure ()) ?_
  refine Preserves.check ((keepsSane_attachTask leader tid).bind fun attached => ?_)
  cases attached with
  | false => exact Preserves.pure ()
  | true =>
    refine Preserves.bind (Preserves.update fun _ h => h.track tid) fun _ => ?_
    refine keepsSane_waitFor.bind fun initial => Preserves.check ?_
    exact keepsSane_of_quiet (Lowlevel.quiet_setOptions tid)

theorem consistent_completeAttach (leader : Pid) (h : s.dbg.process.Sane) :
    wp (completeAttach leader)
      ⟨fun _ t => t.dbg.process.Consistent, fun _ _ => True, fun _ _ => True⟩ s := by
  simp only [completeAttach, wp_bind, wp_view, wp_ite, wp_modifyProcess]
  split
  · trivial
  split
  · trivial
  · rename_i hin hstopped
    exact Process.consistent_updateAggregateState h (by simpa using hin)

theorem consistent_attachPasses (leader : Pid) (passes : List (List Pid × List Pid))
    (h : s.dbg.process.Sane) :
    wp (attachPasses tracees leader passes)
      ⟨fun _ t => t.dbg.process.Consistent, fun _ _ => True, fun _ _ => True⟩ s := by
  induction passes generalizing s with
  | nil => trivial
  | cons pass passes ih =>
    obtain ⟨observed, after⟩ := pass
    simp only [attachPasses, wp_bind, wp_ite, wp_view]
    split
    · trivial
    refine wp_mono (Preserves.forEach (keepsSane_attachThread leader) observed s h) ?_
      (fun _ _ _ => trivial) (fun _ _ _ => trivial)
    intro _ t ht
    dsimp only
    split
    · exact consistent_completeAttach leader ht
    · exact ih ht

theorem consistent_attachProcess (pid : Pid) (passes : List (List Pid × List Pid)) (s : Session) :
    wp (attachProcess tracees pid passes)
      ⟨fun _ t => t.dbg.process.Consistent, fun _ _ => True, fun _ _ => True⟩ s := by
  simp only [attachProcess, wp_bind, wp_ite, wp_modifyProcess]
  split
  · trivial
  · refine consistent_attachPasses pid _ fun tid state hstate => ?_
    simp at hstate

theorem Process.Created.consistent {p : Process} (h : p.Created) : p.Consistent := by
  cases h with
  | noProcess => exact Process.consistent_noProcess
  | created pid origin => exact Process.consistent_created pid origin
  | launched tracees child s t h => exact wp_returned (consistent_launchProcess child s) h
  | attached tracees pid passes s t h => exact wp_returned (consistent_attachProcess pid passes s) h
  | adopted pid origin p h =>
    unfold Process.adoptStopped at h
    exact consistent_singleTask_of h

/-! ## Runs -/

theorem ObjectRun.consistent {ι : Type} [DecidableEq ι] {start objects : ι → Process}
    (hstart : ∀ i, (start i).Created) (h : ObjectRun start objects) (i : ι) :
    (objects i).Consistent := by
  induction h generalizing i with
  | start => exact (hstart i).consistent
  | call h j c s hs ih =>
    by_cases hij : i = j
    · subst hij
      rw [Function.update_self]
      exact (c.consistent_run (hs ▸ ih i)).1
    · rw [Function.update_of_ne hij]
      exact ih i
  | swap h j k ih =>
    unfold swapObjects
    by_cases hik : i = k
    · rw [hik, Function.update_self]
      exact ih j
    by_cases hij : i = j
    · rw [Function.update_of_ne hik, hij, Function.update_self]
      exact ih k
    · rw [Function.update_of_ne hik, Function.update_of_ne hij]
      exact ih i

/-- In any program, every process object agrees with itself after any calls; and a call that takes
an exit, a signal or a detach in selects a stopped task if the process is stopped then. -/
theorem objects_consistent {ι : Type} [DecidableEq ι] {start objects : ι → Process}
    (hstart : ∀ i, (start i).Created) (hrun : ObjectRun start objects) (i : ι) :
    (objects i).Consistent ∧ ∀ (c : ProcessCall) (s : Session), s.dbg.process = objects i →
      c.Removes (c.run s) → (c.run s).state.dbg.process.SelectsStopped := by
  refine ⟨hrun.consistent hstart i, fun c s hs => ?_⟩
  exact (c.consistent_run (hs ▸ hrun.consistent hstart i)).2

/-- An attached process that is still running, and an object without a process. -/
def twoObjects (i : Bool) : Process := if i then .created 10 .attached else .noProcess

/-- The session in which the attached process reports its `SIGSTOP`. -/
def Session.firstStop : Session :=
  let launched := Session.launch 10 (fun _ => none) {}
  { launched with
    dbg := { launched.dbg with process := .created 10 .attached }
    world := { launched.world with mode := fun _ => some .cont }
    script := [.report { tid := 10, status := .stopped sigstop .none }] }

/-- The first stop is taken in, and the process moves to the other object. -/
def handedOver : Bool → Process :=
  swapObjects (update twoObjects true
    ((ProcessCall.wait anyTracees (.active 10) 10).run Session.firstStop).state.dbg.process) true false

theorem twoObjects_created (i : Bool) : (twoObjects i).Created := by
  cases i <;> constructor

theorem handedOver_consistent : (handedOver false).state = .stopped ∧
    (handedOver false).Consistent ∧ ∀ (c : ProcessCall) (s : Session),
      s.dbg.process = handedOver false → c.Removes (c.run s) →
        (c.run s).state.dbg.process.SelectsStopped :=
  ⟨by decide +kernel, objects_consistent twoObjects_created
    ((ObjectRun.start.call true (.wait anyTracees (.active 10) 10) Session.firstStop rfl).swap
      true false) false⟩

end Calls

end MiniDebugger
