import MiniDebugger.Debugger.Ptrace

/-!
# Waiting for the tracees

`waitpid` takes the next report of the script, provided the kernel can produce it and the
`Tracees` under consideration do produce it; otherwise the call does not return. `waitFor` is
`Process::wait_for`, which files the report in the process record.
-/

namespace MiniDebugger

open Command

/-- A wait is about to be made. -/
def Session.waiting (s : Session) (call : WaitCall) : Session :=
  { s with history := .waits call s.dbg :: s.history }

/-- The last record is a wait for `PTRACE_EVENT_VFORK_DONE`. -/
def Session.awaitsVforkDone (s : Session) : Bool :=
  match s.history with
  | .waits .vforkDone _ :: _ => true
  | _ => false

/-- The session once `d` has been reported. -/
def Session.deliver (s : Session) (d : Delivery) (rest : List Wakeup) : Session :=
  { s with
    world := s.world.deliver d
    script := rest
    history := .takes s.dbg s.world d :: s.history }

/-- The next report of the script, if it answers this call. -/
def takeReport (tracees : Tracees) (call : WaitCall) (requested : Pid) :
    Act (Pid × WaitStatus) := fun s =>
  match s.script with
  | [] => .blocked call s
  | .failure _ :: rest => .raised (.runtimeError "waitpid failed") { s with script := rest }
  | .report d :: rest =>
    if (requested = -1 ∨ requested = d.tid) ∧ s.world.possible d ∧ tracees s d then
      .returned (d.tid, d.status) (s.deliver d rest)
    else .blocked call s

/-- `waitpid(requested, &status, __WALL)`, retried on `EINTR`. -/
def waitpid (tracees : Tracees) (call : WaitCall) (requested : Pid) :
    Act (Pid × WaitStatus) := do
  update (·.waiting call)
  takeReport tracees call requested

/-- `is_tracee_task`: `/proc/<leader>/task/<tid>` exists. -/
def isTraceeTask (leader tid : Pid) : Act Bool :=
  read fun s => decide (s.world.tasks[tid]? = some leader)

/-- The task a wait status is for, adopting a thread that stopped before its clone event. -/
def adoptTask (result : Pid) (status : WaitStatus) : Act Unit := do
  let process ← view (·.process)
  let traced ← isTraceeTask process.pid result
  if !process.taskStates.contains result && status.isStopped && traced then
    modifyProcess (·.track result)
  else if !process.taskStates.contains result then
    raise (.runtimeError "waitpid returned an event for an untracked task")

/-- The thread announced by a clone stop enters the registry. -/
def announceThread (result : Pid) : Act Pid := do
  let message ← Lowlevel.getEventMessage result
  if message = 0 ∨ pidMax < message then
    raise (.runtimeError "PTRACE_EVENT_CLONE returned an invalid task id")
  modifyProcess (·.track message)
  return message

def waitFor (tracees : Tracees) (call : WaitCall) (requested : Pid) : Act WaitEvent := do
  let (result, status) ← waitpid tracees call requested
  adoptTask result status
  modifyProcess fun p => { p with currentTid := result }
  match status with
  | .exited code =>
    modifyProcess (·.taskExited result code)
    return { kind := .exited, value := code, tid := result }
  | .signaled signal =>
    modifyProcess (·.taskSignaled result signal)
    return { kind := .signaled, value := signal, tid := result }
  | .stopped signal event =>
    modifyProcess (·.taskStopped result)
    if event = .clone then
      let newTid ← announceThread result
      return { kind := .stopped, value := signal, tid := result, ptraceEvent := event,
               newTid := some newTid }
    else
      return { kind := .stopped, value := signal, tid := result, ptraceEvent := event }

def wait (tracees : Tracees) (call : WaitCall) : Act WaitEvent := waitFor tracees call (-1)

def waitCurrent (tracees : Tracees) : Act WaitEvent := do
  let tid ← view (·.process.currentTid)
  if tid ≤ 0 then raise (.logicError "cannot wait without an active tracee task")
  waitFor tracees (.active tid) tid

/-- Detach one task; a task that is already gone counts as detached. The first error of
another kind is kept. -/
def detachTask (tid : Pid) (signal : Nat) (first : Option Exception) : Act (Option Exception) :=
  handle
    (do
      Lowlevel.detach tid signal
      modifyProcess (·.dropTask tid)
      return first)
    (fun
      | .ptraceError operation errno =>
        if errno = esrch then do
          modifyProcess (·.dropTask tid)
          return first
        else return first.or (some (.ptraceError operation errno))
      | e => return first.or (some e))

def detachTasks (signalTid : Pid) (signal : Nat) :
    List Pid → Option Exception → Act (Option Exception)
  | [], first => return first
  | tid :: rest, first => do
    let first ← detachTask tid (if tid = signalTid then signal else 0) first
    detachTasks signalTid signal rest first

/-- The record once the tasks have been released, as far as that was possible. -/
def Process.released (p : Process) : Process :=
  if p.taskStates.isEmpty then { p with state := .detached, currentTid := -1, pid := -1 }
  else p.updateAggregateState.selectCurrentTask

/-- `Process::detach`: the signalled task is released last. -/
def detachProcess (signal : Nat) : Act Unit := do
  let process ← view (·.process)
  if process.origin ≠ .attached then
    raise (.logicError "detach is only valid for an attached process")
  if process.state ≠ .stopped then raise (.logicError "detach requires a stopped process")
  if process.taskStates.toList.any (fun task => task.2 ≠ .stopped) then
    raise (.logicError "detach requires every traced thread to be stopped")
  let signalTid := process.currentTid
  let others := process.tids.filter (· ≠ signalTid)
  let order := if process.taskStates.contains signalTid then others ++ [signalTid] else others
  let first ← detachTasks signalTid signal order none
  modifyProcess (·.released)
  match first with
  | some e => raise e
  | none => return ()

/-! ## What a wait can do -/

/-- The next report of the script is `d` and this wait takes it. -/
structure Delivered (tracees : Tracees) (requested : Pid) (s : Session) (d : Delivery)
    (rest : List Wakeup) : Prop where
  script : s.script = .report d :: rest
  requested : requested = -1 ∨ requested = d.tid
  possible : s.world.possible d = true
  produced : tracees s d = true

/-- The process record with the reporting task tracked and selected. -/
def Process.reportedBy (p : Process) (tid : Pid) : Process :=
  { p.track tid with currentTid := tid }

theorem Process.Sane.reportedBy {p : Process} (h : p.Sane) (tid : Pid) :
    (p.reportedBy tid).Sane :=
  h.track tid

/-- The debugger tracks the task, or finds it in the thread group of its process. -/
def Session.owns (s : Session) (tid : Pid) : Prop :=
  tid ∈ s.dbg.process.taskStates ∨ s.world.tasks[tid]? = some s.dbg.process.pid

/-- Selecting a task before it is removed makes no difference. -/
theorem reportedBy_ended {p q : Process} {tid : Pid} (hin : tid ∈ p.taskStates)
    (h : (p.reportedBy tid).EndedTask tid q) : p.EndedTask tid q := by
  have htrack : p.track tid = p := Process.track_of_mem hin
  rw [Process.reportedBy, htrack] at h
  exact ⟨h.pid, h.origin, h.taskStates, h.gone, h.survives, h.running⟩

section Rules

variable {tracees : Tracees} {call : WaitCall} {requested : Pid} {s : Session}

theorem wp_waitpid {Q : Post WaitCall Exception Session (Pid × WaitStatus)}
    (failure : ∀ rest, Q.raised (.runtimeError "waitpid failed")
      { s.waiting call with script := rest })
    (delivered : ∀ d rest, Delivered tracees requested (s.waiting call) d rest →
      Q.returned (d.tid, d.status) ((s.waiting call).deliver d rest))
    (blocked : Q.blocked call (s.waiting call)) : wp (waitpid tracees call requested) Q s := by
  unfold waitpid
  rw [wp_bind, wp_update]
  dsimp only
  generalize s.waiting call = u at *
  unfold wp takeReport
  rcases hs : u.script with _ | ⟨d | errno, rest⟩
  · exact blocked
  · dsimp only
    by_cases h : (requested = -1 ∨ requested = d.tid) ∧ u.world.possible d ∧ tracees u d
    · rw [if_pos h]
      exact delivered d rest ⟨hs, h.1, h.2.1, h.2.2⟩
    · rw [if_neg h]
      exact blocked
  · exact failure rest

theorem wp_adoptTask {tid : Pid} {status : WaitStatus}
    {Q : Post WaitCall Exception Session Unit}
    (adopted : tid ∈ s.dbg.process.taskStates ∨ (status.isStopped = true ∧ s.owns tid) →
      Q.returned () (s.withProcess (s.dbg.process.track tid)))
    (untracked : tid ∉ s.dbg.process.taskStates → (status.isStopped = true → ¬s.owns tid) →
      Q.raised (.runtimeError "waitpid returned an event for an untracked task") s) :
    wp (adoptTask tid status) Q s := by
  simp only [adoptTask, isTraceeTask, wp_bind, wp_view, wp_read, wp_ite, wp_modifyProcess,
    wp_raise, wp_pure]
  by_cases hin : tid ∈ s.dbg.process.taskStates
  · have hc : s.dbg.process.taskStates.contains tid = true := by simpa using hin
    have := adopted (.inl hin)
    rw [Process.track_of_mem hin] at this
    simpa [hc] using (show Q.returned () s from this)
  · have hc : s.dbg.process.taskStates.contains tid = false := by
      rw [← Bool.not_eq_true, Std.ExtTreeMap.contains_iff_mem]
      exact hin
    by_cases hstop : status.isStopped = true ∧ s.world.tasks[tid]? = some s.dbg.process.pid
    · have := adopted (.inr ⟨hstop.1, .inr hstop.2⟩)
      simpa [hc, hstop, Session.withProcess] using this
    · have := untracked hin fun hs howns => hstop ⟨hs, howns.resolve_left hin⟩
      simpa [hc, hstop] using this

theorem wp_announceThread {tid : Pid} {Q : Post WaitCall Exception Session Pid}
    (announced : ∀ faults, s.world.message tid ≠ 0 → s.world.message tid ≤ pidMax →
      Q.returned (s.world.message tid)
        { s.withProcess (s.dbg.process.track (s.world.message tid)) with faults })
    (raised : ∀ faults e, e.isPtraceError = true ∨ World.validId (s.world.message tid) = false →
      Q.raised e { s with faults }) :
    wp (announceThread tid) Q s := by
  unfold announceThread
  rw [wp_bind]
  refine Lowlevel.wp_getEventMessage (fun faults => ?_) (fun faults e he => raised faults e (.inl he))
  simp only [wp_bind, wp_ite, wp_raise, wp_pure, wp_modifyProcess]
  split
  · refine raised faults _ (.inr ?_)
    simp only [World.validId, decide_eq_false_iff_not]
    omega
  · rename_i h
    simp only [not_or, not_lt] at h
    exact announced faults h.1 h.2

/-- Everything `waitFor` can do: fail, report a task it does not track, or file the report. -/
theorem wp_waitFor_filed {Q : Post WaitCall Exception Session WaitEvent}
    (failure : ∀ rest, Q.raised (.runtimeError "waitpid failed")
      { s.waiting call with script := rest })
    (untracked : ∀ d rest, Delivered tracees requested (s.waiting call) d rest →
      d.tid ∉ s.dbg.process.taskStates →
      (d.status.isStopped = true → ¬((s.waiting call).deliver d rest).owns d.tid) →
      Q.raised (.runtimeError "waitpid returned an event for an untracked task")
        ((s.waiting call).deliver d rest))
    (exited : ∀ d rest code, Delivered tracees requested (s.waiting call) d rest →
      d.tid ∈ s.dbg.process.taskStates → d.status = .exited code →
      Q.returned { kind := .exited, value := code, tid := d.tid }
        (((s.waiting call).deliver d rest).withProcess
          ((s.dbg.process.reportedBy d.tid).taskExited d.tid code)))
    (signaled : ∀ d rest signal, Delivered tracees requested (s.waiting call) d rest →
      d.tid ∈ s.dbg.process.taskStates → d.status = .signaled signal →
      Q.returned { kind := .signaled, value := signal, tid := d.tid }
        (((s.waiting call).deliver d rest).withProcess
          ((s.dbg.process.reportedBy d.tid).taskSignaled d.tid signal)))
    (stopped : ∀ d rest signal event, Delivered tracees requested (s.waiting call) d rest →
      ((s.waiting call).deliver d rest).owns d.tid →
      d.status = .stopped signal event → event ≠ .clone →
      Q.returned { kind := .stopped, value := signal, tid := d.tid, ptraceEvent := event }
        (((s.waiting call).deliver d rest).withProcess
          ((s.dbg.process.reportedBy d.tid).taskStopped d.tid)))
    (cloned : ∀ d rest signal faults, Delivered tracees requested (s.waiting call) d rest →
      ((s.waiting call).deliver d rest).owns d.tid →
      d.status = .stopped signal .clone →
      (s.world.deliver d).message d.tid ≠ 0 → (s.world.deliver d).message d.tid ≤ pidMax →
      Q.returned
        { kind := .stopped, value := signal, tid := d.tid, ptraceEvent := .clone
          newTid := some ((s.world.deliver d).message d.tid) }
        { ((s.waiting call).deliver d rest).withProcess
            (((s.dbg.process.reportedBy d.tid).taskStopped d.tid).track
              ((s.world.deliver d).message d.tid)) with faults })
    (notCloned : ∀ d rest signal faults e, Delivered tracees requested (s.waiting call) d rest →
      ((s.waiting call).deliver d rest).owns d.tid →
      d.status = .stopped signal .clone →
      e.isPtraceError = true ∨ World.validId ((s.world.deliver d).message d.tid) = false →
      Q.raised e
        { ((s.waiting call).deliver d rest).withProcess
            ((s.dbg.process.reportedBy d.tid).taskStopped d.tid) with faults })
    (blocked : Q.blocked call (s.waiting call)) : wp (waitFor tracees call requested) Q s := by
  unfold waitFor
  rw [wp_bind]
  refine wp_waitpid failure (fun d rest hd => ?_) blocked
  dsimp only
  rw [wp_bind]
  refine wp_adoptTask (fun hown => ?_) (untracked d rest hd)
  simp only [wp_bind, wp_modifyProcess]
  rcases hst : d.status with code | signal | ⟨signal, event⟩
  · exact exited d rest code hd (hown.resolve_right (by simp [hst, WaitStatus.isStopped])) hst
  · exact signaled d rest signal hd (hown.resolve_right (by simp [hst, WaitStatus.isStopped])) hst
  · have howns : ((s.waiting call).deliver d rest).owns d.tid := hown.elim .inl (·.2)
    simp only [wp_bind, wp_modifyProcess, wp_ite, wp_pure]
    split
    · subst event
      exact wp_announceThread (fun faults h0 hmax => cloned d rest signal faults hd howns hst h0 hmax)
        (fun faults e he => notCloned d rest signal faults e hd howns hst he)
    · exact stopped d rest signal event hd howns hst ‹_›

/-- The rule for `waitFor` where it does not matter how a task has ended. -/
theorem wp_waitFor {Q : Post WaitCall Exception Session WaitEvent}
    (failure : ∀ rest, Q.raised (.runtimeError "waitpid failed")
      { s.waiting call with script := rest })
    (untracked : ∀ d rest, Delivered tracees requested (s.waiting call) d rest →
      d.tid ∉ s.dbg.process.taskStates →
      (d.status.isStopped = true → ¬((s.waiting call).deliver d rest).owns d.tid) →
      Q.raised (.runtimeError "waitpid returned an event for an untracked task")
        ((s.waiting call).deliver d rest))
    (ended : ∀ d rest event p, Delivered tracees requested (s.waiting call) d rest →
      d.tid ∈ s.dbg.process.taskStates → d.status.isStopped = false →
      event.kind ≠ .stopped → event.tid = d.tid → s.dbg.process.EndedTask d.tid p →
      Q.returned event (((s.waiting call).deliver d rest).withProcess p))
    (stopped : ∀ d rest signal event, Delivered tracees requested (s.waiting call) d rest →
      ((s.waiting call).deliver d rest).owns d.tid →
      d.status = .stopped signal event → event ≠ .clone →
      Q.returned { kind := .stopped, value := signal, tid := d.tid, ptraceEvent := event }
        (((s.waiting call).deliver d rest).withProcess
          ((s.dbg.process.reportedBy d.tid).taskStopped d.tid)))
    (cloned : ∀ d rest signal faults, Delivered tracees requested (s.waiting call) d rest →
      ((s.waiting call).deliver d rest).owns d.tid →
      d.status = .stopped signal .clone →
      (s.world.deliver d).message d.tid ≠ 0 → (s.world.deliver d).message d.tid ≤ pidMax →
      Q.returned
        { kind := .stopped, value := signal, tid := d.tid, ptraceEvent := .clone
          newTid := some ((s.world.deliver d).message d.tid) }
        { ((s.waiting call).deliver d rest).withProcess
            (((s.dbg.process.reportedBy d.tid).taskStopped d.tid).track
              ((s.world.deliver d).message d.tid)) with faults })
    (notCloned : ∀ d rest signal faults e, Delivered tracees requested (s.waiting call) d rest →
      ((s.waiting call).deliver d rest).owns d.tid →
      d.status = .stopped signal .clone →
      e.isPtraceError = true ∨ World.validId ((s.world.deliver d).message d.tid) = false →
      Q.raised e
        { ((s.waiting call).deliver d rest).withProcess
            ((s.dbg.process.reportedBy d.tid).taskStopped d.tid) with faults })
    (blocked : Q.blocked call (s.waiting call)) : wp (waitFor tracees call requested) Q s := by
  refine wp_waitFor_filed failure untracked (fun d rest code hd hin hst => ?_)
    (fun d rest signal hd hin hst => ?_) stopped cloned notCloned blocked
  · exact ended d rest { kind := .exited, value := code, tid := d.tid } _ hd hin
      (by rw [hst]; rfl) (by simp) rfl (reportedBy_ended hin Process.endedTask_taskExited)
  · exact ended d rest { kind := .signaled, value := signal, tid := d.tid } _ hd hin
      (by rw [hst]; rfl) (by simp) rfl (reportedBy_ended hin Process.endedTask_taskSignaled)

end Rules

end MiniDebugger
