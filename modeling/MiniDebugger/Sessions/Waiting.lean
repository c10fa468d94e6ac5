import MiniDebugger.Debugger.ExecutionRules
import MiniDebugger.Debugger.Runs

/-!
# Waiting for a running task

While domains are retained, `wait_active_process` waits for the selected task alone. The wait can
only end if that task is running. Resuming marks it so, and a `continue` of the classifier loop
after an exit selects a running task; the `continue` after a clone event goes back to waiting for
the task that has just stopped.
-/

namespace MiniDebugger

open Command
open Std (ExtTreeMap)

/-- A wait for the active process beside retained domains is for a running task. -/
def WaitRecord.Awake : WaitRecord → Prop
  | .waits (.active requested) dbg =>
    dbg.retainedProcesses.isEmpty = false → dbg.process.taskState requested = some .running
  | _ => True

instance : DecidablePred WaitRecord.Awake
  | .waits (.active _) _ => inferInstanceAs (Decidable (_ → _))
  | .waits .vforkDone _ => .isTrue trivial
  | .waits (.transientChild _) _ => .isTrue trivial
  | .takes _ _ _ => .isTrue trivial

/-- The process records are sane and no wait so far was for a stopped task. -/
structure Session.Watchful (s : Session) : Prop where
  active : s.dbg.process.Sane
  retained : ∀ (pid : Pid) (domain : RetainedProcessDomain),
    s.dbg.retainedProcesses[pid]? = some domain → domain.process.Sane
  history : ∀ record ∈ s.history, record.Awake

/-- Before a wait: the selected task is running if the wait is for it alone. -/
structure Session.ReadyToWait (s : Session) : Prop extends s.Watchful where
  current : s.dbg.retainedProcesses.isEmpty = false →
    s.dbg.process.taskState s.dbg.process.currentTid = some .running

/-- No clone stop is reported while a domain is retained, unless a watchpoint is armed: then the
clone is refused. -/
def ClonesAlone (tracees : Tracees) : Prop :=
  ∀ s d, tracees s d = true → d.status.isClone = true → s.dbg.watchpoint = none →
    s.dbg.retainedProcesses.isEmpty = true

section Steps

variable {tracees : Tracees} {s t : Session}

theorem Session.ReadyToWait.waiting (h : s.ReadyToWait) :
    (s.waiting (.active s.dbg.waitTarget)).ReadyToWait := by
  refine ⟨⟨h.active, h.retained, fun record hrecord => ?_⟩, h.current⟩
  rcases List.mem_cons.mp hrecord with rfl | hold
  · intro hne
    rw [Debugger.waitTarget, if_neg (by simp [hne])]
    exact h.current hne
  · exact h.history record hold

theorem Session.Watchful.deliver (h : s.Watchful) (d : Delivery) (rest : List Wakeup) {p : Process}
    (hp : p.Sane) : ((s.deliver d rest).withProcess p).Watchful := by
  refine ⟨hp, h.retained, fun record hrecord => ?_⟩
  rcases List.mem_cons.mp hrecord with rfl | hold
  · trivial
  · exact h.history record hold

/-- Recording another call of `waitpid` than for the active process. -/
theorem Session.Watchful.vforkDone (h : s.Watchful) : (s.waiting .vforkDone).Watchful := by
  refine ⟨h.active, h.retained, fun record hrecord => ?_⟩
  rcases List.mem_cons.mp hrecord with rfl | hold
  · trivial
  · exact h.history record hold

/-- Other fields than the process records and the history do not matter. -/
theorem Session.Watchful.of_eq (h : s.Watchful) (hp : t.dbg.process = s.dbg.process)
    (hr : t.dbg.retainedProcesses = s.dbg.retainedProcesses) (hh : t.history = s.history) :
    t.Watchful := by
  refine ⟨hp ▸ h.active, hr ▸ h.retained, hh ▸ h.history⟩

theorem Session.Watchful.singleTask (h : s.Watchful) {pid : Pid}
    (hp : t.dbg.process = s.dbg.process.singleTask pid)
    (hr : t.dbg.retainedProcesses = s.dbg.retainedProcesses) (hh : t.history = s.history) :
    t.Watchful := by
  refine ⟨?_, hr ▸ h.retained, hh ▸ h.history⟩
  rw [hp]
  exact Process.sane_singleTask

/-- A retained domain takes the place of the active process. -/
theorem Session.Watchful.activate (h : s.Watchful) {pid : Pid} {domain : RetainedProcessDomain}
    (hdomain : s.dbg.retainedProcesses[pid]? = some domain)
    (hp : t.dbg.process = domain.process)
    (hr : t.dbg.retainedProcesses = s.dbg.retainedProcesses.erase pid)
    (hh : t.history = s.history) : t.Watchful := by
  refine ⟨hp ▸ h.retained pid domain hdomain, fun other domain' hother => ?_, hh ▸ h.history⟩
  rw [hr, ExtTreeMap.getElem?_erase] at hother
  split at hother
  · cases hother
  · exact h.retained other domain' hother

theorem watchful_classifyEnded (h : s.Watchful)
    (hcurrent : s.dbg.process.taskStates.isEmpty = false → s.dbg.process.state ≠ .stopped →
      s.dbg.process.taskState s.dbg.process.currentTid = some .running)
    {event : WaitEvent} {processReason finalReason threadReason : StopReason} :
    wp (classifyEnded event processReason finalReason threadReason)
      ⟨fun r t => match r with
        | some _ => t.Watchful
        | none => t.ReadyToWait, fun _ t => t.Watchful, fun _ t => t.Watchful⟩ s := by
  refine wp_classifyEnded ?_ ?_ ?_ ?_ ?_
  · intro survivor domain e _ hdomain _
    exact h.activate hdomain rfl rfl rfl
  · intro survivor domain _ hdomain _
    exact h.activate hdomain rfl rfl rfl
  · intro _ _
    exact h.of_eq rfl rfl rfl
  · intro hne hstate
    exact ⟨h.of_eq rfl rfl rfl, fun _ => hcurrent hne hstate⟩
  · intro _ _
    exact h.of_eq rfl rfl rfl

theorem watchful_classifyFork (h : s.Watchful) {tid : Pid} :
    wp (classifyFork tid) ⟨fun _ t => t.Watchful, fun _ t => t.Watchful, fun _ t => t.Watchful⟩
      s := by
  refine wp_classifyFork ?_ ?_ ?_ ?_ ?_ ?_
  · intro faults e
    exact h.of_eq rfl rfl rfl
  · rintro t child childStop inherited info - - - ⟨_, _, _, rfl⟩ - - - -
    refine ⟨h.active, fun pid domain hdomain => ?_, h.history⟩
    rw [ExtTreeMap.getElem?_insert] at hdomain
    split at hdomain
    · cases hdomain
      exact Process.sane_singleTask
    · exact h.retained pid domain hdomain
  · intro child faults sequence debug memory requests info _ _ _ _ _ _
    exact h.singleTask rfl rfl rfl
  · rintro child t info - - ⟨_, _, _, _, _, _, rfl, -, -⟩ -
    exact h.of_eq rfl rfl rfl
  · rintro child t e - ⟨_, _, _, _, _, _, rfl, -, -⟩
    exact h.of_eq rfl rfl rfl
  · rintro child t e - - - ⟨_, _, _, _, _, _, rfl, -, -⟩ -
    exact h.of_eq rfl rfl rfl

theorem watchful_classifyVfork (h : s.Watchful) {tid : Pid} :
    wp (classifyVfork tracees tid)
      ⟨fun _ t => t.Watchful, fun _ t => t.Watchful, fun _ t => t.Watchful⟩ s := by
  refine wp_classifyVfork ?_ ?_ ?_
  · rintro _ e ⟨_, _, _, _, _, _, rfl, -, -⟩
    exact h.of_eq rfl rfl rfl
  · rintro _ ⟨_, _, _, _, _, _, rfl, -, -⟩
    exact h.of_eq rfl rfl rfl
  · rintro _ faults requests ⟨_, _, _, _, _, _, rfl, -, -⟩
    generalize hu : Session.mk _ _ _ _ _ _ = u
    have hw : u.Watchful := by
      subst hu
      exact ⟨h.active.markRunning, h.retained, h.history⟩
    refine wp_awaitVforkDone ?_ ?_ ?_ ?_ hw.vforkDone
    · intro rest
      exact hw.vforkDone.of_eq rfl rfl rfl
    · rintro d rest t e - - ⟨p, hp, hdbg⟩ hhistory
      exact (hw.vforkDone.deliver d rest (hp hw.active)).of_eq (by rw [hdbg]; rfl)
        (by rw [hdbg]; rfl) hhistory
    · intro d rest signal faults e _ _ _
      exact (hw.vforkDone.deliver d rest ((hw.active.reportedBy d.tid).taskStopped d.tid)).of_eq rfl
        rfl rfl
    · intro d rest signal faults _ _ _ _
      exact (hw.vforkDone.deliver d rest ((hw.active.reportedBy d.tid).taskStopped d.tid)).of_eq rfl rfl rfl

theorem watchful_classifySignalStop (h : s.Watchful) {expectedSingleStep : Bool}
    {event : WaitEvent} :
    wp (classifySignalStop expectedSingleStep event)
      ⟨fun _ t => t.Watchful, fun _ t => t.Watchful, fun _ t => t.Watchful⟩ s := by
  refine wp_classifySignalStop ?_ ?_ ?_ ?_ ?_ ?_
  · intro info _ _ _ _
    exact h.of_eq rfl rfl rfl
  · intro info _ _ _ _ _
    exact h.of_eq rfl rfl rfl
  · rintro t info - - - - ⟨_, _, _, rfl⟩ - -
    exact h.of_eq rfl rfl rfl
  · rintro t info - - - - ⟨_, _, _, rfl⟩ - -
    exact h.of_eq rfl rfl rfl
  · rintro t - - - ⟨_, _, _, rfl⟩
    refine wp_classifyTrap ?_ ?_ ?_
    · intro bp faults info _ _ _ _ _ _
      exact h.of_eq rfl rfl rfl
    · intro faults info _ _ _
      exact h.of_eq rfl rfl rfl
    · intro faults regs snapshots e _
      exact h.of_eq rfl rfl rfl
  · rintro t e ⟨_, _, _, rfl⟩ -
    exact h.of_eq rfl rfl rfl

/-- One pass of the classifier either reports a stop or is ready to wait again. -/
theorem watchful_waitPass (hclone : ClonesAlone tracees) {expectedSingleStep : Bool}
    (h : s.ReadyToWait) :
    wp (waitPass tracees expectedSingleStep)
      ⟨fun r t => match r with
        | some _ => t.Watchful
        | none => t.ReadyToWait, fun _ t => t.Watchful, fun _ t => t.Watchful⟩ s := by
  simp only [waitPass, wp_bind]
  refine wp_waitActiveProcess (fun e => h.toWatchful) ?_
  have hw := h.waiting
  refine wp_waitFor ?_ ?_ ?_ ?_ ?_ ?_ hw.toWatchful
  · intro rest
    exact hw.of_eq rfl rfl rfl
  · intro d rest _ _ _
    exact hw.deliver d rest hw.active
  · intro d rest event p hd hin hend hkind htid hended
    have hafter := hw.deliver d rest (hw.active.ended hended)
    have hcurrent : p.taskStates.isEmpty = false → p.state ≠ .stopped →
        p.taskState p.currentTid = some .running := by
      intro hne hstate
      obtain ⟨-, hmem⟩ := hended.survives hne
      obtain ⟨state, hs⟩ := Option.isSome_iff_exists.mp
        (ExtTreeMap.isSome_getElem?_iff_mem.mpr hmem)
      rcases hw.active.ended hended p.currentTid state hs with rfl | rfl
      · exact absurd hs (hended.running hne hstate _)
      · exact hs
    rcases hk : event.kind with _ | _ | _
    · exact absurd hk hkind
    · simp only [classifyEvent, hk]
      exact watchful_classifyEnded hafter hcurrent
    · simp only [classifyEvent, hk]
      exact watchful_classifyEnded hafter hcurrent
  · intro d rest signal event hd howns hst hne
    have hafter := hw.deliver d rest
      ((hw.active.reportedBy d.tid).taskStopped d.tid)
    cases event with
    | clone => exact absurd rfl hne
    | exec =>
      simp only [classifyEvent, wp_map]
      have hexec := World.exec_leader hd.possible hst
      refine wp_classifyExec (World.pos_of_possible hd.possible) ?_ ?_ ?_ ?_
      · exact (World.deliver_message hst).trans_le hexec.2
      · intro faults info sequence path _ _
        exact hafter.singleTask rfl rfl rfl
      · intro _ faults e _
        exact hafter.of_eq rfl rfl rfl
      · intro faults e _
        exact hafter.singleTask rfl rfl rfl
    | fork =>
      simp only [classifyEvent, wp_map]
      exact watchful_classifyFork hafter
    | vfork =>
      simp only [classifyEvent, wp_map]
      exact watchful_classifyVfork hafter
    | vforkDone => exact hafter
    | none =>
      simp only [classifyEvent, wp_map]
      exact watchful_classifySignalStop hafter
    | other =>
      simp only [classifyEvent, wp_map]
      exact watchful_classifySignalStop hafter
  · intro d rest signal faults hd howns hst h0 hmax
    have hafter := hw.deliver d rest
      (((hw.active.reportedBy d.tid).taskStopped d.tid).track ((s.world.deliver d).message d.tid))
    simp only [classifyEvent, wp_bind]
    refine wp_classifyClone rfl (fun hunwatched => ?_) (fun e _ => hafter.of_eq rfl rfl rfl)
    refine ⟨hafter.of_eq rfl rfl rfl, fun hne => ?_⟩
    have halone := hclone _ d hd.produced (by rw [hst]; rfl) hunwatched
    exact absurd (halone.symm.trans hne) (by decide)
  · intro d rest signal faults e hd howns hst _
    exact (hw.deliver d rest ((hw.active.reportedBy d.tid).taskStopped d.tid)).of_eq rfl rfl rfl

/-! ## Operations -/

/-- However the command ends, no wait in it was for a stopped task. -/
abbrev KeepsWatch {α : Type} (x : Act α) : Prop :=
  ∀ s : Session, s.Watchful →
    wp x ⟨fun _ t => t.Watchful, fun _ t => t.Watchful, fun _ t => t.Watchful⟩ s

theorem watchful_waitAndClassify (hclone : ClonesAlone tracees) {expectedSingleStep : Bool}
    (h : s.ReadyToWait) :
    wp (waitAndClassify tracees expectedSingleStep)
      ⟨fun _ t => t.Watchful, fun _ t => t.Watchful, fun _ t => t.Watchful⟩ s := by
  refine wp_waitAndClassify (I := Session.ReadyToWait) (fun u hu => ?_)
    (fun u hu => hu.toWatchful) h
  exact wp_mono (watchful_waitPass hclone hu) (fun r t ht => by cases r <;> exact ht)
    (fun _ _ ht => ht) (fun _ _ ht => ht)

theorem Session.Watchful.resumed (h : s.Watchful) {kind : ResumeKind} {signal : Nat}
    {signals : ExtTreeMap Pid Nat} {faults : List (Option Nat)} {state : ProcessState}
    (htask : s.dbg.process.taskState s.dbg.process.currentTid = some state) :
    (s.resumed kind s.dbg.process.currentTid signal signals faults).ReadyToWait := by
  refine ⟨⟨h.active.markRunning, h.retained, h.history⟩, fun _ => ?_⟩
  have hin : s.dbg.process.currentTid ∈ s.dbg.process.taskStates := by
    rw [ExtTreeMap.mem_iff_isSome_getElem?]
    exact Option.isSome_of_eq_some htask
  simp only [Session.resumed, Process.taskState, Process.markRunning_currentTid,
    Process.markRunning_taskStates hin, ExtTreeMap.getElem?_insert_self]

theorem keepsWatch_resumeAndWait (hclone : ClonesAlone tracees) {kind : ResumeKind}
    {policy : SignalPolicy} : KeepsWatch (resumeAndWait tracees kind policy) := by
  intro s h
  exact wp_resumeAndWait (fun faults e => h.of_eq rfl rfl rfl)
    (fun faults signal _ _ htask => watchful_waitAndClassify hclone (h.resumed htask))

theorem keepsWatch_stepOver (hclone : ClonesAlone tracees) {pending : PendingBreakpointStep}
    {exposeSingleStep : Bool} {state : ProcessState} (h : s.Watchful)
    (hpending : pending.tid = s.dbg.process.currentTid)
    (htask : s.dbg.process.taskState s.dbg.process.currentTid = some state) :
    wp (stepOverPendingBreakpoint tracees pending exposeSingleStep)
      ⟨fun _ t => t.Watchful, fun _ t => t.Watchful, fun _ t => t.Watchful⟩ s := by
  refine wp_stepOverPendingBreakpoint (fun faults e => h.of_eq rfl rfl rfl) (fun faults => ?_)
  rw [hpending]
  refine wp_mono (watchful_waitAndClassify hclone (h.resumed htask)) (fun info t ht => ?_)
    (fun _ _ ht => ht) (fun _ _ ht => ht)
  dsimp only
  split
  · exact ht
  · exact wp_finishDisplacedStep (fun tid bp faults stopInfo _ _ _ _ => ht.of_eq rfl rfl rfl)
      (fun stopInfo _ => ht.of_eq rfl rfl rfl) (fun faults e _ => ht.of_eq rfl rfl rfl)

theorem keepsWatch_continueExecution (hclone : ClonesAlone tracees) {policy : SignalPolicy} :
    KeepsWatch (continueExecution tracees policy) := by
  intro s h
  refine wp_continueExecution (fun e => h) (fun _ => keepsWatch_resumeAndWait hclone s h)
    (fun pending _ hpending _ htask => ?_)
  refine wp_mono (keepsWatch_stepOver hclone h hpending htask) (fun info t ht => ?_)
    (fun _ _ ht => ht) (fun _ _ ht => ht)
  dsimp only
  split
  · exact ht
  · exact keepsWatch_resumeAndWait hclone t ht

theorem keepsWatch_singleStep (hclone : ClonesAlone tracees) {policy : SignalPolicy} :
    KeepsWatch (singleStep tracees policy) := by
  intro s h
  exact wp_singleStep (fun e => h) (fun _ => keepsWatch_resumeAndWait hclone s h)
    (fun pending _ hpending _ htask => keepsWatch_stepOver hclone h hpending htask)

theorem keepsWatch_selectProcess {pid : Pid} : KeepsWatch (selectProcess pid) := by
  intro s h
  refine wp_selectProcess (fun _ => h) (fun domain hdomain _ _ _ => ?_)
    (fun domain e hdomain _ => h.activate hdomain rfl rfl rfl) (fun e => h)
  refine ⟨h.retained pid domain hdomain, fun other domain' hother => ?_, h.history⟩
  simp only [Debugger.swapped, ExtTreeMap.getElem?_insert, ExtTreeMap.getElem?_erase] at hother
  split at hother
  · cases hother
    exact h.active
  · split at hother
    · cases hother
    · exact h.retained other domain' hother

/-- Every operation keeps the watch. -/
theorem keepsWatch_run (hclone : ClonesAlone tracees) (op : Operation) :
    KeepsWatch (op.run tracees) := by
  intro s h
  cases op with
  | addBreakpoint address =>
    simp only [Operation.run, wp_map]
    exact wp_addBreakpoint (fun faults original _ _ _ _ _ _ => h.of_eq rfl rfl rfl)
      (fun faults e => h.of_eq rfl rfl rfl)
  | removeBreakpoint id =>
    have cleared : ∀ address, ((s.dbg.clearPendingStep address).eraseBreakpoint id address).process =
        s.dbg.process ∧ ((s.dbg.clearPendingStep address).eraseBreakpoint id
          address).retainedProcesses = s.dbg.retainedProcesses := by
      intro address
      unfold Debugger.clearPendingStep
      split <;> exact ⟨rfl, rfl⟩
    simp only [Operation.run, wp_map]
    exact wp_removeBreakpoint (fun _ => h)
      (fun address bp faults _ _ _ _ _ => h.of_eq (cleared address).1 (cleared address).2 rfl)
      (fun address _ _ => h.of_eq (cleared address).1 (cleared address).2 rfl)
      (fun faults e => h.of_eq rfl rfl rfl)
  | addWriteWatchpoint address length =>
    simp only [Operation.run, wp_map]
    refine wp_addWriteWatchpoint ?_ ?_
    · rintro t snapshot ⟨_, _, _, rfl⟩ - -
      exact h.of_eq rfl rfl rfl
    · rintro t e ⟨_, _, _, rfl⟩
      exact h.of_eq rfl rfl rfl
  | removeWatchpoint id =>
    simp only [Operation.run, wp_map]
    refine wp_removeWatchpoint h ?_ ?_
    · rintro t ⟨_, _, _, rfl⟩
      exact h.of_eq rfl rfl rfl
    · rintro t e ⟨_, _, _, rfl⟩
      exact h.of_eq rfl rfl rfl
  | writeMemory address bytes =>
    simp only [Operation.run, wp_map]
    exact wp_writeMemory (fun faults memory table _ _ _ _ => h.of_eq rfl rfl rfl)
      (fun faults memory e _ _ _ => h.of_eq rfl rfl rfl)
  | continueExecution policy =>
    simp only [Operation.run, wp_map]
    exact keepsWatch_continueExecution hclone s h
  | singleStep policy =>
    simp only [Operation.run, wp_map]
    exact keepsWatch_singleStep hclone s h
  | selectThread tid =>
    simp only [Operation.run, wp_map]
    exact wp_selectThread (fun _ => ⟨h.active, h.retained, h.history⟩) (fun e => h)
  | selectProcess pid =>
    simp only [Operation.run, wp_map]
    exact keepsWatch_selectProcess s h
  | setForkFollowPolicy policy =>
    simp only [Operation.run, wp_map]
    exact wp_setForkFollowPolicy (fun _ => h.of_eq rfl rfl rfl) (fun e => h)
  | detach policy =>
    have released : ∀ t, s.Detaching t → t.Watchful := fun t ht =>
      ⟨ht.sane h.active, by rw [ht.retained]; exact h.retained, by rw [ht.history]; exact h.history⟩
    simp only [Operation.run, wp_map]
    exact wp_detachOperation (fun t ht _ _ => (released t ht).of_eq rfl rfl rfl)
      (fun t e ht => released t ht)

theorem watchful_started (h : Started s) : s.Watchful := by
  cases h with
  | launch pid path _ hpos hdbg htasks hstopped hknown hhistory =>
    refine ⟨?_, fun pid domain hdomain => ?_, by simp [hhistory]⟩
    · rw [hdbg]
      exact Process.sane_singleTask
    · rw [hdbg] at hdomain
      simp [launched] at hdomain
  | attach pid tids path _ hpos htids hdbg htasks hstopped hknown hhistory =>
    refine ⟨?_, fun pid domain hdomain => ?_, by simp [hhistory]⟩
    · intro tid state hstate
      rw [hdbg, attached, getElem?_eachTask] at hstate
      split at hstate
      · exact .inl (Option.some.inj hstate).symm
      · cases hstate
    · rw [hdbg] at hdomain
      simp [attached] at hdomain

end Steps

/-- In every run in which no clone stop that is not refused arrives while a domain is retained, each
wait for the active process beside retained domains is for a task recorded as running. -/
theorem waits_for_running_task {tracees : Tracees} {allowed : Operation → Reply → Prop}
    {log : List Result} {s : Session} (hclone : ClonesAlone tracees)
    (h : Run tracees allowed log s) (op : Operation) (script : List Wakeup)
    (faults : List (Option Nat)) :
    ∀ record ∈ ((op.run tracees) (s.facing script faults)).state.history, record.Awake := by
  have hs : s.Watchful := by
    refine Run.invariant (I := fun _ s => s.Watchful) (fun s => watchful_started)
      (fun log s op script faults hs => ?_) h
    exact wp_mono (keepsWatch_run hclone op (s.facing script faults) (hs.of_eq rfl rfl rfl))
      (fun _ _ ht _ => ht) (fun _ _ ht _ => ht) (fun _ _ _ => trivial)
  have hop := keepsWatch_run hclone op (s.facing script faults) (hs.of_eq rfl rfl rfl)
  unfold wp at hop
  cases hrun : op.run tracees (s.facing script faults) with
  | returned r t => rw [hrun] at hop; exact hop.history
  | raised e t => rw [hrun] at hop; exact hop.history
  | blocked w t => rw [hrun] at hop; exact hop.history

/-- Any events, but no clone stop that `ClonesAlone` excludes. -/
def clonesAloneTracees : Tracees := fun s d =>
  !d.status.isClone || s.dbg.watchpoint.isSome || s.dbg.retainedProcesses.isEmpty

theorem clonesAlone : ClonesAlone clonesAloneTracees := by
  intro s d hproduced hclone hunwatched
  simpa [clonesAloneTracees, hclone, hunwatched] using hproduced

/-- It speaks of a wait beside a retained child. -/
theorem waits_for_running_task_forked :
    (Session.forked clonesAloneTracees).dbg.retainedProcesses.contains 11 = true ∧
      ∀ record ∈ ((Operation.run clonesAloneTracees (.continueExecution .suppress))
        ((Session.forked clonesAloneTracees).facing
          [.report { tid := 10, status := .stopped sigtrap .none }] [])).state.history,
        record.Awake :=
  ⟨by decide +kernel, waits_for_running_task clonesAlone
    (forked_run (by decide +kernel) trivial trivial : Run _ (fun _ _ => True) _ _) _ _ _⟩

/-- When a parent beside a retained child creates a thread, the debugger waits for the parent it
has not resumed. -/
theorem clone_waits_for_stopped_task :
    ¬∀ (log : List Result) (s : Session), Run anyTracees (fun _ _ => True) log s →
      ∀ record ∈ ((Operation.run anyTracees (.continueExecution .suppress)) (s.facing
        [.report { tid := 10, status := .stopped sigtrap .clone, message := 12 }] [])).state.history,
        record.Awake := by
  intro h
  exact absurd (h _ _ (forked_run (by decide +kernel) trivial trivial)) (by decide +kernel)

end MiniDebugger
