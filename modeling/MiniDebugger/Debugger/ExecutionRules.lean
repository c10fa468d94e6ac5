import MiniDebugger.Debugger.Execution

/-!
# What resuming and detaching do

The rules reduce an operation to the call of `wait_and_classify` in it: what the debugger has set
up when it starts to wait, and what it does with the stop.
-/

namespace MiniDebugger

open Command
open Function (update)
open Std (ExtTreeMap)

section Rules

variable {tracees : Tracees} {s : Session}

/-- The session in which the selected task, or the owner of a displaced step, has been resumed. -/
def Session.resumed (s : Session) (kind : ResumeKind) (tid : Pid) (signal : Nat)
    (signals : ExtTreeMap Pid Nat) (faults : List (Option Nat)) : Session :=
  { s with
    faults
    dbg := { s.dbg with
      pendingSignals := signals
      process := s.dbg.process.markRunning tid }
    world := { s.world with
      mode := update s.world.mode tid (some kind)
      requests := .resume kind tid signal :: s.world.requests } }

theorem wp_resumeAndWait {kind : ResumeKind} {policy : SignalPolicy}
    {Q : Post WaitCall Exception Session StopInfo}
    (raised : ∀ faults e, Q.raised e { s with faults })
    (waits : ∀ faults signal, s.dbg.process.state = .stopped → 0 < s.dbg.process.currentTid →
      s.dbg.process.taskState s.dbg.process.currentTid = some .stopped →
      wp (waitAndClassify tracees (kind = .step)) Q
        (s.resumed kind s.dbg.process.currentTid signal
          (s.dbg.pendingSignals.erase s.dbg.process.currentTid) faults)) :
    wp (resumeAndWait tracees kind policy) Q s := by
  simp only [resumeAndWait, resumeSignal, wp_bind]
  refine wp_stoppedTid (fun hstate hpos htask => ?_) (fun what _ => raised s.faults _)
  simp only [wp_view]
  cases kind with
  | cont =>
    simp only [Lowlevel.continueProcess, wp_bind]
    exact Lowlevel.wp_resume (fun faults => waits faults _ hstate hpos htask)
      (fun faults e _ => raised faults e)
  | step =>
    simp only [Lowlevel.singleStep, wp_bind]
    exact Lowlevel.wp_resume (fun faults => waits faults _ hstate hpos htask)
      (fun faults e _ => raised faults e)

/-- The task through which the debugger puts a displaced breakpoint back. -/
def Session.Reinserts (s : Session) (pending : PendingBreakpointStep) (tid : Pid) : Prop :=
  (s.dbg.process.taskState pending.tid = some .stopped ∧ tid = pending.tid) ∨
  (s.dbg.process.state = .stopped ∧
    s.dbg.process.taskState s.dbg.process.currentTid = some .stopped ∧
    tid = s.dbg.process.currentTid)

theorem wp_finishDisplacedStep {pending : PendingBreakpointStep} {exposeSingleStep : Bool}
    {info : StopInfo} {Q : Post WaitCall Exception Session StopInfo}
    (written : ∀ tid bp faults stopInfo, s.Reinserts pending tid → 0 < tid →
      s.dbg.breakpointsByAddress[pending.address]? = some bp → bp.installed = false →
      Q.returned info { s.poke tid pending.address int3 with
        faults
        dbg := { s.dbg.setInstalled pending.address true with
          pendingBreakpointStep := none, stopInfo } })
    (kept : ∀ stopInfo,
      (∀ bp, s.dbg.breakpointsByAddress[pending.address]? = some bp → bp.installed = true) ∨
      (∃ tid, s.Reinserts pending tid ∧ tid ≤ 0) ∨
      (s.dbg.process.taskState pending.tid ≠ some .stopped ∧
        s.dbg.process.state ≠ .stopped) →
      Q.returned info { s with dbg := { s.dbg with pendingBreakpointStep := none, stopInfo } })
    (raised : ∀ faults e, e.isPtraceError = true ∨ ¬s.dbg.process.Ready →
      Q.raised e { s with faults }) :
    wp (finishDisplacedStep pending exposeSingleStep info) Q s := by
  have settle : ∀ tid, s.Reinserts pending tid →
      wp (reinsertThrough pending.address (some tid) >>= fun _ => modifyDebugger fun d => { d with
          pendingBreakpointStep := none
          stopInfo := if exposeSingleStep ∧ info.reason = .singleStep then info
            else d.stopInfo })
        ⟨fun _ u => Q.returned info u, Q.raised, Q.blocked⟩ s := by
    intro tid htid
    rw [wp_bind, reinsertThrough, wp_when]
    split
    · rename_i hpos
      refine wp_reinsertBreakpoint (fun h => kept _ (.inl h)) (fun bp faults hbp hout => ?_)
        (fun faults e he => raised faults e (.inl he))
      exact written tid bp faults _ htid (by simpa using hpos) hbp hout
    · rename_i hneg
      exact kept _ (.inr (.inl ⟨tid, htid, by simpa using hneg⟩))
  simp only [finishDisplacedStep, reinsertTid, wp_bind, wp_view, wp_ite] at settle ⊢
  split
  · exact settle pending.tid (.inl ⟨‹_›, rfl⟩)
  · rename_i hown
    split
    · rename_i hstate
      refine wp_stoppedTid (fun _ _ htask => ?_) (fun what h => raised s.faults _ (.inr h))
      exact settle _ (.inr ⟨hstate, htask, rfl⟩)
    · exact kept _ (.inr (.inr ⟨hown, ‹_›⟩))

theorem wp_stepOverPendingBreakpoint {pending : PendingBreakpointStep} {exposeSingleStep : Bool}
    {Q : Post WaitCall Exception Session StopInfo}
    (raised : ∀ faults e, Q.raised e { s with faults })
    (waits : ∀ faults, wp (waitAndClassify tracees true)
      ⟨fun info t => if info.reason = .exec then Q.returned info t
        else wp (finishDisplacedStep pending exposeSingleStep info) Q t, Q.raised, Q.blocked⟩
      (s.resumed .step pending.tid 0 s.dbg.pendingSignals faults)) :
    wp (stepOverPendingBreakpoint tracees pending exposeSingleStep) Q s := by
  simp only [stepOverPendingBreakpoint, Lowlevel.singleStep, wp_bind]
  refine Lowlevel.wp_resume (fun faults => ?_) (fun faults e _ => raised faults e)
  refine wp_mono (waits faults) (fun info t h => ?_) (fun _ _ h => h) (fun _ _ h => h)
  simpa only [wp_ite, wp_pure] using h

/-- `continue_execution` and `single_step` either resume the selected task or first step over the
breakpoint it stopped at. -/
theorem wp_continueExecution {policy : SignalPolicy} {Q : Post WaitCall Exception Session StopInfo}
    (raised : ∀ e, Q.raised e s)
    (resumes : s.dbg.pendingBreakpointStep = none →
      wp (resumeAndWait tracees .cont policy) Q s)
    (stepsOver : ∀ pending, s.dbg.pendingBreakpointStep = some pending →
      pending.tid = s.dbg.process.currentTid → s.dbg.process.state = .stopped →
      s.dbg.process.taskState s.dbg.process.currentTid = some .stopped →
      wp (stepOverPendingBreakpoint tracees pending false)
        ⟨fun info t => if info.reason ≠ .singleStep then Q.returned info t
          else wp (resumeAndWait tracees .cont policy) Q t, Q.raised, Q.blocked⟩ s) :
    wp (continueExecution tracees policy) Q s := by
  simp only [continueExecution, wp_bind, wp_view, wp_ite, wp_raise]
  split
  · exact raised _
  rcases hpending : s.dbg.pendingBreakpointStep with _ | pending
  · exact resumes hpending
  simp only [checkPendingOwner, wp_bind]
  refine wp_stoppedTid (fun hstate _ htask => ?_) (fun what _ => raised _)
  simp only [wp_ite, wp_raise, wp_pure]
  split
  · exact raised _
  rename_i howner
  refine wp_mono (stepsOver pending hpending (not_not.mp howner) hstate htask) (fun info t h => ?_)
    (fun _ _ h => h) (fun _ _ h => h)
  simpa only [wp_ite] using h

theorem wp_singleStep {policy : SignalPolicy} {Q : Post WaitCall Exception Session StopInfo}
    (raised : ∀ e, Q.raised e s)
    (resumes : s.dbg.pendingBreakpointStep = none →
      wp (resumeAndWait tracees .step policy) Q s)
    (stepsOver : ∀ pending, s.dbg.pendingBreakpointStep = some pending →
      pending.tid = s.dbg.process.currentTid → s.dbg.process.state = .stopped →
      s.dbg.process.taskState s.dbg.process.currentTid = some .stopped →
      wp (stepOverPendingBreakpoint tracees pending true) Q s) :
    wp (singleStep tracees policy) Q s := by
  simp only [singleStep, wp_bind, wp_view, wp_ite, wp_raise]
  split
  · exact raised _
  rcases hpending : s.dbg.pendingBreakpointStep with _ | pending
  · exact resumes hpending
  simp only [checkPendingOwner, wp_bind]
  refine wp_stoppedTid (fun hstate _ htask => ?_) (fun what _ => raised _)
  simp only [wp_ite, wp_raise, wp_pure]
  split
  · exact raised _
  rename_i howner
  exact stepsOver pending hpending (not_not.mp howner) hstate htask

/-! ## Detaching -/

/-- The tracked tasks are tasks of the process. -/
def Session.TracksGroup (s : Session) : Prop :=
  ∀ tid ∈ s.dbg.process.taskStates, s.world.tasks[tid]? = some s.dbg.process.pid ∧ 0 < tid

/-- What releasing the tracees leaves alone. -/
structure Session.Detaching (s t : Session) : Prop where
  retained : t.dbg.retainedProcesses = s.dbg.retainedProcesses
  policy : t.dbg.forkFollowPolicy = s.dbg.forkFollowPolicy
  next : t.dbg.nextBreakpointId = s.dbg.nextBreakpointId
  sane : s.dbg.process.Sane → t.dbg.process.Sane
  group : s.TracksGroup → t.TracksGroup
  history : t.history = s.history
  starts : t.dbg.pendingThreadStarts = s.dbg.pendingThreadStarts
  snapshots : t.dbg.breakpointRegisterSnapshots = s.dbg.breakpointRegisterSnapshots

instance : Std.Refl Session.Detaching where
  refl _ := ⟨rfl, rfl, rfl, id, id, rfl, rfl, rfl⟩

instance : IsTrans Session Session.Detaching where
  trans _ _ _ h₁ h₂ := ⟨h₂.retained.trans h₁.retained, h₂.policy.trans h₁.policy,
    h₂.next.trans h₁.next, h₂.sane ∘ h₁.sane, h₂.group ∘ h₁.group, h₂.history.trans h₁.history,
    h₂.starts.trans h₁.starts, h₂.snapshots.trans h₁.snapshots⟩

theorem Session.Alike.detaching {s t : Session} (h : s.Alike t) : s.Detaching t := by
  obtain ⟨_, _, _, rfl⟩ := h
  exact ⟨rfl, rfl, rfl, id, id, rfl, rfl, rfl⟩

/-- The command leaves alone what releasing the tracees leaves alone. -/
abbrev Releases {α : Type} (x : Act α) : Prop :=
  Within Session.Detaching (fun _ => True) x

theorem releases_stoppedTid : Releases stoppedTid := by
  intro s
  exact wp_stoppedTid (fun _ _ _ => refl_of _ s) (fun _ _ => ⟨refl_of _ s, trivial⟩)

theorem releases_restoreBreakpoint (tid : Pid) (address : Addr) (bp : Breakpoint) :
    Releases (restoreBreakpoint tid address bp) := by
  intro s
  simp only [restoreBreakpoint, wp_ite, wp_bind, wp_pure]
  split
  · exact Lowlevel.wp_writeByte (fun faults _ => ⟨rfl, rfl, rfl, id, id, rfl, rfl, rfl⟩)
      (fun faults e _ => ⟨⟨rfl, rfl, rfl, id, id, rfl, rfl, rfl⟩, trivial⟩)
  · exact refl_of Session.Detaching s

theorem releases_forEach {β : Type} {f : β → Act Unit} (hf : ∀ b, Releases (f b)) :
    ∀ bs, Releases (forEach f bs)
  | [] => Within.pure ()
  | b :: bs => (hf b).bind fun _ => releases_forEach hf bs

theorem releases_restoreAllBreakpoints : Releases restoreAllBreakpoints :=
  releases_stoppedTid.bind fun _ => (Within.read _).bind fun _ =>
    (releases_forEach (fun _ => releases_restoreBreakpoint _ _ _) _).bind fun _ =>
      Within.update fun _ => ⟨rfl, rfl, rfl, id, id, rfl, rfl, rfl⟩

theorem releases_restoreWatchpointRegisters : Releases restoreWatchpointRegisters := by
  intro s
  exact wp_restoreWatchpointRegisters (fun t h => h.detaching)
    (fun t e h _ => ⟨h.detaching, trivial⟩) (fun _ e _ _ => ⟨refl_of _ s, trivial⟩)

theorem Session.TracksGroup.dropTask (h : s.TracksGroup) {tid : Pid} :
    (s.withProcess (s.dbg.process.dropTask tid)).TracksGroup :=
  fun other hother => h other (ExtTreeMap.mem_erase.mp hother).2

theorem releases_detachTask (tid : Pid) (signal : Nat) (first : Option Exception) :
    Releases (detachTask tid signal first) := by
  intro s
  simp only [detachTask, wp_handle, wp_bind]
  refine Lowlevel.wp_detach (fun faults => ?_) (fun faults e _ => ?_)
  · refine ⟨rfl, rfl, rfl, fun h => h.dropTask, fun h other hother => ?_, rfl, rfl, rfl⟩
    obtain ⟨hne, hold⟩ := ExtTreeMap.mem_erase.mp hother
    refine ⟨?_, (h other hold).2⟩
    exact ExtTreeMap.getElem?_erase.trans ((if_neg hne).trans (h other hold).1)
  · cases e with
    | ptraceError operation errno =>
      simp only [wp_ite, wp_bind, wp_pure]
      split
      · exact ⟨rfl, rfl, rfl, fun h => h.dropTask, fun h => h.dropTask, rfl, rfl, rfl⟩
      · exact ⟨rfl, rfl, rfl, id, id, rfl, rfl, rfl⟩
    | _ => exact ⟨rfl, rfl, rfl, id, id, rfl, rfl, rfl⟩

theorem releases_detachTasks (signalTid : Pid) (signal : Nat) :
    ∀ tids first, Releases (detachTasks signalTid signal tids first)
  | [], _ => Within.pure _
  | _ :: tids, _ => (releases_detachTask _ _ _).bind fun first =>
      releases_detachTasks signalTid signal tids first

/-- A released process is not live; one that could not be released has tasks left. -/
theorem wp_detachProcess {signal : Nat} {Q : Post WaitCall Exception Session Unit}
    (returned : ∀ t, s.Detaching t →
      (t.dbg.process.live → ∃ tid, tid ∈ t.dbg.process.taskStates) → Q.returned () t)
    (raised : ∀ t e, s.Detaching t → Q.raised e t) : wp (detachProcess signal) Q s := by
  simp only [detachProcess, wp_bind, wp_view, wp_ite, wp_raise]
  split
  · exact raised s _ (refl_of _ s)
  split
  · exact raised s _ (refl_of _ s)
  split
  · exact raised s _ (refl_of _ s)
  refine (releases_detachTasks _ _ _ _).wp (fun first t h => ?_) (fun e t h _ => raised t e h)
  have htasks : t.dbg.process.released.taskStates = t.dbg.process.taskStates := by
    unfold Process.released
    split <;> simp
  have hpid : ∀ tid ∈ t.dbg.process.taskStates,
      t.dbg.process.released.pid = t.dbg.process.pid := by
    intro tid htid
    simp [Process.released, ExtTreeMap.ne_empty_of_mem htid]
  have hlive : t.dbg.process.released.live → ∃ tid, tid ∈ t.dbg.process.released.taskStates := by
    intro hlive
    by_contra hnone
    have hempty : t.dbg.process.taskStates.isEmpty = true := by
      rw [ExtTreeMap.isEmpty_iff, ← htasks]
      exact ExtTreeMap.eq_empty_iff_forall_not_mem.mpr fun tid htid => hnone ⟨tid, htid⟩
    rw [Process.released, if_pos hempty] at hlive
    rcases hlive with hlive | hlive <;> cases hlive
  have h' : s.Detaching (t.withProcess t.dbg.process.released) := by
    refine ⟨h.retained, h.policy, h.next, fun hs tid state hstate => ?_, fun hg tid htid => ?_,
      h.history, h.starts, h.snapshots⟩
    · simp only [Session.withProcess, htasks] at hstate
      exact h.sane hs tid state hstate
    · have htid : tid ∈ t.dbg.process.taskStates := htasks ▸ htid
      obtain ⟨hgroup, hpos⟩ := h.group hg tid htid
      exact ⟨hgroup.trans (congrArg some (hpid tid htid).symm), hpos⟩
  rcases first with _ | e
  · exact returned _ h' hlive
  · exact raised _ e h'

theorem wp_detachOperation {policy : SignalPolicy} {Q : Post WaitCall Exception Session Unit}
    (returned : ∀ t, s.Detaching t → s.dbg.retainedProcesses.isEmpty = true →
      (t.dbg.process.live → ∃ tid, tid ∈ t.dbg.process.taskStates) →
      Q.returned () { t with dbg := t.dbg.discardImageState })
    (raised : ∀ t e, s.Detaching t → Q.raised e t) : wp (detach policy) Q s := by
  have unchanged : ∀ e, Q.raised e s := fun e => raised s e (refl_of _ s)
  simp only [detach, resumeSignal, wp_bind, wp_view, wp_ite, wp_raise, id]
  split
  · exact unchanged _
  rename_i hempty
  have hempty : s.dbg.retainedProcesses.isEmpty = true := by simpa using hempty
  split
  · exact unchanged _
  split
  · exact unchanged _
  refine releases_stoppedTid.wp (fun tid t₀ h₀ => ?_) (fun e t h _ => raised t e h)
  refine releases_restoreAllBreakpoints.wp (fun _ t₁ h₁ => ?_)
    (fun e t h _ => raised t e (trans_of _ h₀ h))
  have h₁ := trans_of _ h₀ h₁
  refine releases_restoreWatchpointRegisters.wp (fun _ t₂ h₂ => ?_)
    (fun e t h _ => raised t e (trans_of _ h₁ h))
  have h₂ := trans_of _ h₁ h₂
  exact wp_detachProcess (fun t h hlive => returned t (trans_of _ h₂ h) hempty hlive)
    (fun t e h => raised t e (trans_of _ h₂ h))

/-! ## Operations that do not resume -/

/-- Only resuming waits, and only resuming reports a stop. -/
theorem wp_run_of_not_resumes {op : Operation} (hop : op.resumes = false) :
    wp (op.run tracees) ⟨fun r t => t.history = s.history ∧ ∀ info, r ≠ .stop info,
      fun _ t => t.history = s.history, fun _ _ => False⟩ s := by
  cases op with
  | continueExecution policy => cases hop
  | singleStep policy => cases hop
  | addBreakpoint address =>
    simp only [Operation.run, wp_map]
    exact wp_addBreakpoint (fun _ _ _ _ _ _ _ _ => ⟨rfl, by rintro _ ⟨⟩⟩) (fun _ _ => rfl)
  | removeBreakpoint id =>
    simp only [Operation.run, wp_map]
    exact wp_removeBreakpoint (fun _ => ⟨rfl, by rintro _ ⟨⟩⟩)
      (fun _ _ _ _ _ _ _ _ => ⟨rfl, by rintro _ ⟨⟩⟩) (fun _ _ _ => ⟨rfl, by rintro _ ⟨⟩⟩)
      (fun _ _ => rfl)
  | addWriteWatchpoint address length =>
    simp only [Operation.run, wp_map]
    refine wp_addWriteWatchpoint ?_ ?_
    · rintro t snapshot ⟨_, _, _, rfl⟩ - -
      exact ⟨rfl, by rintro _ ⟨⟩⟩
    · rintro t e ⟨_, _, _, rfl⟩
      rfl
  | removeWatchpoint id =>
    simp only [Operation.run, wp_map]
    refine wp_removeWatchpoint ⟨rfl, by rintro _ ⟨⟩⟩ ?_ ?_
    · rintro t ⟨_, _, _, rfl⟩
      exact ⟨rfl, by rintro _ ⟨⟩⟩
    · rintro t e ⟨_, _, _, rfl⟩
      rfl
  | writeMemory address bytes =>
    simp only [Operation.run, wp_map]
    exact wp_writeMemory (fun _ _ _ _ _ _ _ => ⟨rfl, by rintro _ ⟨⟩⟩) (fun _ _ _ _ _ _ => rfl)
  | selectThread tid =>
    simp only [Operation.run, wp_map]
    exact wp_selectThread (fun _ => ⟨rfl, by rintro _ ⟨⟩⟩) (fun _ => rfl)
  | selectProcess pid =>
    simp only [Operation.run, wp_map]
    exact wp_selectProcess (fun _ => ⟨rfl, by rintro _ ⟨⟩⟩)
      (fun _ _ _ _ _ => ⟨rfl, by rintro _ ⟨⟩⟩) (fun _ _ _ _ => rfl) (fun _ => rfl)
  | setForkFollowPolicy policy =>
    simp only [Operation.run, wp_map]
    exact wp_setForkFollowPolicy (fun _ => ⟨rfl, by rintro _ ⟨⟩⟩) (fun _ => rfl)
  | detach policy =>
    simp only [Operation.run, wp_map]
    exact wp_detachOperation (fun t ht _ _ => ⟨ht.history, by rintro _ ⟨⟩⟩)
      (fun t e ht => ht.history)

end Rules

end MiniDebugger
