import MiniDebugger.Debugger.ExecutionRules
import MiniDebugger.Debugger.Runs

/-!
# Announced threads

A clone event announces a thread, and the classifier takes the next stop of an announced thread for
its start. `awaitsStart` says which threads these are by the reports alone: the clone event of the
thread has been reported, and no stop since. A thread that stops before its clone event is reported
gets ahead of its announcement, and then it is a later stop that is taken for its start.
-/

namespace MiniDebugger

open Command
open Std (ExtTreeMap ExtTreeSet)

/-- A stop without an event of `ptrace`, or with one that the debugger does not know. -/
def WaitStatus.isPlain : WaitStatus → Bool
  | .stopped _ .none | .stopped _ .other => true
  | _ => false

/-- The clone event of `tid`. -/
def Delivery.announces (d : Delivery) (tid : Pid) : Bool :=
  d.status.isClone && World.child d == tid

/-- A plain stop of a thread of the active process, which is the only one. -/
def Delivery.settles (dbg : Debugger) (world : World) (d : Delivery) : Bool :=
  d.status.isPlain && world.groupOf d == dbg.process.pid && dbg.retainedProcesses.isEmpty

/-- The clone event of `tid` has been reported to the classifier, and no plain stop since. -/
def awaitsStart (tid : Pid) : List WaitRecord → Bool
  | .takes dbg world d :: .waits (.active _) _ :: older =>
    d.announces tid || awaitsStart tid older && !(d.tid == tid && d.settles dbg world)
  | _ :: older => awaitsStart tid older
  | [] => false

@[simp] theorem awaitsStart_waits (tid : Pid) (call : WaitCall) (dbg : Debugger)
    (older : List WaitRecord) :
    awaitsStart tid (.waits call dbg :: older) = awaitsStart tid older := rfl

/-- The thread is in the `pending_thread_starts` of some process. -/
def Session.Awaits (s : Session) (tid : Pid) : Prop :=
  tid ∈ s.dbg.pendingThreadStarts ∨
    ∃ (pid : Pid) (domain : RetainedProcessDomain), s.dbg.retainedProcesses[pid]? = some domain ∧
      tid ∈ domain.pendingThreadStarts

/-- The threads the debugger expects to start are among those that the reports announce. -/
def Session.Announced (s : Session) : Prop :=
  ∀ tid, s.Awaits tid → awaitsStart tid s.history = true

section Steps

variable {tracees : Tracees} {s t : Session} {tid : Pid} {d : Delivery} {rest : List Wakeup}

theorem Session.Awaits.of_eq (h : t.Awaits tid)
    (hstarts : t.dbg.pendingThreadStarts = s.dbg.pendingThreadStarts)
    (hretained : t.dbg.retainedProcesses = s.dbg.retainedProcesses) : s.Awaits tid := by
  unfold Session.Awaits at h ⊢
  rwa [hstarts, hretained] at h

theorem Session.Announced.mono (h : s.Announced) (hawaits : ∀ tid, t.Awaits tid → s.Awaits tid)
    (hhistory : t.history = s.history) : t.Announced := by
  intro tid htid
  rw [hhistory]
  exact h tid (hawaits tid htid)

theorem Session.Announced.of_eq (h : s.Announced)
    (hstarts : t.dbg.pendingThreadStarts = s.dbg.pendingThreadStarts)
    (hretained : t.dbg.retainedProcesses = s.dbg.retainedProcesses)
    (hhistory : t.history = s.history) : t.Announced :=
  h.mono (fun _ htid => htid.of_eq hstarts hretained) hhistory

/-- Some threads of the active process are no longer expected. -/
theorem Session.Announced.fewer (h : s.Announced)
    (hstarts : ∀ tid ∈ t.dbg.pendingThreadStarts, tid ∈ s.dbg.pendingThreadStarts)
    (hretained : t.dbg.retainedProcesses = s.dbg.retainedProcesses)
    (hhistory : t.history = s.history) : t.Announced := by
  refine h.mono (fun tid htid => ?_) hhistory
  obtain hactive | ⟨pid, domain, hdomain, hin⟩ := htid
  · exact .inl (hstarts tid hactive)
  · exact .inr ⟨pid, domain, hretained ▸ hdomain, hin⟩

/-- A retained domain takes the place of the active process. -/
theorem Session.Announced.activate (h : s.Announced) {pid : Pid} {domain : RetainedProcessDomain}
    (hdomain : s.dbg.retainedProcesses[pid]? = some domain)
    (hstarts : t.dbg.pendingThreadStarts = domain.pendingThreadStarts)
    (hretained : t.dbg.retainedProcesses = s.dbg.retainedProcesses.erase pid)
    (hhistory : t.history = s.history) : t.Announced := by
  refine h.mono (fun tid htid => ?_) hhistory
  obtain hactive | ⟨key, other, hother, hin⟩ := htid
  · exact .inr ⟨pid, domain, hdomain, hstarts ▸ hactive⟩
  · rw [hretained, ExtTreeMap.getElem?_erase] at hother
    split at hother
    · cases hother
    · exact .inr ⟨key, other, hother, hin⟩

/-- Two processes change places. -/
theorem Session.Announced.swapped (h : s.Announced) {pid : Pid} {domain : RetainedProcessDomain}
    (hdomain : s.dbg.retainedProcesses[pid]? = some domain) {info : StopInfo} {sequence : Nat} :
    { s with sequence, dbg := { s.dbg.swapped pid domain with stopInfo := info } }.Announced := by
  refine h.mono (fun tid htid => ?_) rfl
  obtain hactive | ⟨key, other, hother, hin⟩ := htid
  · exact .inr ⟨pid, domain, hdomain, hactive⟩
  · simp only [Debugger.swapped, ExtTreeMap.getElem?_insert, ExtTreeMap.getElem?_erase] at hother
    split at hother
    · cases hother
      exact .inl hin
    · split at hother
      · cases hother
      · exact .inr ⟨key, other, hother, hin⟩

theorem Session.Announced.alike (h : s.Announced) (ht : s.Alike t) : t.Announced := by
  obtain ⟨_, _, _, rfl⟩ := ht
  exact h.of_eq rfl rfl rfl

/-! ## Reports -/

theorem Session.Announced.waiting (h : s.Announced) (call : WaitCall) :
    (s.waiting call).Announced := h

/-- What has been reported to the wait for `PTRACE_EVENT_VFORK_DONE` does not count. -/
theorem Session.Announced.vforkDone (h : s.Announced) :
    ((s.waiting .vforkDone).deliver d rest).Announced := h

/-- A report to the classifier that is not a plain stop settles nothing. -/
theorem Session.Announced.deliver (h : s.Announced) (requested : Pid)
    (hsettles : d.settles s.dbg s.world = false) :
    ((s.waiting (.active requested)).deliver d rest).Announced := by
  intro tid htid
  have hold : awaitsStart tid s.history = true := h tid htid
  simp [Session.deliver, Session.waiting, awaitsStart, hold, hsettles]

/-- A plain stop settles its own thread. -/
theorem Session.Announced.settled (h : s.Announced) (requested : Pid) {u : Session}
    (hother : ∀ tid ∈ u.dbg.pendingThreadStarts, tid ∈ s.dbg.pendingThreadStarts ∧ tid ≠ d.tid)
    (hretained : u.dbg.retainedProcesses = s.dbg.retainedProcesses)
    (hhistory : u.history = ((s.waiting (.active requested)).deliver d rest).history) :
    u.Announced := by
  intro tid htid
  have hold : awaitsStart tid s.history = true := by
    refine h tid ?_
    obtain hactive | ⟨pid, domain, hdomain, hin⟩ := htid
    · exact .inl (hother tid hactive).1
    · exact .inr ⟨pid, domain, hretained ▸ hdomain, hin⟩
  have hnot : (d.tid == tid && d.settles s.dbg s.world) = false := by
    obtain hactive | ⟨pid, domain, hdomain, -⟩ := htid
    · have hne : d.tid ≠ tid := fun heq => (hother tid hactive).2 heq.symm
      simp [hne]
    · -- a retained process is there, so the stop settles no thread
      rw [hretained] at hdomain
      have hsome : s.dbg.retainedProcesses.isEmpty = false :=
        Bool.eq_false_iff.mpr fun hempty => by
          simp [ExtTreeMap.isEmpty_iff.mp hempty] at hdomain
      simp [Delivery.settles, hsome]
  rw [hhistory]
  simp [Session.deliver, Session.waiting, awaitsStart, hold, hnot]

theorem not_settles_of_not_plain (h : d.status.isPlain = false) :
    d.settles s.dbg s.world = false := by simp [Delivery.settles, h]

/-- A stop of a task that is neither tracked nor in the process settles nothing. -/
theorem not_settles_of_foreign (hp : s.world.possible d = true)
    (hforeign : d.status.isStopped = true →
      ¬(s.world.deliver d).tasks[d.tid]? = some s.dbg.process.pid) :
    d.settles s.dbg s.world = false := by
  rcases hst : d.status with code | signal | ⟨signal, event⟩
  · exact not_settles_of_not_plain (by rw [hst]; rfl)
  · exact not_settles_of_not_plain (by rw [hst]; rfl)
  · have hself := World.deliver_tasks_self hp hst
    have hgroup : s.world.groupOf d ≠ s.dbg.process.pid := fun heq =>
      hforeign (by rw [hst]; rfl) (hself.trans (congrArg some heq))
    simp [Delivery.settles, hgroup]

/-! ## Events -/

theorem announced_classifyEnded {event : WaitEvent}
    {processReason finalReason threadReason : StopReason} :
    Preserves Session.Announced (classifyEnded event processReason finalReason threadReason) := by
  intro s h
  have hforgotten : { s with dbg := s.dbg.forgetTask event.tid }.Announced :=
    h.fewer (fun tid htid => (ExtTreeSet.mem_erase.mp htid).2) rfl rfl
  refine wp_classifyEnded ?_ ?_ ?_ ?_ ?_
  · exact fun survivor domain e _ hdomain _ => h.activate hdomain rfl rfl rfl
  · exact fun survivor domain _ hdomain _ => h.activate hdomain rfl rfl rfl
  · exact fun _ _ => hforgotten.of_eq rfl rfl rfl
  · exact fun _ _ => hforgotten
  · exact fun _ _ => hforgotten.of_eq rfl rfl rfl

theorem announced_classifyFork : Preserves Session.Announced (classifyFork tid) := by
  intro s h
  refine wp_classifyFork ?_ ?_ ?_ ?_ ?_ ?_
  · exact fun faults e => h.of_eq rfl rfl rfl
  · rintro t child childStop inherited info - - - ⟨_, _, _, rfl⟩ - - - -
    refine h.mono (fun tid htid => ?_) rfl
    obtain hactive | ⟨key, domain, hdomain, hin⟩ := htid
    · exact .inl hactive
    · rw [ExtTreeMap.getElem?_insert] at hdomain
      split at hdomain
      · -- a child starts with no expected threads
        cases hdomain
        simp [Debugger.childDomain] at hin
      · exact .inr ⟨key, domain, hdomain, hin⟩
  · intro child faults sequence debug memory requests info _ _ _ _ _ _
    exact h.fewer (by simp [Debugger.handedOver]) rfl rfl
  · rintro child t info - - ⟨_, _, _, _, _, _, rfl, -, -⟩ -
    exact h.of_eq rfl rfl rfl
  · rintro child t e - ⟨_, _, _, _, _, _, rfl, -, -⟩
    exact h.of_eq rfl rfl rfl
  · rintro child t e - - - ⟨_, _, _, _, _, _, rfl, -, -⟩ -
    exact h.of_eq rfl rfl rfl

theorem announced_classifyVfork : Preserves Session.Announced (classifyVfork tracees tid) := by
  intro s h
  refine wp_classifyVfork ?_ (fun _ _ => trivial) ?_
  · rintro _ e ⟨_, _, _, _, _, _, rfl, -, -⟩
    exact h.of_eq rfl rfl rfl
  · rintro _ faults requests ⟨_, _, _, _, _, _, rfl, -, -⟩
    generalize hu : Session.mk _ _ _ _ _ _ = u
    have hannounced : u.Announced := by
      subst hu
      exact h.of_eq rfl rfl rfl
    refine wp_awaitVforkDone ?_ ?_ ?_ ?_ trivial
    · exact fun rest => (hannounced.waiting .vforkDone).of_eq rfl rfl rfl
    · rintro d rest t e - - ⟨p, -, hdbg⟩ hhistory
      exact (Session.Announced.vforkDone hannounced).of_eq (by rw [hdbg]; rfl)
        (by rw [hdbg]; rfl) hhistory
    · exact fun d rest signal faults e _ _ _ => hannounced.vforkDone.of_eq rfl rfl rfl
    · exact fun d rest signal faults _ _ _ _ => hannounced.vforkDone.of_eq rfl rfl rfl

/-- Whatever a plain stop is taken for, its thread has not to start any more. -/
theorem announced_classifySignalStop {expectedSingleStep : Bool} {requested : Pid} {p : Process}
    {signal : Nat} {event : PtraceEvent} (h : s.Announced) :
    wp (classifySignalStop expectedSingleStep
        { kind := .stopped, value := signal, tid := d.tid, ptraceEvent := event })
      ⟨fun _ => Session.Announced, fun _ => Session.Announced, fun _ _ => True⟩
      (((s.waiting (.active requested)).deliver d rest).withProcess p) := by
  by_cases hstart : d.tid ∈ s.dbg.pendingThreadStarts
  · simp only [classifySignalStop, wp_bind, wp_view, wp_ite]
    split
    · refine @Session.Announced.settled _ d rest h requested _ (fun tid htid => ?_) rfl rfl
      have htid := ExtTreeSet.mem_erase.mp htid
      exact ⟨htid.2, fun heq => htid.1 (by simp [heq])⟩
    · next hnot => exact absurd (ExtTreeSet.contains_iff_mem.mpr hstart) hnot
  have started : ∀ u : Session, u.dbg.pendingThreadStarts = s.dbg.pendingThreadStarts →
      u.dbg.retainedProcesses = s.dbg.retainedProcesses →
      u.history = ((s.waiting (.active requested)).deliver d rest).history → u.Announced := by
    intro u hstarts hretained hhistory
    refine h.settled requested (fun tid htid => ?_) hretained hhistory
    rw [hstarts] at htid
    exact ⟨htid, fun heq => hstart (heq ▸ htid)⟩
  refine wp_classifySignalStop ?_ ?_ ?_ ?_ ?_ ?_
  · exact fun info hin => absurd hin hstart
  · exact fun info _ _ _ _ _ => started _ rfl rfl rfl
  · rintro t info - - - - ⟨_, _, _, rfl⟩ - -
    exact started _ rfl rfl rfl
  · rintro t info - - - - ⟨_, _, _, rfl⟩ - -
    exact started _ rfl rfl rfl
  · rintro t - - - ⟨_, _, _, rfl⟩
    refine wp_classifyTrap ?_ ?_ ?_
    · exact fun bp faults info _ _ _ _ _ _ => started _ rfl rfl rfl
    · exact fun faults info _ _ _ => started _ rfl rfl rfl
    · exact fun faults regs snapshots e _ => started _ rfl rfl rfl
  · rintro t e ⟨_, _, _, rfl⟩ -
    exact started _ rfl rfl rfl

theorem announced_waitPass {expectedSingleStep : Bool} :
    Preserves Session.Announced (waitPass tracees expectedSingleStep) := by
  intro s h
  simp only [waitPass, wp_bind]
  refine wp_waitActiveProcess (fun e => h) ?_
  refine wp_waitFor ?_ ?_ ?_ ?_ ?_ ?_ trivial
  · exact fun rest => (h.waiting (.active s.dbg.waitTarget)).of_eq rfl rfl rfl
  · intro d rest hd _ hforeign
    exact h.deliver _
      (not_settles_of_foreign hd.possible fun hst howns => hforeign hst (.inr howns))
  · intro d rest event p _ _ hend hkind _ _
    have hplain : d.status.isPlain = false := by
      rcases hst : d.status with code | signal | ⟨signal, event⟩
      · rfl
      · rfl
      · simp [hst, WaitStatus.isStopped] at hend
    have hafter : (((s.waiting (.active s.dbg.waitTarget)).deliver d rest).withProcess
        p).Announced := h.deliver _ (not_settles_of_not_plain hplain)
    rcases hk : event.kind with _ | _ | _
    · exact absurd hk hkind
    · simp only [classifyEvent, hk]
      exact announced_classifyEnded _ hafter
    · simp only [classifyEvent, hk]
      exact announced_classifyEnded _ hafter
  · intro d rest signal event hd _ hst hne
    have event_ne : event ≠ .none → event ≠ .other →
        ((s.waiting (.active s.dbg.waitTarget)).deliver d rest).Announced := by
      intro hnone hother
      refine h.deliver _ (not_settles_of_not_plain ?_)
      rw [hst]
      cases event <;> first | rfl | contradiction
    cases event with
    | clone => exact absurd rfl hne
    | exec =>
      have hafter := event_ne (by decide) (by decide)
      simp only [classifyEvent, wp_map]
      refine wp_classifyExec (World.pos_of_possible hd.possible) ?_ ?_ ?_ ?_
      · exact (World.deliver_message hst).trans_le (World.exec_leader hd.possible hst).2
      · exact fun faults info sequence path _ _ =>
          hafter.fewer (by simp [Debugger.discardImageState]) rfl rfl
      · exact fun _ faults e _ => hafter.of_eq rfl rfl rfl
      · exact fun faults e _ => hafter.fewer (by simp [Debugger.discardImageState]) rfl rfl
    | fork =>
      simp only [classifyEvent, wp_map]
      exact announced_classifyFork _ (event_ne (by decide) (by decide))
    | vfork =>
      simp only [classifyEvent, wp_map]
      exact announced_classifyVfork _ (event_ne (by decide) (by decide))
    | vforkDone => exact event_ne (by decide) (by decide)
    | none =>
      simp only [classifyEvent, wp_map]
      exact announced_classifySignalStop h
    | other =>
      simp only [classifyEvent, wp_map]
      exact announced_classifySignalStop h
  · intro d rest signal faults hd _ hst _ _
    have hafter : ((s.waiting (.active s.dbg.waitTarget)).deliver d rest).Announced :=
      h.deliver _ (not_settles_of_not_plain (by rw [hst]; rfl))
    simp only [classifyEvent, wp_bind]
    refine wp_classifyClone rfl (fun _ => ?_) (fun e _ => hafter.of_eq rfl rfl rfl)
    -- the thread that is expected from now on is the one the newest report announces
    rintro tid (hactive | hretained)
    · obtain hnew | hold := ExtTreeSet.mem_insert.mp hactive
      · have hmessage : World.child d = tid := by
          rw [World.deliver_message hst] at hnew
          simpa [World.child] using hnew
        have hannounces : d.announces tid = true := by
          simp [Delivery.announces, hst, WaitStatus.isClone, hmessage]
        simp [Session.deliver, Session.waiting, Session.withProcess, awaitsStart, hannounces]
      · exact hafter tid (.inl hold)
    · exact hafter tid (.inr hretained)
  · intro d rest signal faults e _ _ hst _
    have hafter : ((s.waiting (.active s.dbg.waitTarget)).deliver d rest).Announced :=
      h.deliver _ (not_settles_of_not_plain (by rw [hst]; rfl))
    exact hafter.of_eq rfl rfl rfl

theorem announced_waitAndClassify {expectedSingleStep : Bool} :
    Preserves Session.Announced (waitAndClassify tracees expectedSingleStep) := by
  intro s h
  refine wp_waitAndClassify (I := Session.Announced) (fun u hu => ?_) (fun _ _ => trivial) h
  exact wp_mono (announced_waitPass u hu) (fun r t ht => by cases r <;> exact ht)
    (fun _ _ ht => ht) (fun _ _ ht => ht)

/-! ## Operations -/

theorem announced_resumeAndWait {kind : ResumeKind} {policy : SignalPolicy} :
    Preserves Session.Announced (resumeAndWait tracees kind policy) := fun _ h =>
  wp_resumeAndWait (fun _ _ => h.of_eq rfl rfl rfl) fun _ _ _ _ _ =>
    announced_waitAndClassify _ (h.of_eq rfl rfl rfl)

theorem announced_stepOver {pending : PendingBreakpointStep} {exposeSingleStep : Bool} :
    Preserves Session.Announced
      (stepOverPendingBreakpoint tracees pending exposeSingleStep) := by
  intro s h
  refine wp_stepOverPendingBreakpoint (fun _ _ => h.of_eq rfl rfl rfl) fun faults => ?_
  have hresumed : (s.resumed .step pending.tid 0 s.dbg.pendingSignals faults).Announced :=
    h.of_eq rfl rfl rfl
  refine wp_mono (announced_waitAndClassify _ hresumed) (fun info t ht => ?_) (fun _ _ ht => ht)
    (fun _ _ ht => ht)
  dsimp only
  split
  · exact ht
  · exact wp_finishDisplacedStep (fun _ _ _ _ _ _ _ _ => ht.of_eq rfl rfl rfl)
      (fun _ _ => ht.of_eq rfl rfl rfl) (fun _ _ _ => ht.of_eq rfl rfl rfl)

theorem announced_continueExecution {policy : SignalPolicy} :
    Preserves Session.Announced (continueExecution tracees policy) := by
  intro s h
  refine wp_continueExecution (fun _ => h) (fun _ => announced_resumeAndWait s h) ?_
  intro pending _ _ _ _
  refine wp_mono (announced_stepOver s h) (fun info t ht => ?_) (fun _ _ ht => ht)
    (fun _ _ ht => ht)
  dsimp only
  split
  · exact ht
  · exact announced_resumeAndWait t ht

theorem announced_singleStep {policy : SignalPolicy} :
    Preserves Session.Announced (singleStep tracees policy) := fun s h =>
  wp_singleStep (fun _ => h) (fun _ => announced_resumeAndWait s h) fun _ _ _ _ _ =>
    announced_stepOver s h

theorem announced_run (op : Operation) : Preserves Session.Announced (op.run tracees) := by
  intro s h
  cases op with
  | addBreakpoint address =>
    simp only [Operation.run, wp_map]
    exact wp_addBreakpoint (fun _ _ _ _ _ _ _ _ => h.of_eq rfl rfl rfl)
      (fun _ _ => h.of_eq rfl rfl rfl)
  | removeBreakpoint id =>
    have cleared : ∀ address world faults, { s with
        world, faults
        dbg := (s.dbg.clearPendingStep address).eraseBreakpoint id address }.Announced := by
      intro address world faults
      have hsame : ((s.dbg.clearPendingStep address).eraseBreakpoint id
            address).pendingThreadStarts = s.dbg.pendingThreadStarts ∧
          ((s.dbg.clearPendingStep address).eraseBreakpoint id
            address).retainedProcesses = s.dbg.retainedProcesses := by
        unfold Debugger.clearPendingStep
        split <;> exact ⟨rfl, rfl⟩
      exact h.of_eq hsame.1 hsame.2 rfl
    simp only [Operation.run, wp_map]
    exact wp_removeBreakpoint (fun _ => h)
      (fun address bp faults _ _ _ _ _ => cleared address _ faults)
      (fun address _ _ => cleared address _ _) (fun _ _ => h.of_eq rfl rfl rfl)
  | addWriteWatchpoint address length =>
    simp only [Operation.run, wp_map]
    refine wp_addWriteWatchpoint ?_ (fun _ _ ht => h.alike ht)
    rintro t snapshot ⟨_, _, _, rfl⟩ - -
    exact h.of_eq rfl rfl rfl
  | removeWatchpoint id =>
    simp only [Operation.run, wp_map]
    refine wp_removeWatchpoint h ?_ (fun _ _ ht => h.alike ht)
    rintro t ⟨_, _, _, rfl⟩
    exact h.of_eq rfl rfl rfl
  | writeMemory address bytes =>
    simp only [Operation.run, wp_map]
    exact wp_writeMemory (fun _ _ _ _ _ _ _ => h.of_eq rfl rfl rfl)
      (fun _ _ _ _ _ _ => h.of_eq rfl rfl rfl)
  | continueExecution policy =>
    simp only [Operation.run, wp_map]
    exact announced_continueExecution s h
  | singleStep policy =>
    simp only [Operation.run, wp_map]
    exact announced_singleStep s h
  | selectThread tid =>
    simp only [Operation.run, wp_map]
    exact wp_selectThread (fun _ => h.of_eq rfl rfl rfl) (fun _ => h)
  | selectProcess pid =>
    simp only [Operation.run, wp_map]
    exact wp_selectProcess (fun _ => h) (fun domain hdomain _ _ _ => h.swapped hdomain)
      (fun domain e hdomain _ => h.activate hdomain rfl rfl rfl) (fun _ => h)
  | setForkFollowPolicy policy =>
    simp only [Operation.run, wp_map]
    exact wp_setForkFollowPolicy (fun _ => h.of_eq rfl rfl rfl) (fun _ => h)
  | detach policy =>
    simp only [Operation.run, wp_map]
    have released : ∀ t, s.Detaching t → t.Announced := fun t ht =>
      h.of_eq ht.starts ht.retained ht.history
    exact wp_detachOperation
      (fun t ht _ _ => (released t ht).fewer (by simp [Debugger.discardImageState]) rfl rfl)
      fun t _ => released t

theorem Started.announced (h : Started s) : s.Announced := by
  have hstart : s.dbg.pendingThreadStarts = ∅ ∧ s.dbg.retainedProcesses = ∅ := by
    cases h with
    | launch pid path _ _ hdbg => exact ⟨by rw [hdbg]; rfl, by rw [hdbg]; rfl⟩
    | attach pid tids path _ _ _ hdbg => exact ⟨by rw [hdbg]; rfl, by rw [hdbg]; rfl⟩
  rintro tid (hactive | ⟨pid, domain, hdomain, -⟩)
  · simp [hstart.1] at hactive
  · simp [hstart.2] at hdomain

/-- In every run the debugger expects no thread to start that the reports do not announce. -/
theorem Run.announced {allowed : Operation → Reply → Prop} {log : List Result}
    (h : Run tracees allowed log s) : s.Announced :=
  h.invariant (I := fun _ => Session.Announced) (fun _ hs => hs.announced)
    fun _ _ op _ _ hs => wp_mono (announced_run op _ (hs.of_eq rfl rfl rfl))
      (fun _ _ ht _ => ht) (fun _ _ ht _ => ht) fun _ _ _ => trivial

end Steps

end MiniDebugger
