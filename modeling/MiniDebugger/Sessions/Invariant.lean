import MiniDebugger.Sessions.Stops

/-!
# The tables over whole runs

What one pass of the classifier preserves, every operation preserves, and so does every run.
-/

namespace MiniDebugger

open Command
open Function (update update_self update_of_ne)
open Std (ExtTreeMap)
open Overlay

section Passes

variable {b : Bool} {issued : List Nat} {pending : Option PendingBreakpointStep}
  {registry : ExtTreeMap Pid RetainedProcessDomain} {tracees : Tracees} {s t : Session}
  {call : WaitCall} {requested : Pid} {d : Delivery} {rest : List Wakeup}

theorem Session.Waitable.halted (htame : Tame b tracees) (h : s.Waitable b issued pending registry)
    (hd : Delivered tracees requested (s.waiting call) d rest) {signal : Nat}
    {event : PtraceEvent} (hst : d.status = .stopped signal event) (hexec : event ≠ .exec)
    (hgroup : s.world.groupOf d = s.dbg.process.pid) :
    (((s.waiting call).deliver d rest).withProcess
      ((s.dbg.process.reportedBy d.tid).taskStopped d.tid)).core.Halted b issued pending registry
      d.tid := by
  have hnot : d.status.isExec = false := by
    rw [hst]
    cases event <;> first | rfl | exact absurd rfl hexec
  refine ⟨⟨h.tables_stopped hd hst hgroup, fun hb => ?_⟩, rfl, ExtTreeMap.getElem?_insert_self,
    h.displaced, h.held⟩
  exact h.bytes_filed htame hd hb (fun _ => hnot) (fun _ => hgroup) Process.taskStopped_pid

/-- A clone event leaves the debugger ready to wait on. -/
theorem Core.Halted.tracks (h : s.core.Halted b issued pending registry d.tid) {tid : Pid}
    (hgroup : s.world.tasks[tid]? = some s.dbg.process.pid) (hpos : 0 < tid) :
    Core.Good b issued { s.core with
      active := { s.core.active with process := s.dbg.process.track tid } } := by
  refine ⟨h.good.tables.advance Process.track_pid (fun _ => .inl h.stopped) (fun _ => ?_)
    (h.good.tables.linked.track hgroup hpos) ?_ (fun _ _ _ htid => htid), fun hb => ?_⟩
  · exact .inl (Process.track_state.trans h.stopped)
  · exact fun owner howner => Process.mem_track.mpr (.inr (h.good.tables.owned owner howner))
  · refine ⟨?_, (h.good.bytes hb).kept⟩
    have := (h.good.bytes hb).active
    rw [show s.core.active.process.pid = (s.dbg.process.track tid).pid from
      Process.track_pid.symm] at this
    exact this

/-- After a resume the debugger can wait. -/
theorem Core.Good.resumed (h : s.core.Good b issued) (hstate : s.dbg.process.state = .stopped)
    (htask : s.dbg.process.taskState s.dbg.process.currentTid = some .stopped) (kind : ResumeKind)
    (signal : Nat) (signals : ExtTreeMap Pid Nat) (faults : List (Option Nat)) :
    (s.resumed kind s.dbg.process.currentTid signal signals faults).Waitable b issued
      s.dbg.pendingBreakpointStep s.dbg.retainedProcesses := by
  have hlive : (s.dbg.process.markRunning s.dbg.process.currentTid).live :=
    Process.live_markRunning (.inl hstate)
  have hmem : s.dbg.process.currentTid ∈ s.dbg.process.taskStates :=
    ExtTreeMap.mem_iff_isSome_getElem?.mpr (Option.isSome_of_eq_some htask)
  have hlinked : (s.dbg.process.markRunning s.dbg.process.currentTid).Linked s.world.tasks := by
    refine ⟨fun tid htid => ?_, fun tid htid => ?_, fun _ => ⟨_, Process.mem_markRunning.mpr hmem⟩⟩
    · rw [Process.markRunning_pid]
      exact h.tables.linked.group tid (Process.mem_markRunning.mp htid)
    · exact h.tables.linked.positive tid (Process.mem_markRunning.mp htid)
  refine ⟨⟨h.tables.advance Process.markRunning_pid (fun _ => .inl hstate) (fun _ => hlive) hlinked
    (fun tid howner => Process.mem_markRunning.mpr (h.tables.owned tid howner))
    (fun _ _ _ htid => htid), fun hb => ⟨?_, (h.bytes hb).kept⟩⟩, hlive, ?_, rfl, rfl⟩
  · have := (h.bytes hb).active
    rw [show s.core.active.process.pid =
      (s.dbg.process.markRunning s.dbg.process.currentTid).pid from
      Process.markRunning_pid.symm] at this
    exact this
  · show (s.dbg.process.markRunning s.dbg.process.currentTid).currentTid ∈
      (s.dbg.process.markRunning s.dbg.process.currentTid).taskStates
    rw [Process.markRunning_currentTid]
    exact Process.mem_markRunning.mpr hmem

/-- The end of a `vfork` is reported like any stop of the parent. -/
theorem reported_classifyVfork {tid : Pid} (htame : Tame b tracees)
    (h : s.core.Halted b issued pending registry tid)
    (hcurrent : s.dbg.process.currentTid = tid)
    (hchild : s.world.tasks[(s.world.message tid : Int)]? = some (s.world.message tid : Int))
    (hne : (s.world.message tid : Int) ≠ s.dbg.process.pid)
    (hout : ∀ q ∈ s.dbg.retainedProcesses, (s.world.message tid : Int) ≠ q) :
    wp (classifyVfork tracees tid) (classified b issued pending registry) s := by
  have ran : ∀ t, s.ChildRan (s.world.message tid) t → t.core.Good b issued := by
    rintro _ ⟨faults, sequence, debug, tasks, requests, mode, rfl, htasks, -⟩
    have hafter : s.Aftermath (s.world.message tid) (s.world.message tid) { s with
        faults, sequence, world := { s.world with debug, tasks, requests } } :=
      ⟨faults, sequence, debug, tasks, requests, _, rfl, htasks, fun _ _ => rfl⟩
    exact hafter.good h.good hchild hne hout fun hb => ⟨hb, rfl⟩
  refine wp_classifyVfork (fun t e ht => (ran t ht).raised e) (fun t _ => trivial) ?_
  rintro t faults requests ht
  generalize hu : Session.mk _ _ _ _ _ _ = u
  have hu : u.Waitable b issued pending registry := by
    have hgood := ran t ht
    obtain ⟨_, sequence, debug, tasks, requests', mode, rfl, htasks, -⟩ := ht
    have := hgood.resumed h.stopped (hcurrent ▸ h.tracked) .cont 0 s.dbg.pendingSignals faults
    rw [← hu, ← hcurrent]
    exact ⟨this.good, this.live, this.current, h.displaced, h.held⟩
  have filed : ∀ d rest signal, Delivered tracees (-1) (u.waiting .vforkDone) d rest →
      ((u.waiting .vforkDone).deliver d rest).owns d.tid →
      d.status = .stopped signal .vforkDone →
      (((u.waiting .vforkDone).deliver d rest).withProcess
        ((u.dbg.process.reportedBy d.tid).taskStopped d.tid)).core.Halted b issued pending registry
        d.tid := by
    intro d rest signal hd howns hst
    have hgroup := groupOf_of_owned hu.good.tables hd.possible hst howns
    exact hu.halted htame hd hst (by decide) hgroup
  refine wp_awaitVforkDone ?_ ?_ ?_ ?_ trivial
  · intro rest
    exact hu.good.raised _
  · intro d rest t e hd hbad _ _
    have hcalm := htame.calm _ d hd.produced rfl
    rcases hbad with hbad | hbad
    · cases hbad.symm.trans hcalm.1
    · exact absurd hcalm.2 hbad
  · intro d rest signal faults e hd howns hst
    exact (filed d rest signal hd howns hst).good.raised e
  · intro d rest signal faults hd howns _ hst
    exact (filed d rest signal hd howns hst).reported (by rfl) rfl

section Events

variable {signal : Nat}

/-- `exec` is reported with the breakpoints of the new image. -/
theorem reported_execStop (htame : Tame b tracees) (h : s.Waitable b issued pending registry)
    (hd : Delivered tracees requested (s.waiting call) d rest)
    (hst : d.status = .stopped signal .exec)
    (hgroup : s.world.groupOf d = s.dbg.process.pid) :
    wp (classifyExec d.tid) (classified b issued pending registry)
      (((s.waiting call).deliver d rest).withProcess
        ((s.dbg.process.reportedBy d.tid).taskStopped d.tid)) := by
  have hp : s.world.possible d = true := hd.possible
  refine wp_classifyExec (World.pos_of_possible hp) ?_ ?_ ?_ ?_
  · exact (World.deliver_message hst).trans_le (World.exec_leader hp hst).2
  · intro faults info sequence path hreason _
    refine ⟨h.good_exec hd hst hgroup, ?_, ?_, fun hr => ?_, fun hr => ?_, fun hr => ?_⟩
    · exact fun hr => by cases hr
    · exact fun p q _ hp => by cases hp
    · cases hreason.symm.trans hr
    · rcases hr with hr | hr <;> cases hreason.symm.trans hr
    · rcases hr with hr | hr <;> cases hreason.symm.trans hr
  · intro hfails faults e he
    refine ⟨h.tables_stopped hd hst hgroup, fun hb => ?_⟩
    have hread := (htame.heard (Bool.and_eq_true_iff.mp hb).1 _ d hd.produced).exec signal hst
    cases hread.symm.trans hfails
  · intro faults e _
    exact (h.good_exec hd hst hgroup).raised e

theorem reported_forkStop (htame : Tame b tracees) (h : s.Waitable b issued pending registry)
    (hd : Delivered tracees requested (s.waiting call) d rest)
    (hst : d.status = .stopped signal .fork)
    (hgroup : s.world.groupOf d = s.dbg.process.pid) :
    wp (classifyFork d.tid) (classified b issued pending registry)
      (((s.waiting call).deliver d rest).withProcess
        ((s.dbg.process.reportedBy d.tid).taskStopped d.tid)) := by
  have hmessage : (s.world.deliver d).message d.tid = d.message := World.deliver_message hst
  obtain ⟨hne, hout, hkeys⟩ := h.not_child hd hst (.inl rfl)
  have hchild := World.deliver_tasks_child (w := s.world) hst (.inl rfl)
  have harmed := fun hb => h.armed_child htame hd hb hst hgroup
  simp only [World.child, ← hmessage] at hne hkeys hchild harmed
  refine reported_classifyFork (h.halted htame hd hst (by decide) hgroup) hchild ?_ hkeys harmed
    fun hb => ?_
  · exact fun heq => hne (heq.trans Process.taskStopped_pid)
  · exact (htame.heard hb _ d hd.produced).fork signal hst

theorem reported_vforkStop (htame : Tame b tracees) (h : s.Waitable b issued pending registry)
    (hd : Delivered tracees requested (s.waiting call) d rest)
    (hst : d.status = .stopped signal .vfork)
    (hgroup : s.world.groupOf d = s.dbg.process.pid) :
    wp (classifyVfork tracees d.tid) (classified b issued pending registry)
      (((s.waiting call).deliver d rest).withProcess
        ((s.dbg.process.reportedBy d.tid).taskStopped d.tid)) := by
  have hmessage : (s.world.deliver d).message d.tid = d.message := World.deliver_message hst
  obtain ⟨hne, hout, hkeys⟩ := h.not_child hd hst (.inr rfl)
  have hchild := World.deliver_tasks_child (w := s.world) hst (.inr rfl)
  simp only [World.child, ← hmessage] at hne hkeys hchild
  refine reported_classifyVfork htame (h.halted htame hd hst (by decide) hgroup) rfl hchild ?_ hkeys
  exact fun heq => hne (heq.trans Process.taskStopped_pid)

/-- Once the new thread is tracked, the debugger waits on. -/
theorem waitable_cloneStop (htame : Tame b tracees) (h : s.Waitable b issued pending registry)
    (hd : Delivered tracees requested (s.waiting call) d rest)
    (hst : d.status = .stopped signal .clone)
    (hgroup : s.world.groupOf d = s.dbg.process.pid)
    (h0 : (s.world.deliver d).message d.tid ≠ 0) (faults : List (Option Nat)) :
    ({ ((s.waiting call).deliver d rest).withProcess
        (((s.dbg.process.reportedBy d.tid).taskStopped d.tid).track
          ((s.world.deliver d).message d.tid)) with faults } : Session).Waitable
      b issued pending registry := by
  have hhalted := h.halted htame hd hst (by decide) hgroup
  have hmessage : (s.world.deliver d).message d.tid = d.message := World.deliver_message hst
  have hchild := World.deliver_tasks_cloned hd.possible hst
  simp only [World.child, ← hmessage] at hchild
  have hgood := hhalted.tracks
    (hchild.trans (congrArg some (hgroup.trans Process.taskStopped_pid.symm)))
    (Int.natCast_pos.mpr (Nat.pos_of_ne_zero h0))
  refine ⟨hgood, .inl Process.track_state, ?_, h.displaced, h.held⟩
  show (((s.dbg.process.reportedBy d.tid).taskStopped d.tid).track
      ((s.world.deliver d).message d.tid)).currentTid ∈
    (((s.dbg.process.reportedBy d.tid).taskStopped d.tid).track
      ((s.world.deliver d).message d.tid)).taskStates
  rw [Process.track_currentTid]
  exact Process.mem_track.mpr (.inr hhalted.mem)

end Events

theorem reported_waitPass (htame : Tame b tracees) {expectedSingleStep : Bool}
    (hidle : expectedSingleStep = false → pending = none)
    (h : s.Waitable b issued pending registry) :
    wp (waitPass tracees expectedSingleStep)
      ⟨fun r t => match r with
        | some info => t.Reported b issued pending registry info
        | none => t.Waitable b issued pending registry,
        (classified b issued pending registry).raised, fun _ _ => True⟩ s := by
  simp only [waitPass, wp_bind]
  refine wp_waitActiveProcess (fun e => h.good.raised e) ?_
  refine wp_waitFor ?_ ?_ ?_ ?_ ?_ ?_ trivial
  · intro rest
    exact h.good.raised _
  · intro d rest hd hout hforeign
    exact (h.good_untracked htame hd hout hforeign).raised _
  · intro d rest event p hd hin hend hkind htid hended
    rcases hk : event.kind with _ | _ | _
    · exact absurd hk hkind
    · simp only [classifyEvent, hk]
      exact reported_classifyEnded htame h hd hin hend hended htid (by decide) (by decide)
        (by decide)
    · simp only [classifyEvent, hk]
      exact reported_classifyEnded htame h hd hin hend hended htid (by decide) (by decide)
        (by decide)
  · intro d rest signal event hd howns hst hne
    have hgroup := groupOf_of_owned h.good.tables hd.possible hst howns
    have hhalted := fun hexec => h.halted htame hd hst hexec hgroup
    cases event with
    | clone => exact absurd rfl hne
    | exec =>
      simp only [classifyEvent, wp_map]
      exact reported_execStop htame h hd hst hgroup
    | fork =>
      simp only [classifyEvent, wp_map]
      exact reported_forkStop htame h hd hst hgroup
    | vfork =>
      simp only [classifyEvent, wp_map]
      exact reported_vforkStop htame h hd hst hgroup
    | vforkDone => exact (hhalted (by decide)).good.raised _
    | none =>
      simp only [classifyEvent, wp_map]
      exact reported_classifySignalStop (hhalted (by decide)) hidle
    | other =>
      simp only [classifyEvent, wp_map]
      exact reported_classifySignalStop (hhalted (by decide)) hidle
  · intro d rest signal faults hd howns hst h0 hmax
    have hgroup := groupOf_of_owned h.good.tables hd.possible hst howns
    have hwaitable := waitable_cloneStop htame h hd hst hgroup h0 faults
    simp only [classifyEvent, wp_bind]
    exact wp_classifyClone rfl (fun _ => ⟨hwaitable.good, hwaitable.live, hwaitable.current,
      hwaitable.displaced, hwaitable.held⟩) (fun e _ => hwaitable.good.raised e)
  · intro d rest signal faults e hd howns hst _
    have hgroup := groupOf_of_owned h.good.tables hd.possible hst howns
    exact (h.halted htame hd hst (by decide) hgroup).good.raised e

theorem reported_waitAndClassify (htame : Tame b tracees) {expectedSingleStep : Bool}
    (hidle : expectedSingleStep = false → pending = none)
    (h : s.Waitable b issued pending registry) :
    wp (waitAndClassify tracees expectedSingleStep) (classified b issued pending registry) s := by
  refine wp_waitAndClassify (I := Session.Waitable b issued pending registry) (fun u hu => ?_)
    (fun _ _ => trivial) h
  exact wp_mono (reported_waitPass htame hidle hu) (fun r t ht => by cases r <;> exact ht)
    (fun _ _ ht => ht) (fun _ _ _ => trivial)

/-! ## Resuming -/

theorem reported_resumeAndWait (htame : Tame b tracees) (h : s.core.Good b issued)
    (hidle : s.dbg.pendingBreakpointStep = none) (kind : ResumeKind) (policy : SignalPolicy) :
    wp (resumeAndWait tracees kind policy) (classified b issued none s.dbg.retainedProcesses)
      s := by
  refine wp_resumeAndWait (fun faults e => h.raised e) fun faults signal hstate _ htask => ?_
  have := h.resumed hstate htask kind signal
    (s.dbg.pendingSignals.erase s.dbg.process.currentTid) faults
  rw [hidle] at this
  exact reported_waitAndClassify htame (fun _ => rfl) this

/-! ## Stepping over a breakpoint -/

theorem Session.Reported.forget {info : StopInfo} (h : t.Reported b issued pending registry info) :
    t.Reported b issued none registry info :=
  { h with settled := by rintro p q ⟨⟩ }

/-- Putting the displaced breakpoint back settles the step over it. -/
theorem reported_finishDisplacedStep {step : PendingBreakpointStep} {exposeSingleStep : Bool}
    {info : StopInfo} (h : s.Reported b issued (some step) registry info) :
    wp (finishDisplacedStep step exposeSingleStep info)
      ⟨fun r t => r = info ∧ t.Reported b issued none registry info ∧
        t.dbg.pendingBreakpointStep = none, (classified b issued none registry).raised,
        fun _ _ => True⟩ s := by
  have hmine : ∀ p, s.dbg.pendingBreakpointStep = some p → p = step := fun p hp =>
    h.settled p step rfl hp
  refine wp_finishDisplacedStep ?_ ?_ fun faults e _ => h.good.raised e
  · intro tid bp faults stopInfo hthrough _ hbp hout
    have hmem : tid ∈ s.dbg.process.taskStates := by
      rw [ExtTreeMap.mem_iff_isSome_getElem?]
      rcases hthrough with ⟨htask, rfl⟩ | ⟨-, htask, rfl⟩ <;> exact Option.isSome_of_eq_some htask
    have hspace := Session.space_of_tracked h.good.tables hmem
    refine ⟨rfl, ⟨⟨h.good.tables.retable le_rfl ?_ ?_, fun hb => ?_⟩, h.halted, by rintro p q ⟨⟩,
      h.stepped, fun hr => ?_, h.last⟩, rfl⟩
    · refine h.good.tables.sound.setInstalled fun hlive a bp' hbp' hlifted => ?_
      by_cases ha : a = step.address
      · rw [if_pos ha] at hlifted
        cases hlifted
      · rw [if_neg ha] at hlifted
        obtain ⟨p, hp, hpa⟩ := h.good.tables.sound.displaced hlive a bp' hbp' hlifted
        exact absurd (hpa.symm.trans (congrArg _ (hmine p hp))) ha
    · intro i a hi
      exact .inl (ExtTreeMap.mem_iff_isSome_getElem?.mpr (Option.isSome_of_eq_some hi))
    · unfold Session.poke
      rw [hspace]
      exact (h.good.bytes hb).repatch h.good.tables.free (patches_setInstalled hbp)
        (by rintro p ⟨⟩; rfl)
    · -- the breakpoints of a survivor are all in place
      obtain ⟨survivor, domain, -, hrest, hparked, -⟩ := h.promoted hr
      have htable : s.dbg.breakpointsByAddress = domain.breakpointsByAddress :=
        congrArg RetainedProcessDomain.breakpointsByAddress hparked
      rw [htable] at hbp
      cases hout.symm.trans (hrest.installed _ bp hbp)
  · intro stopInfo hkept
    refine ⟨rfl, ⟨⟨h.good.tables.retable le_rfl ⟨h.good.tables.sound.forward,
      h.good.tables.sound.backward, h.good.tables.sound.below, h.good.tables.sound.bounded, ?_⟩ ?_,
      fun hb => ⟨(h.good.bytes hb).active, (h.good.bytes hb).kept⟩⟩, h.halted, by rintro p q ⟨⟩,
      h.stepped, fun hr => ?_, h.last⟩, rfl⟩
    · intro hlive a bp hbp hlifted
      obtain ⟨p, hp, hpa⟩ := h.good.tables.sound.displaced hlive a bp hbp hlifted
      rw [hmine p hp] at hpa
      subst hpa
      rcases hkept with hin | ⟨tid, hthrough, hneg⟩ | ⟨-, hstate⟩
      · cases (hin bp hbp).symm.trans hlifted
      · have hmem : tid ∈ s.dbg.process.taskStates := by
          rw [ExtTreeMap.mem_iff_isSome_getElem?]
          rcases hthrough with ⟨htask, rfl⟩ | ⟨-, htask, rfl⟩ <;>
            exact Option.isSome_of_eq_some htask
        exact absurd (h.good.tables.linked.positive tid hmem) (not_lt.mpr hneg)
      · exact absurd hlive (not_or.mpr ⟨hstate, h.halted⟩)
    · intro i a hi
      exact .inl (ExtTreeMap.mem_iff_isSome_getElem?.mpr (Option.isSome_of_eq_some hi))
    · obtain ⟨survivor, domain, hdomain, hrest, hparked, herase⟩ := h.promoted hr
      refine ⟨survivor, domain, hdomain, hrest, ?_, herase⟩
      have hsettled : domain.pendingBreakpointStep = none := hrest.settled
      calc (Debugger.parked { s.dbg with pendingBreakpointStep := none, stopInfo })
          = { s.dbg.parked with pendingBreakpointStep := none, stopInfo } := rfl
        _ = { domain with pendingBreakpointStep := none, stopInfo } := by rw [hparked]
        _ = { domain with stopInfo } := by rw [← hsettled]

theorem reported_stepOver (htame : Tame b tracees) (h : s.core.Good b issued)
    {step : PendingBreakpointStep} {exposeSingleStep : Bool}
    (hstep : s.dbg.pendingBreakpointStep = some step)
    (howner : step.tid = s.dbg.process.currentTid) (hstate : s.dbg.process.state = .stopped)
    (htask : s.dbg.process.taskState s.dbg.process.currentTid = some .stopped) :
    wp (stepOverPendingBreakpoint tracees step exposeSingleStep)
      ⟨fun info t => t.Reported b issued none s.dbg.retainedProcesses info ∧
        (info.reason = .singleStep → t.dbg.pendingBreakpointStep = none),
        (classified b issued none s.dbg.retainedProcesses).raised, fun _ _ => True⟩ s := by
  refine wp_stepOverPendingBreakpoint (fun faults e => h.raised e) fun faults => ?_
  rw [howner]
  have hwait := h.resumed hstate htask .step 0 s.dbg.pendingSignals faults
  rw [hstep] at hwait
  refine wp_mono (reported_waitAndClassify htame (by rintro ⟨⟩) hwait) (fun info t ht => ?_)
    (fun _ _ ht => ht) (fun _ _ _ => trivial)
  dsimp only
  split
  · rename_i hexec
    refine ⟨ht.forget, fun hr => ?_⟩
    cases hexec.symm.trans hr
  · refine wp_mono (reported_finishDisplacedStep ht) ?_ (fun _ _ ht => ht) (fun _ _ _ => trivial)
    rintro _ u ⟨rfl, hu, hnone⟩
    exact ⟨hu, fun _ => hnone⟩

theorem reported_continueExecution (htame : Tame b tracees) (h : s.core.Good b issued)
    {policy : SignalPolicy} :
    wp (continueExecution tracees policy) (classified b issued none s.dbg.retainedProcesses) s := by
  refine wp_continueExecution (fun e => h.raised e)
    (fun hidle => reported_resumeAndWait htame h hidle _ policy) fun step hstep howner hstate htask => ?_
  refine wp_mono (reported_stepOver htame h hstep howner hstate htask) ?_ (fun _ _ ht => ht)
    (fun _ _ _ => trivial)
  rintro info t ⟨ht, hsettled⟩
  dsimp only
  split
  · exact ht
  · rename_i hstepped
    have hstepped : info.reason = .singleStep := not_not.mp hstepped
    have := reported_resumeAndWait htame ht.good (hsettled hstepped) .cont policy
    rwa [ht.stepped hstepped] at this

theorem reported_singleStep (htame : Tame b tracees) (h : s.core.Good b issued)
    {policy : SignalPolicy} :
    wp (singleStep tracees policy) (classified b issued none s.dbg.retainedProcesses) s := by
  refine wp_singleStep (fun e => h.raised e)
    (fun hidle => reported_resumeAndWait htame h hidle _ policy) fun step hstep howner hstate htask => ?_
  exact wp_mono (reported_stepOver htame h hstep howner hstate htask) (fun _ _ ht => ht.1)
    (fun _ _ ht => ht) (fun _ _ _ => trivial)

end Passes

end MiniDebugger
