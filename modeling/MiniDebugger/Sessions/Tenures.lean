import MiniDebugger.Sessions.Ownership

/-!
# Breakpoints stay with their process

The ids of a process move with it between the tables of the debugger: from the active one to the
registry and back, when the user selects another process or the active one ends, and to the child
that is followed through a fork. Only an `exec` takes ids away while the debugger waits. `Told` says
so for every stop an operation can report.
-/

namespace MiniDebugger

open Command
open Std (ExtTreeMap)

/-- The process is under the control of the debugger. -/
def Debugger.Owns (d : Debugger) (pid : Pid) : Prop :=
  pid = d.process.pid ∨ pid ∈ d.retainedProcesses

/-- The breakpoints of a process, by id. -/
def Debugger.idsOf (d : Debugger) (pid : Pid) : ExtTreeMap Nat Addr :=
  if pid = d.process.pid then d.breakpointIds
  else ((d.retainedProcesses[pid]?).map (·.breakpointIds)).getD ∅

/-- The same ids in the same processes. -/
structure Debugger.SameIds (d d' : Debugger) : Prop where
  pid : d'.process.pid = d.process.pid
  ids : d'.breakpointIds = d.breakpointIds
  retained : d'.retainedProcesses = d.retainedProcesses
  next : d'.nextBreakpointId = d.nextBreakpointId

/-- What a stop may have changed: the processes there are, which of them is the active one, and the
ids of one whose image has been replaced. -/
inductive Debugger.Told (info : StopInfo) (d d' : Debugger) : Prop
  | same (h : d.SameIds d')
  | replaced (hreason : info.reason = .exec) (hpid : d'.process.pid = d.process.pid)
      (hretained : d'.retainedProcesses = d.retainedProcesses)
      (hnext : d'.nextBreakpointId = d.nextBreakpointId)
  | promoted (survivor : Pid) (domain : RetainedProcessDomain)
      (hreason : info.reason ≠ .breakpoint ∧ info.reason ≠ .singleStep)
      (hdomain : d.retainedProcesses[survivor]? = some domain)
      (hapart : survivor ≠ d.process.pid) (hpid : d'.process.pid = survivor)
      (hids : d'.breakpointIds = domain.breakpointIds)
      (hretained : d'.retainedProcesses = d.retainedProcesses.erase survivor)
      (hnext : d'.nextBreakpointId = d.nextBreakpointId)
  | forked (child : Pid) (domain : RetainedProcessDomain)
      (hreason : info.reason ≠ .breakpoint ∧ info.reason ≠ .singleStep)
      (hnew : ¬d.Owns child) (hpid : d'.process.pid = d.process.pid)
      (hids : d'.breakpointIds = d.breakpointIds)
      (hretained : d'.retainedProcesses = d.retainedProcesses.insert child domain)
      (hnext : d'.nextBreakpointId = d.nextBreakpointId)
  | followed (child : Pid) (hreason : info.reason ≠ .breakpoint ∧ info.reason ≠ .singleStep)
      (hnew : ¬d.Owns child) (hpid : d'.process.pid = child)
      (hids : d'.breakpointIds = d.breakpointIds)
      (hretained : d'.retainedProcesses = d.retainedProcesses)
      (hnext : d'.nextBreakpointId = d.nextBreakpointId)

namespace Debugger

variable {d d' d'' : Debugger} {info : StopInfo} {pid : Pid}

theorem SameIds.refl (d : Debugger) : d.SameIds d := ⟨rfl, rfl, rfl, rfl⟩

theorem SameIds.trans (h : d.SameIds d') (h' : d'.SameIds d'') : d.SameIds d'' :=
  ⟨h'.pid.trans h.pid, h'.ids.trans h.ids, h'.retained.trans h.retained, h'.next.trans h.next⟩

theorem SameIds.owns (h : d.SameIds d') : d'.Owns pid ↔ d.Owns pid := by
  rw [Owns, h.pid, h.retained, Owns]

theorem SameIds.idsOf (h : d.SameIds d') : d'.idsOf pid = d.idsOf pid := by
  rw [Debugger.idsOf, h.pid, h.ids, h.retained, Debugger.idsOf]

theorem idsOf_active (h : pid = d.process.pid) : d.idsOf pid = d.breakpointIds := if_pos h

theorem idsOf_retained {domain : RetainedProcessDomain} (h : pid ≠ d.process.pid)
    (hdomain : d.retainedProcesses[pid]? = some domain) : d.idsOf pid = domain.breakpointIds := by
  rw [idsOf, if_neg h, hdomain]
  rfl

/-- Changes before and after a stop that touch no ids. -/
theorem Told.around (h : d'.Told info d'') (hbefore : d.SameIds d') {e : Debugger}
    (hafter : d''.SameIds e) : d.Told info e := by
  have hnew : ∀ child, ¬d'.Owns child → ¬d.Owns child := fun child h => by
    rwa [hbefore.owns] at h
  cases h with
  | same h => exact .same ((hbefore.trans h).trans hafter)
  | replaced hreason hpid hretained hnext =>
    exact .replaced hreason (hafter.pid.trans (hpid.trans hbefore.pid))
      (hafter.retained.trans (hretained.trans hbefore.retained))
      (hafter.next.trans (hnext.trans hbefore.next))
  | promoted survivor domain hreason hdomain hapart hpid hids hretained hnext =>
    rw [hbefore.retained] at hdomain hretained
    rw [hbefore.pid] at hapart
    exact .promoted survivor domain hreason hdomain hapart (hafter.pid.trans hpid)
      (hafter.ids.trans hids) (hafter.retained.trans hretained)
      (hafter.next.trans (hnext.trans hbefore.next))
  | forked child domain hreason h hpid hids hretained hnext =>
    rw [hbefore.retained] at hretained
    exact .forked child domain hreason (hnew child h) (hafter.pid.trans (hpid.trans hbefore.pid))
      (hafter.ids.trans (hids.trans hbefore.ids)) (hafter.retained.trans hretained)
      (hafter.next.trans (hnext.trans hbefore.next))
  | followed child hreason h hpid hids hretained hnext =>
    exact .followed child hreason (hnew child h) (hafter.pid.trans hpid)
      (hafter.ids.trans (hids.trans hbefore.ids))
      (hafter.retained.trans (hretained.trans hbefore.retained))
      (hafter.next.trans (hnext.trans hbefore.next))

/-- Stops in the course of an operation leave everything where it is. -/
theorem Told.plain (h : d.Told info d')
    (hreason : info.reason = .breakpoint ∨ info.reason = .singleStep) : d.SameIds d' := by
  cases h with
  | same h => exact h
  | replaced hexec => exact absurd hreason (by simp [hexec])
  | promoted _ _ hnot => exact absurd hreason (not_or.mpr hnot)
  | forked _ _ hnot => exact absurd hreason (not_or.mpr hnot)
  | followed _ hnot => exact absurd hreason (not_or.mpr hnot)

theorem Told.next (h : d.Told info d') : d'.nextBreakpointId = d.nextBreakpointId := by
  cases h <;> first | assumption | exact SameIds.next ‹_›

theorem idsOf_congr (hactive : pid ≠ d.process.pid) (hactive' : pid ≠ d'.process.pid)
    (hretained : d'.retainedProcesses[pid]? = d.retainedProcesses[pid]?) :
    d'.idsOf pid = d.idsOf pid := by
  rw [idsOf, if_neg hactive', hretained, idsOf, if_neg hactive]

/-- A process that was and still is under control has the ids it had, unless it is the one whose
image has been replaced. -/
theorem Told.kept (h : d.Told info d') (hfree : d.process.pid ∉ d.retainedProcesses)
    (hold : d.Owns pid) (hnow : d'.Owns pid)
    (himage : info.reason = .exec → pid ≠ d'.process.pid) : d'.idsOf pid = d.idsOf pid := by
  cases h with
  | same h => exact h.idsOf
  | replaced hreason hpid hretained =>
    have hne := himage hreason
    exact idsOf_congr (hpid ▸ hne) hne (by rw [hretained])
  | promoted survivor domain _ hdomain hapart hpid hids hretained =>
    by_cases hself : pid = survivor
    · subst hself
      rw [idsOf_active hpid.symm, hids, idsOf_retained hapart hdomain]
    · have hin : pid ∈ d.retainedProcesses.erase survivor := by
        rw [← hretained]
        exact hnow.resolve_left fun h => hself (h.trans hpid)
      have hne : pid ≠ d.process.pid := fun h =>
        hfree (h ▸ (ExtTreeMap.mem_erase.mp hin).2)
      refine idsOf_congr hne (fun h => hself (h.trans hpid)) ?_
      rw [hretained, ExtTreeMap.getElem?_erase, if_neg (by simpa using Ne.symm hself)]
  | forked child domain _ hnew hpid hids hretained =>
    by_cases hactive : pid = d.process.pid
    · rw [idsOf_active hactive, idsOf_active (hactive.trans hpid.symm), hids]
    · refine idsOf_congr hactive (fun h => hactive (h.trans hpid)) ?_
      have hne : child ≠ pid := by
        rintro rfl
        exact hnew hold
      rw [hretained, ExtTreeMap.getElem?_insert, if_neg (by simpa using hne)]
  | followed child _ hnew hpid hids hretained =>
    have hne : pid ≠ d'.process.pid := by
      rintro rfl
      exact hnew (hpid ▸ hold)
    refine idsOf_congr (fun h => hfree (h ▸ ?_)) hne (by rw [hretained])
    rw [← hretained]
    exact hnow.resolve_left hne

end Debugger

/-! ## Stops -/

/-- A pass that may report a stop. -/
def passing (d : Debugger) : Post WaitCall Exception Session (Option StopInfo) where
  returned r t := r.elim (d.SameIds t.dbg) fun info => d.Told info t.dbg
  raised _ _ := True
  blocked _ _ := True

/-- A command that reports a stop. -/
def told (d : Debugger) : Post WaitCall Exception Session StopInfo where
  returned info t := d.Told info t.dbg
  raised _ _ := True
  blocked _ _ := True

section Stops

variable {b : Bool} {issued : List Nat} {pending : Option PendingBreakpointStep}
  {registry : ExtTreeMap Pid RetainedProcessDomain} {tracees : Tracees} {s : Session}
  {d : Debugger}

theorem told_of_same {t : Session} {info : StopInfo} (hpid : t.dbg.process.pid = d.process.pid)
    (hids : t.dbg.breakpointIds = d.breakpointIds)
    (hretained : t.dbg.retainedProcesses = d.retainedProcesses)
    (hnext : t.dbg.nextBreakpointId = d.nextBreakpointId) : d.Told info t.dbg :=
  .same ⟨hpid, hids, hretained, hnext⟩

/-- A stop of a command is one of the pass it belongs to. -/
theorem passing_some {x : Act StopInfo} (h : wp x (told d) s) :
    wp (some <$> x) (passing d) s := by
  rw [wp_map]
  exact h

theorem told_classifyEnded {event : WaitEvent} {processReason finalReason threadReason : StopReason}
    (hkeys : ∀ (q : Pid) (domain : RetainedProcessDomain),
      s.dbg.retainedProcesses[q]? = some domain → domain.process.pid = q)
    (hfree : s.dbg.process.pid ∉ s.dbg.retainedProcesses)
    (hreason : processReason ≠ .breakpoint ∧ processReason ≠ .singleStep) :
    wp (classifyEnded event processReason finalReason threadReason) (passing s.dbg) s := by
  refine wp_classifyEnded (fun _ _ _ _ _ _ => trivial) ?_ ?_ ?_ ?_
  · intro survivor domain _ hdomain _
    refine .promoted survivor domain hreason hdomain ?_ (hkeys survivor domain hdomain) rfl rfl rfl
    rintro rfl
    exact hfree (ExtTreeMap.mem_iff_isSome_getElem?.mpr (Option.isSome_of_eq_some hdomain))
  · exact fun _ _ => told_of_same rfl rfl rfl rfl
  · exact fun _ _ => ⟨rfl, rfl, rfl, rfl⟩
  · exact fun _ _ => told_of_same rfl rfl rfl rfl

theorem told_classifySignalStop {expectedSingleStep : Bool} {event : WaitEvent} :
    wp (classifySignalStop expectedSingleStep event) (told s.dbg) s := by
  refine wp_classifySignalStop ?_ ?_ ?_ ?_ ?_ fun _ _ _ _ => trivial
  · exact fun info _ _ _ _ => told_of_same rfl rfl rfl rfl
  · exact fun info _ _ _ _ _ => told_of_same rfl rfl rfl rfl
  · exact fun t info _ _ _ _ _ _ _ => told_of_same rfl rfl rfl rfl
  · exact fun t info _ _ _ _ _ _ _ => told_of_same rfl rfl rfl rfl
  · rintro t - - - ⟨_, _, _, rfl⟩
    refine wp_classifyTrap ?_ ?_ fun _ _ _ _ _ => trivial
    · exact fun bp faults info _ _ _ _ _ _ => told_of_same rfl rfl rfl rfl
    · exact fun faults info _ _ _ => told_of_same rfl rfl rfl rfl

theorem told_classifyFork {tid : Pid} (hnew : ¬s.dbg.Owns (s.world.message tid)) :
    wp (classifyFork tid) (told s.dbg) s := by
  have hreason : ∀ {kind tid parent child retains info},
      info = processEventInfo kind tid parent child retains info.sequence →
      info.reason ≠ .breakpoint ∧ info.reason ≠ .singleStep := by
    intro kind tid parent child retains info hinfo
    rw [hinfo]
    exact ⟨by rintro ⟨⟩, by rintro ⟨⟩⟩
  refine wp_classifyFork (fun _ _ => trivial) ?_ ?_ ?_ (fun _ _ _ _ _ => trivial)
    fun _ _ _ _ _ _ _ _ => trivial
  · rintro t child childStop inherited info rfl - - - - - - hinfo
    exact .forked _ _ (hreason hinfo) hnew rfl rfl rfl rfl
  · rintro child faults sequence debug memory requests info rfl - - - - hinfo
    exact .followed _ (hreason hinfo) hnew rfl rfl rfl rfl
  · exact fun child t info _ _ _ _ => told_of_same rfl rfl rfl rfl

theorem told_classifyVfork {tid : Pid} : wp (classifyVfork tracees tid) (told s.dbg) s := by
  refine wp_classifyVfork (fun _ _ _ => trivial) (fun _ _ => trivial) ?_
  rintro _ faults requests ⟨_, _, _, _, _, _, rfl, -, -⟩
  refine wp_awaitVforkDone (fun _ => trivial) (fun _ _ _ _ _ _ _ _ => trivial)
    (fun _ _ _ _ _ _ _ _ => trivial) ?_ trivial
  intro d rest signal faults _ _ _ _
  exact told_of_same (Process.taskStopped_pid.trans Process.markRunning_pid) rfl rfl rfl

theorem told_waitPass {expectedSingleStep : Bool} (h : s.Waitable b issued pending registry) :
    wp (waitPass tracees expectedSingleStep) (passing s.dbg) s := by
  have from_filed : ∀ {x : Act (Option StopInfo)} {u : Session}, s.dbg.SameIds u.dbg →
      wp x (passing u.dbg) u → wp x (passing s.dbg) u := by
    intro x u hu hx
    refine wp_mono hx (fun r t ht => ?_) (fun _ _ _ => trivial) fun _ _ _ => trivial
    cases r with
    | none => exact hu.trans ht
    | some info => exact Debugger.Told.around ht hu (.refl _)
  simp only [waitPass, wp_bind]
  refine wp_waitActiveProcess (fun e => trivial) ?_
  refine wp_waitFor (fun _ => trivial) (fun _ _ _ _ _ => trivial) ?_ ?_ ?_
    (fun _ _ _ _ _ _ _ _ _ => trivial) trivial
  · intro d rest event p hd _ _ hkind _ hended
    refine from_filed ⟨hended.pid, rfl, rfl, rfl⟩ ?_
    have hkeys : ∀ (q : Pid) (domain : RetainedProcessDomain),
        s.dbg.retainedProcesses[q]? = some domain → domain.process.pid = q :=
      fun q domain hdomain => (h.good.tables.kept q domain hdomain).key
    have hfree : p.pid ∉ s.dbg.retainedProcesses := hended.pid ▸ h.good.tables.free
    cases hk : event.kind with
    | stopped => exact absurd hk hkind
    | exited =>
      simp only [classifyEvent, hk]
      exact told_classifyEnded hkeys hfree (by decide)
    | signaled =>
      simp only [classifyEvent, hk]
      exact told_classifyEnded hkeys hfree (by decide)
  · intro d rest signal event hd howns hst hne
    refine from_filed ⟨Process.taskStopped_pid, rfl, rfl, rfl⟩ ?_
    have hp : s.world.possible d = true := hd.possible
    cases event with
    | clone => exact absurd rfl hne
    | exec =>
      refine passing_some (wp_classifyExec (World.pos_of_possible hp) ?_ ?_ (fun _ _ _ _ => trivial)
        fun _ _ _ => trivial)
      · exact (World.deliver_message hst).trans_le (World.exec_leader hp hst).2
      · intro faults info sequence path hreason _
        have hgroup : s.world.groupOf d = d.tid := by
          rw [World.groupOf, (World.exec_leader hp hst).1]
          rfl
        refine .replaced hreason ?_ rfl rfl
        exact hgroup.symm.trans ((groupOf_of_owned h.good.tables hp hst howns).trans
          Process.taskStopped_pid.symm)
    | fork =>
      refine passing_some (told_classifyFork ?_)
      obtain ⟨hactive, -, hkeys⟩ := h.not_child hd hst (.inl rfl)
      have hmessage : (s.world.deliver d).message d.tid = d.message := World.deliver_message hst
      simp only [World.child, ← hmessage] at hactive hkeys
      rintro (hself | hin)
      · exact hactive (hself.trans Process.taskStopped_pid)
      · exact hkeys _ hin rfl
    | vfork => exact passing_some told_classifyVfork
    | vforkDone => trivial
    | none => exact passing_some told_classifySignalStop
    | other => exact passing_some told_classifySignalStop
  · intro d rest signal faults hd _ hst _ _
    refine from_filed ⟨?_, rfl, rfl, rfl⟩ ?_
    · exact Process.track_pid.trans Process.taskStopped_pid
    simp only [classifyEvent, wp_bind]
    exact wp_classifyClone rfl (fun _ => ⟨rfl, rfl, rfl, rfl⟩) fun _ _ => trivial

theorem told_waitAndClassify (htame : Tame b tracees) {expectedSingleStep : Bool}
    (hidle : expectedSingleStep = false → pending = none)
    (h : s.Waitable b issued pending registry) :
    wp (waitAndClassify tracees expectedSingleStep) (told s.dbg) s := by
  refine wp_waitAndClassify
    (I := fun u => u.Waitable b issued pending registry ∧ s.dbg.SameIds u.dbg)
    (fun u hu => ?_) (fun _ _ => trivial) ⟨h, .refl _⟩
  refine wp_mono (wp_and (reported_waitPass htame hidle hu.1) (told_waitPass hu.1))
    (fun r t ht => ?_) (fun _ _ _ => trivial) fun _ _ _ => trivial
  cases r with
  | none => exact ⟨ht.1, hu.2.trans ht.2⟩
  | some info => exact Debugger.Told.around ht.2 hu.2 (.refl _)

theorem told_resumeAndWait (htame : Tame b tracees) (h : s.core.Good b issued)
    (hidle : s.dbg.pendingBreakpointStep = none) {kind : ResumeKind} {policy : SignalPolicy} :
    wp (resumeAndWait tracees kind policy) (told s.dbg) s := by
  refine wp_resumeAndWait (fun _ _ => trivial) fun faults signal hstate _ htask => ?_
  have hwait := h.resumed hstate htask kind signal
    (s.dbg.pendingSignals.erase s.dbg.process.currentTid) faults
  rw [hidle] at hwait
  refine wp_mono (told_waitAndClassify htame (fun _ => rfl) hwait) (fun info t ht => ?_)
    (fun _ _ _ => trivial) fun _ _ _ => trivial
  exact ht.around ⟨Process.markRunning_pid, rfl, rfl, rfl⟩ (.refl _)

theorem told_stepOver (htame : Tame b tracees) (h : s.core.Good b issued)
    {step : PendingBreakpointStep} {exposeSingleStep : Bool}
    (hstep : s.dbg.pendingBreakpointStep = some step)
    (howner : step.tid = s.dbg.process.currentTid) (hstate : s.dbg.process.state = .stopped)
    (htask : s.dbg.process.taskState s.dbg.process.currentTid = some .stopped) :
    wp (stepOverPendingBreakpoint tracees step exposeSingleStep) (told s.dbg) s := by
  refine wp_stepOverPendingBreakpoint (fun _ _ => trivial) fun faults => ?_
  rw [howner]
  have hwait := h.resumed hstate htask .step 0 s.dbg.pendingSignals faults
  rw [hstep] at hwait
  refine wp_mono (told_waitAndClassify htame (by rintro ⟨⟩) hwait) (fun info t ht => ?_)
    (fun _ _ _ => trivial) fun _ _ _ => trivial
  have hbefore : s.dbg.SameIds (s.resumed .step s.dbg.process.currentTid 0 s.dbg.pendingSignals
      faults).dbg := ⟨Process.markRunning_pid, rfl, rfl, rfl⟩
  dsimp only
  split
  · exact ht.around hbefore (.refl _)
  · refine wp_finishDisplacedStep ?_ ?_ fun _ _ _ => trivial
    · exact fun _ _ _ _ _ _ _ _ => ht.around hbefore ⟨rfl, rfl, rfl, rfl⟩
    · exact fun _ _ => ht.around hbefore ⟨rfl, rfl, rfl, rfl⟩

theorem told_continueExecution (htame : Tame b tracees) (h : s.core.Good b issued)
    {policy : SignalPolicy} : wp (continueExecution tracees policy) (told s.dbg) s := by
  refine wp_continueExecution (fun _ => trivial) (fun hidle => told_resumeAndWait htame h hidle) ?_
  intro step hstep howner hstate htask
  refine wp_mono (wp_and (reported_stepOver htame h hstep howner hstate htask)
    (told_stepOver htame h hstep howner hstate htask)) (fun info t ht => ?_) (fun _ _ _ => trivial)
    fun _ _ _ => trivial
  obtain ⟨⟨hreported, hsettled⟩, ht⟩ := ht
  dsimp only
  split
  · exact ht
  · rename_i hstepped
    have hstepped : info.reason = .singleStep := not_not.mp hstepped
    refine wp_mono (told_resumeAndWait htame hreported.good (hsettled hstepped))
      (fun info' u hu => ?_) (fun _ _ _ => trivial) fun _ _ _ => trivial
    exact hu.around (ht.plain (.inr hstepped)) (.refl _)

theorem told_singleStep (htame : Tame b tracees) (h : s.core.Good b issued)
    {policy : SignalPolicy} : wp (singleStep tracees policy) (told s.dbg) s :=
  wp_singleStep (fun _ => trivial) (fun hidle => told_resumeAndWait htame h hidle)
    fun _ hstep howner hstate htask => told_stepOver htame h hstep howner hstate htask

end Stops

end MiniDebugger
