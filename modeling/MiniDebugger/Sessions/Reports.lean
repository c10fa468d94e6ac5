import MiniDebugger.Sessions.Registry

/-!
# What a report leaves in order

Between two waits the tracee runs on its own. These are the facts about a report that the
classifier relies on: whose task it is for, that it leaves the other processes alone, and that the
bytes under the breakpoints are still there, provided the tracee does not write to them itself.
-/

namespace MiniDebugger

open Function (update update_self update_of_ne)
open Std (ExtTreeMap)
open Overlay

/-- The requests that must not fail once a report is in: the event message of an `exec`, and while
breakpoints are in place all that it takes to hand over to a child. -/
structure Session.Heard (s : Session) (d : Delivery) : Prop where
  exec : ∀ signal, d.status = .stopped signal .exec → s.nextFails = false
  fork : ∀ signal, d.status = .stopped signal .fork → s.dbg.forkFollowPolicy = .child →
    s.dbg.Armed → s.forkServed = true

/-- Tracees that finish a `vfork` before anything else is reported and, if `b`, never change a byte
under a breakpoint of the debugger other than by replacing their image and are heard. -/
structure Tame (b : Bool) (tracees : Tracees) : Prop where
  calm : ∀ s d, tracees s d = true → s.awaitsVforkDone = true →
    d.status.isVforkDone = true ∧ d.tid ∈ s.dbg.process.taskStates
  quiet : b = true → ∀ s d, tracees s d = true → d.status.isExec = false →
    s.world.groupOf d = s.dbg.process.pid → ∀ a ∈ s.dbg.breakpointsByAddress,
    s.world.memoryAfter d a = s.world.memory s.dbg.process.pid a
  heard : b = true → ∀ s d, tracees s d = true → s.Heard d

/-- The debugger is about to wait: the tables are in order, a task of the live active process is
selected, and the displaced step under way and the registry are those the operation began with. -/
structure Session.Waitable (b : Bool) (issued : List Nat) (pending : Option PendingBreakpointStep)
    (registry : ExtTreeMap Pid RetainedProcessDomain) (s : Session) : Prop where
  good : s.core.Good b issued
  live : s.dbg.process.live
  current : s.dbg.process.currentTid ∈ s.dbg.process.taskStates
  displaced : s.dbg.pendingBreakpointStep = pending
  held : s.dbg.retainedProcesses = registry

section Reports

variable {b : Bool} {issued : List Nat} {pending : Option PendingBreakpointStep}
  {registry : ExtTreeMap Pid RetainedProcessDomain} {tracees : Tracees} {s : Session}
  {call : WaitCall} {requested : Pid} {d : Delivery} {rest : List Wakeup}

theorem Process.taskStopped_pid {p : Process} {tid : Pid} :
    ((p.reportedBy tid).taskStopped tid).pid = p.pid :=
  track_pid

theorem groupOf_of_tracked (h : s.core.Tables issued) (hin : d.tid ∈ s.dbg.process.taskStates) :
    s.world.groupOf d = s.dbg.process.pid := by
  have hgroup : s.world.tasks[d.tid]? = some s.dbg.process.pid := h.linked.group d.tid hin
  rw [World.groupOf, hgroup]
  rfl

theorem groupOf_of_owned (h : s.core.Tables issued) {signal : Nat} {event : PtraceEvent}
    (hpossible : s.world.possible d = true) (hst : d.status = .stopped signal event)
    (howns : ((s.waiting call).deliver d rest).owns d.tid) :
    s.world.groupOf d = s.dbg.process.pid := by
  rcases howns with hin | htask
  · exact groupOf_of_tracked h hin
  · have hself := World.deliver_tasks_self hpossible hst
    exact Option.some.inj (hself.symm.trans htask)

/-- Beside retained domains the wait is for the selected task. -/
theorem Delivered.of_retained
    (hd : Delivered tracees s.dbg.waitTarget (s.waiting call) d rest)
    (hcurrent : s.dbg.process.currentTid ∈ s.dbg.process.taskStates)
    (hpos : ∀ tid ∈ s.dbg.process.taskStates, 0 < tid) (hne : s.dbg.retainedProcesses ≠ ∅) :
    d.tid ∈ s.dbg.process.taskStates := by
  have htarget : s.dbg.waitTarget = s.dbg.process.currentTid := by
    rw [Debugger.waitTarget, if_neg (by simpa [ExtTreeMap.isEmpty_iff] using hne)]
  rcases hd.requested with h | h
  · have := hpos _ hcurrent
    rw [← htarget, h] at this
    exact absurd this (by decide)
  · rw [← h, htarget]
    exact hcurrent

/-- A report leaves the tasks of every process in place, except for the reporting task. -/
theorem tasks_of_retained (h : s.core.Tables issued) (hpossible : s.world.possible d = true)
    (hgroup : s.dbg.retainedProcesses ≠ ∅ → s.world.groupOf d = s.dbg.process.pid)
    {tid pid : Pid} (hpid : pid ∈ s.dbg.retainedProcesses)
    (htid : s.world.tasks[tid]? = some pid) : (s.world.deliver d).tasks[tid]? = some pid := by
  refine World.deliver_tasks_of_ne hpossible ?_ htid
  rintro rfl
  have hne : s.dbg.retainedProcesses ≠ ∅ := by
    rintro he
    simp [he] at hpid
  have hself := hgroup hne
  rw [World.groupOf, htid] at hself
  exact h.free (show s.dbg.process.pid ∈ s.dbg.retainedProcesses from hself ▸ hpid)

/-- A process id the kernel hands out is not in use. -/
theorem fresh_apart (h : s.core.Tables issued) (hlive : s.dbg.process.live) {child : Pid}
    (hfresh : s.world.fresh child = true) :
    child ≠ s.dbg.process.pid ∧ child ∉ s.dbg.process.taskStates ∧
      ∀ q ∈ s.dbg.retainedProcesses, child ≠ q := by
  have hfresh := World.fresh_iff.mp hfresh
  refine ⟨?_, ?_, ?_⟩
  · obtain ⟨tid, htid⟩ := h.linked.inhabited hlive
    exact (hfresh tid _ (h.linked.group tid htid)).2.symm
  · intro hin
    exact (hfresh child _ (h.linked.group child hin)).1 rfl
  · intro q hq
    obtain ⟨domain, hdomain⟩ := Option.isSome_iff_exists.mp
      (ExtTreeMap.isSome_getElem?_iff_mem.mpr hq)
    have hk := h.kept q domain hdomain
    obtain ⟨tid, htid⟩ := hk.linked.inhabited (.inl hk.resting.stopped)
    have := (hfresh tid _ (hk.linked.group tid htid)).2
    rw [hk.key] at this
    exact this.symm

/-- No process of the debugger is the child of a fork that is just being reported. -/
theorem Session.Waitable.not_child (h : s.Waitable b issued pending registry)
    (hd : Delivered tracees requested (s.waiting call) d rest) {signal : Nat}
    {event : PtraceEvent} (hst : d.status = .stopped signal event)
    (hfork : event = .fork ∨ event = .vfork) :
    World.child d ≠ s.dbg.process.pid ∧ World.child d ∉ s.dbg.process.taskStates ∧
      ∀ q ∈ s.dbg.retainedProcesses, World.child d ≠ q :=
  fresh_apart h.good.tables h.live (World.fresh_child hd.possible hst hfork)

/-- The breakpoints of the active process are still in place after a report. -/
theorem Session.Waitable.armed (h : s.Waitable b issued pending registry)
    (htame : Tame b tracees) (hd : Delivered tracees requested (s.waiting call) d rest)
    (hb : b = true)
    (hexec : s.world.groupOf d = s.dbg.process.pid → d.status.isExec = false) :
    Armed int3 (patches s.dbg.breakpointsByAddress)
      ((s.world.deliver d).memory s.dbg.process.pid) := by
  refine Armed.agree (h.good.bytes hb).active fun a ha => ?_
  by_cases hgroup : s.world.groupOf d = s.dbg.process.pid
  · have hself := World.deliver_memory_self (w := s.world) (d := d) fun signal event hst hfork => by
      rw [hgroup]
      exact (h.not_child hd hst hfork).1.symm
    rw [hgroup] at hself
    rw [hself]
    exact htame.quiet hb _ d hd.produced (hexec hgroup) hgroup a (mem_of_patches ha)
  · rw [World.deliver_memory_of_ne (Ne.symm hgroup) fun signal event hst hfork =>
      (h.not_child hd hst hfork).1.symm]
    rfl

theorem Session.Waitable.armed_retained (h : s.Waitable b issued pending registry)
    (hd : Delivered tracees requested (s.waiting call) d rest)
    (hgroup : s.dbg.retainedProcesses ≠ ∅ → s.world.groupOf d = s.dbg.process.pid) (hb : b = true)
    {q : Pid} {domain : RetainedProcessDomain}
    (hdomain : s.dbg.retainedProcesses[q]? = some domain) :
    Armed int3 (patches domain.breakpointsByAddress) ((s.world.deliver d).memory q) := by
  have hq : q ∈ s.dbg.retainedProcesses := by
    rw [ExtTreeMap.mem_iff_isSome_getElem?, hdomain]
    rfl
  have hne : s.dbg.retainedProcesses ≠ ∅ := by
    rintro he
    simp [he] at hq
  rw [World.deliver_memory_of_ne]
  · exact (h.good.bytes hb).kept q domain hdomain
  · rw [hgroup hne]
    rintro rfl
    exact h.good.tables.free hq
  · intro signal event hst hfork
    exact ((h.not_child hd hst hfork).2.2 q hq).symm

/-- A forked child has the breakpoints of its parent in its memory. -/
theorem Session.Waitable.armed_child (h : s.Waitable b issued pending registry)
    (htame : Tame b tracees) (hd : Delivered tracees requested (s.waiting call) d rest)
    (hb : b = true) {signal : Nat} (hst : d.status = .stopped signal .fork)
    (hgroup : s.world.groupOf d = s.dbg.process.pid) :
    Armed int3 (patches s.dbg.breakpointsByAddress) ((s.world.deliver d).memory (World.child d)) := by
  refine Armed.agree (h.good.bytes hb).active fun a ha => ?_
  rw [World.deliver_memory_child hst (.inl rfl)]
  exact htame.quiet hb _ d hd.produced (by rw [hst]; rfl) hgroup a (mem_of_patches ha)

/-- The core once a report has been filed in the process record. -/
def Session.filed (s : Session) (d : Delivery) (p : Process) (owner : Option Pid) : Core :=
  { s.core with
    active := { s.core.active with process := p, owner }
    tasks := (s.world.deliver d).tasks
    memory := (s.world.deliver d).memory }

theorem Session.Waitable.bytes_filed (h : s.Waitable b issued pending registry)
    (htame : Tame b tracees) (hd : Delivered tracees requested (s.waiting call) d rest)
    (hb : b = true) (hexec : s.world.groupOf d = s.dbg.process.pid → d.status.isExec = false)
    (hgroup : s.dbg.retainedProcesses ≠ ∅ → s.world.groupOf d = s.dbg.process.pid)
    {p : Process} (hpid : p.pid = s.dbg.process.pid) {owner : Option Pid} :
    (s.filed d p owner).Bytes := by
  refine ⟨?_, fun q domain hdomain => h.armed_retained hd hgroup hb hdomain⟩
  have := h.armed htame hd hb hexec
  rw [← hpid] at this
  exact this

/-- A stop of a task of the active process. -/
theorem Session.Waitable.tables_stopped (h : s.Waitable b issued pending registry)
    (hd : Delivered tracees requested (s.waiting call) d rest) {signal : Nat}
    {event : PtraceEvent} (hst : d.status = .stopped signal event)
    (hgroup : s.world.groupOf d = s.dbg.process.pid) :
    (s.filed d ((s.dbg.process.reportedBy d.tid).taskStopped d.tid)
      s.core.active.owner).Tables issued := by
  have hmem : ∀ tid, tid ∈ ((s.dbg.process.reportedBy d.tid).taskStopped d.tid).taskStates ↔
      tid = d.tid ∨ tid ∈ s.dbg.process.taskStates := by
    intro tid
    have : tid ∈ (s.dbg.process.track d.tid).taskStates ↔ _ := Process.mem_track
    simp only [Process.taskStopped, Process.reportedBy]
    grind
  have hpid : ((s.dbg.process.reportedBy d.tid).taskStopped d.tid).pid = s.dbg.process.pid :=
    Process.taskStopped_pid
  refine h.good.tables.advance hpid (fun _ => h.live) (fun _ => .inl rfl) ⟨?_, ?_, ?_⟩ ?_ ?_
  · intro tid htid
    rw [hpid]
    by_cases hself : tid = d.tid
    · have hp : s.world.possible d = true := hd.possible
      have := World.deliver_tasks_self hp hst
      rw [hgroup] at this
      rw [hself]
      exact this
    · exact World.deliver_tasks_of_ne hd.possible hself
        (h.good.tables.linked.group tid (((hmem tid).mp htid).resolve_left hself))
  · intro tid htid
    rcases (hmem tid).mp htid with rfl | hold
    · exact World.pos_of_possible hd.possible
    · exact h.good.tables.linked.positive tid hold
  · exact fun _ => ⟨d.tid, (hmem d.tid).mpr (.inl rfl)⟩
  · intro tid howner
    exact (hmem tid).mpr (.inr (h.good.tables.owned tid howner))
  · exact fun tid pid hpid htid =>
      tasks_of_retained h.good.tables hd.possible (fun _ => hgroup) hpid htid

/-- A task of the active process has ended, but the process lives on or is alone. -/
theorem Session.Waitable.tables_ended (h : s.Waitable b issued pending registry)
    (hd : Delivered tracees requested (s.waiting call) d rest)
    (hin : d.tid ∈ s.dbg.process.taskStates) {p : Process}
    (hended : s.dbg.process.EndedTask d.tid p) {owner : Option Pid}
    (howner : ∀ tid, owner = some tid → s.core.active.owner = some tid ∧ tid ≠ d.tid)
    (hstays : s.dbg.retainedProcesses ≠ ∅ → p.live) :
    (s.filed d p owner).Tables issued := by
  have hmem : ∀ tid, tid ∈ p.taskStates ↔ tid ≠ d.tid ∧ tid ∈ s.dbg.process.taskStates := by
    intro tid
    rw [hended.taskStates]
    grind
  refine h.good.tables.advance hended.pid (fun _ => h.live) hstays ⟨?_, ?_, ?_⟩ ?_ ?_
  · intro tid htid
    rw [hended.pid]
    obtain ⟨hne, hold⟩ := (hmem tid).mp htid
    exact World.deliver_tasks_of_ne hd.possible hne (h.good.tables.linked.group tid hold)
  · intro tid htid
    exact h.good.tables.linked.positive tid ((hmem tid).mp htid).2
  · intro hlive
    have hne : p.taskStates.isEmpty = false := by
      rcases he : p.taskStates.isEmpty with _ | _
      · rfl
      · exact absurd hlive (hended.gone he)
    exact ⟨p.currentTid, (hended.survives hne).2⟩
  · intro tid ho
    obtain ⟨hold, hne⟩ := howner tid ho
    exact (hmem tid).mpr ⟨hne, h.good.tables.owned tid hold⟩
  · exact fun tid pid hpid htid => tasks_of_retained h.good.tables hd.possible
      (fun _ => groupOf_of_tracked h.good.tables hin) hpid htid

/-- A report for a task the debugger does not know. -/
theorem Session.Waitable.good_untracked (h : s.Waitable b issued pending registry)
    (htame : Tame b tracees) (hd : Delivered tracees s.dbg.waitTarget (s.waiting call) d rest)
    (hout : d.tid ∉ s.dbg.process.taskStates)
    (hforeign : d.status.isStopped = true → ¬((s.waiting call).deliver d rest).owns d.tid) :
    ((s.waiting call).deliver d rest).core.Good b issued := by
  have hp : s.world.possible d = true := hd.possible
  have halone : s.dbg.retainedProcesses = ∅ := by
    by_contra hne
    exact hout (hd.of_retained h.current h.good.tables.linked.positive hne)
  have hactive : s.dbg.process.Linked (s.world.deliver d).tasks := by
    refine ⟨fun tid htid => ?_, h.good.tables.linked.positive, h.good.tables.linked.inhabited⟩
    refine World.deliver_tasks_of_ne hp ?_ (h.good.tables.linked.group tid htid)
    rintro rfl
    exact hout htid
  refine ⟨h.good.tables.advance rfl id h.good.tables.live hactive h.good.tables.owned
    (fun tid pid hpid _ => ?_), fun hb =>
      h.bytes_filed htame hd hb (fun hgroup => ?_) (fun hne => absurd halone hne) rfl⟩
  · have hpid : pid ∈ s.dbg.retainedProcesses := hpid
    simp [halone] at hpid
  · rcases hst : d.status with code | signal | ⟨signal, event⟩
    · rfl
    · rfl
    · refine absurd (Or.inr ?_) (hforeign (by rw [hst]; rfl))
      have := World.deliver_tasks_self hp hst
      rw [hgroup] at this
      exact this

end Reports

end MiniDebugger
