import MiniDebugger.Debugger.ExecutionRules
import MiniDebugger.Debugger.Runs
import MiniDebugger.Loader.OwnMemory

/-!
# Accounting for planted bytes

Under the fork policy `Parent` the debugger has one process. `Session.Kept` says that its breakpoint
table accounts for every `INT3` of the debugger, and every operation that does not lose a breakpoint
keeps it, whatever the tracee does to its memory and mappings.
-/

namespace MiniDebugger

open Command
open Function (update update_self update_of_ne)
open Std (ExtTreeMap)

/-- One process, whose table accounts for the bytes planted in it as long as it is traced. -/
structure Session.Kept (start : Pid → Memory) (s : Session) : Prop where
  policy : s.dbg.forkFollowPolicy = .parent
  alone : s.dbg.retainedProcesses = ∅
  group : s.TracksGroup
  accounted : s.dbg.process.live → Accounted s.dbg.breakpointsByAddress
    (s.world.memory s.dbg.process.pid) (ownMemory start s.history s.dbg.process.pid)

/-- The debugger can wait for its process. -/
structure Session.Watching (start : Pid → Memory) (s : Session) : Prop where
  kept : s.Kept start
  live : s.dbg.process.live
  inhabited : ∃ tid, tid ∈ s.dbg.process.taskStates

/-- However a command ends, the table accounts for the planted bytes. -/
def keeping (start : Pid → Memory) {α : Type} : Post WaitCall Exception Session α where
  returned _ t := t.Kept start
  raised _ t := t.Kept start
  blocked _ _ := True

section Accounting

variable {start : Pid → Memory} {tracees : Tracees} {s t : Session} {call : WaitCall}
  {requested : Pid} {d : Delivery} {rest : List Wakeup} {tid : Pid}

theorem Session.TracksGroup.space (h : s.TracksGroup) (hin : tid ∈ s.dbg.process.taskStates) :
    Lowlevel.space s.world tid = s.dbg.process.pid := by
  rw [Lowlevel.space, (h tid hin).1]
  rfl

theorem mem_of_taskState {p : Process} {state : ProcessState} (h : p.taskState tid = some state) :
    tid ∈ p.taskStates :=
  ExtTreeMap.mem_iff_isSome_getElem?.mpr (Option.isSome_of_eq_some h)

/-! ## Reports -/

/-- The process of the debugger is not the child of a fork that is just being reported. -/
theorem Session.Watching.not_child (h : s.Watching start) (hp : s.world.possible d = true)
    {signal : Nat} {event : PtraceEvent} (hst : d.status = .stopped signal event)
    (hfork : event = .fork ∨ event = .vfork) :
    s.dbg.process.pid ≠ World.child d ∧ World.child d ∉ s.dbg.process.taskStates := by
  have hfresh := World.fresh_iff.mp (World.fresh_child hp hst hfork)
  obtain ⟨tid, htid⟩ := h.inhabited
  refine ⟨(hfresh tid _ (h.kept.group tid htid).1).2, fun hin => ?_⟩
  exact (hfresh _ _ (h.kept.group _ hin).1).1 rfl

theorem Session.Watching.accounted (h : s.Watching start)
    (hd : Delivered tracees requested (s.waiting call) d rest) :
    Accounted s.dbg.breakpointsByAddress ((s.world.deliver d).memory s.dbg.process.pid)
      (ownMemory start ((s.waiting call).deliver d rest).history s.dbg.process.pid) := by
  have hp : s.world.possible d = true := hd.possible
  have hforked : d.status.isFork = true → s.dbg.process.pid ≠ World.child d := by
    intro hfork
    unfold WaitStatus.isFork at hfork
    split at hfork
    · exact (h.not_child hp ‹_› (.inl rfl)).1
    · exact (h.not_child hp ‹_› (.inr rfl)).1
    · cases hfork
  have hchild : ∀ signal event, d.status = .stopped signal event →
      event = .fork ∨ event = .vfork → s.dbg.process.pid ≠ World.child d :=
    fun signal event hst hfork => (h.not_child hp hst hfork).1
  have hbefore := h.kept.accounted h.live
  have hhistory : ownMemory start ((s.waiting call).deliver d rest).history =
      s.world.ownDelivered d (ownMemory start s.history) := rfl
  rw [hhistory]
  by_cases hgroup : s.dbg.process.pid = s.world.groupOf d
  · rw [hgroup] at hchild hforked hbefore ⊢
    rw [World.deliver_memory_self hchild, ownMemory_self hforked]
    exact hbefore.report
  · rw [World.deliver_memory_of_ne hgroup hchild, ownMemory_of_ne hgroup hforked]
    exact hbefore

/-- Filing a report, if the tasks of the new record are tasks of the process. -/
theorem Session.Watching.filed (h : s.Watching start)
    (hd : Delivered tracees requested (s.waiting call) d rest) {p : Process}
    (hpid : p.pid = s.dbg.process.pid)
    (hgroup : ∀ tid ∈ p.taskStates,
      (s.world.deliver d).tasks[tid]? = some s.dbg.process.pid ∧ 0 < tid) :
    (((s.waiting call).deliver d rest).withProcess p).Kept start := by
  refine ⟨h.kept.policy, h.kept.alone, fun tid htid => ?_, fun _ => ?_⟩
  · rw [show (((s.waiting call).deliver d rest).withProcess p).dbg.process.pid = _ from hpid]
    exact hgroup tid htid
  · rw [show (((s.waiting call).deliver d rest).withProcess p).dbg.process.pid = _ from hpid]
    exact h.accounted hd

/-- The tasks that were tracked and are not the one the report is about. -/
theorem Session.Watching.group_of_ne (h : s.Watching start)
    (hd : Delivered tracees requested (s.waiting call) d rest)
    (hin : tid ∈ s.dbg.process.taskStates) (hne : tid ≠ d.tid) :
    (s.world.deliver d).tasks[tid]? = some s.dbg.process.pid ∧ 0 < tid :=
  ⟨World.deliver_tasks_of_ne hd.possible hne (h.kept.group tid hin).1, (h.kept.group tid hin).2⟩

theorem Session.Watching.groupOf_owned (h : s.Watching start) {signal : Nat}
    {event : PtraceEvent} (hp : s.world.possible d = true) (hst : d.status = .stopped signal event)
    (howns : ((s.waiting call).deliver d rest).owns d.tid) :
    s.world.groupOf d = s.dbg.process.pid := by
  rcases howns with hin | htask
  · rw [World.groupOf, (h.kept.group d.tid hin).1]
    rfl
  · exact Option.some.inj ((World.deliver_tasks_self hp hst).symm.trans htask)

theorem mem_reportedBy {p : Process} {tid other : Pid} :
    other ∈ ((p.reportedBy tid).taskStopped tid).taskStates ↔ other = tid ∨ other ∈ p.taskStates := by
  have : other ∈ (p.track tid).taskStates ↔ _ := Process.mem_track
  simp only [Process.taskStopped, Process.reportedBy]
  grind

theorem Session.Watching.group_stopped (h : s.Watching start)
    (hd : Delivered tracees requested (s.waiting call) d rest) {signal : Nat}
    {event : PtraceEvent} (hst : d.status = .stopped signal event)
    (howns : ((s.waiting call).deliver d rest).owns d.tid) :
    ∀ tid ∈ ((s.dbg.process.reportedBy d.tid).taskStopped d.tid).taskStates,
      (s.world.deliver d).tasks[tid]? = some s.dbg.process.pid ∧ 0 < tid := by
  have hp : s.world.possible d = true := hd.possible
  intro tid htid
  by_cases hself : tid = d.tid
  · rw [hself, World.deliver_tasks_self hp hst, h.groupOf_owned hp hst howns]
    exact ⟨rfl, World.pos_of_possible hp⟩
  · exact h.group_of_ne hd ((mem_reportedBy.mp htid).resolve_left hself) hself

theorem Session.Watching.stopped (h : s.Watching start)
    (hd : Delivered tracees requested (s.waiting call) d rest) {signal : Nat}
    {event : PtraceEvent} (hst : d.status = .stopped signal event)
    (howns : ((s.waiting call).deliver d rest).owns d.tid) :
    (((s.waiting call).deliver d rest).withProcess
      ((s.dbg.process.reportedBy d.tid).taskStopped d.tid)).Watching start :=
  ⟨h.filed hd Process.track_pid (h.group_stopped hd hst howns), .inl rfl,
    d.tid, mem_reportedBy.mpr (.inl rfl)⟩

theorem Session.Watching.ended (h : s.Watching start)
    (hd : Delivered tracees requested (s.waiting call) d rest) {p : Process}
    (hended : s.dbg.process.EndedTask d.tid p) :
    (((s.waiting call).deliver d rest).withProcess p).Kept start := by
  refine h.filed hd hended.pid fun tid htid => ?_
  rw [hended.taskStates] at htid
  obtain ⟨hne, hold⟩ := ExtTreeMap.mem_erase.mp htid
  refine h.group_of_ne hd hold ?_
  rintro rfl
  exact hne (by simp)

theorem Session.Watching.cloned (h : s.Watching start)
    (hd : Delivered tracees requested (s.waiting call) d rest) {signal : Nat}
    (hst : d.status = .stopped signal .clone)
    (howns : ((s.waiting call).deliver d rest).owns d.tid)
    (hpos : (s.world.deliver d).message d.tid ≠ 0) :
    (((s.waiting call).deliver d rest).withProcess
      (((s.dbg.process.reportedBy d.tid).taskStopped d.tid).track
        ((s.world.deliver d).message d.tid))).Watching start := by
  have hp : s.world.possible d = true := hd.possible
  have hchild := World.deliver_tasks_cloned hp hst
  rw [h.groupOf_owned hp hst howns] at hchild
  refine ⟨h.filed hd (Process.track_pid.trans Process.track_pid) fun tid htid => ?_,
    .inl Process.track_state, d.tid, Process.mem_track.mpr (.inr (mem_reportedBy.mpr (.inl rfl)))⟩
  rcases Process.mem_track.mp htid with rfl | hold
  · rw [World.deliver_message hst] at hpos ⊢
    exact ⟨hchild, Int.natCast_pos.mpr (Nat.pos_of_ne_zero hpos)⟩
  · exact h.group_stopped hd hst howns tid hold

/-- A report for a task the debugger does not know. -/
theorem Session.Watching.untracked (h : s.Watching start)
    (hd : Delivered tracees requested (s.waiting call) d rest)
    (hout : d.tid ∉ s.dbg.process.taskStates) : ((s.waiting call).deliver d rest).Kept start := by
  refine h.filed (p := s.dbg.process) hd rfl fun tid htid => h.group_of_ne hd htid ?_
  rintro rfl
  exact hout htid

theorem keeps_waitFor (h : s.Watching start) :
    wp (waitFor tracees call requested) (keeping start) s := by
  refine wp_waitFor ?_ ?_ ?_ ?_ ?_ ?_ trivial
  · exact fun rest => ⟨h.kept.policy, h.kept.alone, h.kept.group, h.kept.accounted⟩
  · exact fun d rest hd hout _ => h.untracked hd hout
  · exact fun d rest event p hd _ _ _ _ hended => h.ended hd hended
  · exact fun d rest signal event hd howns hst _ => (h.stopped hd hst howns).kept
  · intro d rest signal faults hd howns hst h0 _
    have := (h.cloned hd hst howns h0).kept
    exact ⟨this.policy, this.alone, this.group, this.accounted⟩
  · intro d rest signal faults e hd howns hst _
    have := (h.stopped hd hst howns).kept
    exact ⟨this.policy, this.alone, this.group, this.accounted⟩

/-! ## Stops -/

theorem Session.Kept.alike (h : s.Kept start) (ht : s.Alike t) : t.Kept start := by
  obtain ⟨_, _, _, rfl⟩ := ht
  exact ⟨h.policy, h.alone, h.group, h.accounted⟩

/-- Lifting the breakpoint that was hit. -/
theorem Session.Kept.hit (h : s.Kept start) (hin : tid ∈ s.dbg.process.taskStates)
    {address : Addr} {bp : Breakpoint} (regs : UserRegs)
    (hbp : s.dbg.breakpointsByAddress[address]? = some bp) : (s.hit tid address bp regs).Kept start := by
  refine ⟨h.policy, h.alone, h.group, fun hlive => ?_⟩
  have := (h.accounted hlive).setInstalled hbp false bp.originalByte
    fun _ => (h.accounted hlive).saved address bp hbp
  unfold Session.hit Session.poke
  rw [h.group.space hin]
  show Accounted _ (update s.world.memory s.dbg.process.pid _ s.dbg.process.pid) _
  rwa [update_self]

theorem keeps_classifySignalStop {expectedSingleStep : Bool} {event : WaitEvent}
    (h : s.Kept start) (hin : event.tid ∈ s.dbg.process.taskStates) :
    wp (classifySignalStop expectedSingleStep event) (keeping start) s := by
  refine wp_classifySignalStop ?_ ?_ ?_ ?_ ?_ ?_
  · exact fun info _ _ _ _ => ⟨h.policy, h.alone, h.group, h.accounted⟩
  · exact fun info _ _ _ _ _ => ⟨h.policy, h.alone, h.group, h.accounted⟩
  · rintro t info - - - - ⟨_, _, _, rfl⟩ - -
    exact ⟨h.policy, h.alone, h.group, h.accounted⟩
  · rintro t info - - - - ⟨_, _, _, rfl⟩ - -
    exact ⟨h.policy, h.alone, h.group, h.accounted⟩
  · rintro t - - - ⟨_, _, _, rfl⟩
    refine wp_classifyTrap ?_ ?_ ?_
    · intro bp faults info hbp _ _ _ _ _
      have := h.hit hin { s.world.regs event.tid with
        rip := (s.world.regs event.tid).rip - 1 } hbp
      exact ⟨this.policy, this.alone, this.group, this.accounted⟩
    · exact fun faults info _ _ _ => ⟨h.policy, h.alone, h.group, h.accounted⟩
    · exact fun faults regs snapshots e _ => ⟨h.policy, h.alone, h.group, h.accounted⟩
  · exact fun t e ht _ => h.alike ht

/-- A lone process has no survivor to be promoted. -/
theorem keeps_classifyEnded {event : WaitEvent}
    {processReason finalReason threadReason : StopReason} (h : s.Kept start)
    (hrunning : s.dbg.process.taskStates.isEmpty = false → s.Watching start) :
    wp (classifyEnded event processReason finalReason threadReason)
      ⟨fun r t => t.Kept start ∧ (r = none → t.Watching start), fun _ t => t.Kept start,
        fun _ _ => True⟩ s := by
  have hnone : ∀ (survivor : Pid) (domain : RetainedProcessDomain),
      s.dbg.retainedProcesses[survivor]? = some domain → False := by
    intro survivor domain hdomain
    rw [h.alone] at hdomain
    simp at hdomain
  refine wp_classifyEnded ?_ ?_ ?_ ?_ ?_
  · exact fun survivor domain e _ hdomain _ => (hnone survivor domain hdomain).elim
  · exact fun survivor domain _ hdomain _ => (hnone survivor domain hdomain).elim
  · exact fun _ _ => ⟨⟨h.policy, h.alone, h.group, h.accounted⟩, by rintro ⟨⟩⟩
  · intro hne _
    have hw := hrunning hne
    have hk : Session.Kept start { s with dbg := s.dbg.forgetTask event.tid } :=
      ⟨h.policy, h.alone, h.group, h.accounted⟩
    exact ⟨hk, fun _ => ⟨hk, hw.live, hw.inhabited⟩⟩
  · exact fun _ _ => ⟨⟨h.policy, h.alone, h.group, h.accounted⟩, by rintro ⟨⟩⟩

/-- The child of a fork takes nothing of the process with it. -/
theorem Session.Kept.aftermath (h : s.Kept start) {child : Pid}
    (hchild : s.world.tasks[child]? = some child) (hne : child ≠ s.dbg.process.pid)
    (ht : s.Aftermath child child t) : t.Kept start := by
  obtain ⟨_, _, _, tasks, _, memory, rfl, htasks, hmemory⟩ := ht
  refine ⟨h.policy, h.alone, fun tid htid => ?_, fun hlive => ?_⟩
  · obtain ⟨hgroup, hpos⟩ := h.group tid htid
    refine ⟨?_, hpos⟩
    rcases htasks with rfl | rfl
    · exact hgroup
    · have hother : child ≠ tid := by
        rintro rfl
        exact hne (Option.some.inj (hchild.symm.trans hgroup))
      exact ExtTreeMap.getElem?_erase.trans ((if_neg (by simpa using hother)).trans hgroup)
  · show Accounted _ (memory s.dbg.process.pid) _
    rw [hmemory _ hne.symm]
    exact h.accounted hlive

theorem keeps_classifyFork (h : s.Kept start)
    (hchild : s.world.tasks[(s.world.message tid : Int)]? = some (s.world.message tid : Int))
    (hne : (s.world.message tid : Int) ≠ s.dbg.process.pid) :
    wp (classifyFork tid) (keeping start) s := by
  have hspace : Lowlevel.space s.world (s.world.message tid) = s.world.message tid := by
    rw [Lowlevel.space, hchild]
    rfl
  have hparent : ∀ {policy}, s.dbg.forkFollowPolicy = policy → policy = .parent :=
    fun hpolicy => hpolicy.symm.trans h.policy
  refine wp_classifyFork ?_ ?_ ?_ ?_ ?_ ?_
  · exact fun faults e => ⟨h.policy, h.alone, h.group, h.accounted⟩
  · exact fun t child childStop inherited info _ _ hpolicy => by cases hparent hpolicy
  · exact fun child faults sequence debug memory requests info _ _ hpolicy => by
      cases hparent hpolicy
  · rintro child t info rfl - hafter -
    rw [hspace] at hafter
    have := h.aftermath hchild hne hafter
    obtain ⟨_, _, _, _, _, _, rfl, -, -⟩ := hafter
    exact ⟨this.policy, this.alone, this.group, this.accounted⟩
  · rintro child t e rfl hafter
    rw [hspace] at hafter
    exact h.aftermath hchild hne hafter
  · exact fun child t e _ hpolicy => by cases hparent hpolicy

theorem Session.Kept.childRan (h : s.Kept start) {child : Pid}
    (hchild : s.world.tasks[child]? = some child) (hne : child ≠ s.dbg.process.pid)
    (ht : s.ChildRan child t) : t.Kept start := by
  obtain ⟨faults, sequence, debug, tasks, requests, mode, rfl, htasks, -⟩ := ht
  have := h.aftermath hchild hne
    ⟨faults, sequence, debug, tasks, requests, _, rfl, htasks, fun _ _ => rfl⟩
  exact ⟨this.policy, this.alone, this.group, this.accounted⟩

theorem Session.Kept.markRunning (h : s.Kept start) (hlive : s.dbg.process.live) (tid : Pid) :
    (s.withProcess (s.dbg.process.markRunning tid)).Kept start := by
  refine ⟨h.policy, h.alone, fun other hother => ?_, fun _ => ?_⟩
  · rw [show (s.withProcess (s.dbg.process.markRunning tid)).dbg.process.pid =
      s.dbg.process.pid from Process.markRunning_pid]
    exact h.group other (Process.mem_markRunning.mp hother)
  · rw [show (s.withProcess (s.dbg.process.markRunning tid)).dbg.process.pid =
      s.dbg.process.pid from Process.markRunning_pid]
    exact h.accounted hlive

theorem keeps_classifyVfork (h : s.Watching start)
    (hchild : s.world.tasks[(s.world.message tid : Int)]? = some (s.world.message tid : Int))
    (hne : (s.world.message tid : Int) ≠ s.dbg.process.pid) :
    wp (classifyVfork tracees tid) (keeping start) s := by
  refine wp_classifyVfork (fun t e ht => h.kept.childRan hchild hne ht) (fun _ _ => trivial) ?_
  intro t faults requests ht
  have hran := h.kept.childRan hchild hne ht
  obtain ⟨_, sequence, debug, tasks, _, mode, rfl, -, -⟩ := ht
  have hrun := hran.markRunning h.live tid
  generalize hu : Session.mk _ _ _ _ _ _ = u
  have hw : u.Watching start := by
    subst hu
    refine ⟨⟨hrun.policy, hrun.alone, hrun.group, hrun.accounted⟩,
      Process.live_markRunning h.live, ?_⟩
    obtain ⟨other, hother⟩ := h.inhabited
    exact ⟨other, Process.mem_markRunning.mpr hother⟩
  simp only [awaitVforkDone, wait, wp_bind]
  refine wp_mono (keeps_waitFor hw) ?_ (fun _ _ h => h) (fun _ _ _ => trivial)
  intro done t ht
  simp only [wp_ite, wp_raise, wp_bind]
  split
  · exact ht
  · refine Lowlevel.wp_getEventMessage (fun faults => ?_) (fun faults e _ => ?_)
    · dsimp only
      split <;> exact ⟨ht.policy, ht.alone, ht.group, ht.accounted⟩
    · exact ⟨ht.policy, ht.alone, ht.group, ht.accounted⟩

/-- An `exec` empties the table, and nothing of the debugger is left in the new image. -/
theorem Session.Watching.replaced (h : s.Watching start)
    (hd : Delivered tracees requested (s.waiting call) d rest) {signal : Nat}
    (hst : d.status = .stopped signal .exec)
    (howns : ((s.waiting call).deliver d rest).owns d.tid) {p : Process} :
    Session.Kept start { (s.waiting call).deliver d rest with
      dbg := { s.dbg.discardImageState with process := p.singleTask d.tid } } := by
  have hp : s.world.possible d = true := hd.possible
  have hgroup := h.groupOf_owned hp hst howns
  have hleader : s.dbg.process.pid = d.tid := by
    rw [← hgroup, World.groupOf, (World.exec_leader hp hst).1]
    rfl
  have hself := World.deliver_tasks_self hp hst
  rw [hgroup, hleader] at hself
  refine ⟨h.kept.policy, h.kept.alone, fun tid htid => ?_, fun _ => accounted_empty fun a => ?_⟩
  · have htid : tid = d.tid := by
      simp only [Process.singleTask] at htid
      grind
    rw [htid]
    exact ⟨hself, World.pos_of_possible hp⟩
  · have hexec : d.status.isExec = true := by rw [hst]; rfl
    have hfork : d.status.isFork = true → s.world.groupOf d ≠ World.child d := by
      rw [hst]
      rintro ⟨⟩
    show ¬Planted ((s.world.deliver d).memory d.tid)
      (s.world.ownDelivered d (ownMemory start s.history) d.tid) a
    rw [← hleader, ← hgroup, ownMemory_self hfork, World.deliver_memory_self]
    · exact not_planted_of_exec hexec
    · intro signal event hev hfork
      rw [hst] at hev
      cases hev
      rcases hfork with he | he <;> cases he

theorem keeps_waitPass {expectedSingleStep : Bool} (h : s.Watching start) :
    wp (waitPass tracees expectedSingleStep)
      ⟨fun r t => t.Kept start ∧ (r = none → t.Watching start), fun _ t => t.Kept start,
        fun _ _ => True⟩ s := by
  have weaken : ∀ {x : Act StopInfo} {u : Session}, wp x (keeping start) u →
      wp (some <$> x) ⟨fun r t => t.Kept start ∧ (r = none → t.Watching start),
        fun _ t => t.Kept start, fun _ _ => True⟩ u := by
    intro x u hx
    rw [wp_map]
    exact wp_mono hx (fun _ _ ht => ⟨ht, by rintro ⟨⟩⟩) (fun _ _ ht => ht) (fun _ _ _ => trivial)
  simp only [waitPass, wp_bind]
  refine wp_waitActiveProcess (fun e => h.kept) ?_
  refine wp_waitFor ?_ ?_ ?_ ?_ ?_ ?_ trivial
  · exact fun rest => ⟨h.kept.policy, h.kept.alone, h.kept.group, h.kept.accounted⟩
  · exact fun d rest hd hout _ => h.untracked hd hout
  · intro d rest event p hd _ _ hkind _ hended
    have hk := h.ended hd hended
    have hw : p.taskStates.isEmpty = false →
        (((s.waiting (.active s.dbg.waitTarget)).deliver d rest).withProcess p).Watching start :=
      fun hne => ⟨hk, (hended.survives hne).1, _, (hended.survives hne).2⟩
    rcases hevent : event.kind with _ | _ | _
    · exact absurd hevent hkind
    · simp only [classifyEvent, hevent]
      exact keeps_classifyEnded hk hw
    · simp only [classifyEvent, hevent]
      exact keeps_classifyEnded hk hw
  · intro d rest signal event hd howns hst hclone
    have hw := h.stopped hd hst howns
    have hmessage : (s.world.deliver d).message d.tid = d.message := World.deliver_message hst
    have hchild : event = .fork ∨ event = .vfork →
        (s.world.deliver d).tasks[((s.world.deliver d).message d.tid : Int)]? =
          some ((s.world.deliver d).message d.tid : Int) ∧
        ((s.world.deliver d).message d.tid : Int) ≠
          ((s.dbg.process.reportedBy d.tid).taskStopped d.tid).pid := by
      intro he
      rw [hmessage, show ((s.dbg.process.reportedBy d.tid).taskStopped d.tid).pid =
        s.dbg.process.pid from Process.track_pid]
      exact ⟨World.deliver_tasks_child hst he, (h.not_child hd.possible hst he).1.symm⟩
    have hin : d.tid ∈ ((s.dbg.process.reportedBy d.tid).taskStopped d.tid).taskStates :=
      mem_reportedBy.mpr (.inl rfl)
    cases event with
    | clone => exact absurd rfl hclone
    | vforkDone => exact hw.kept
    | none => exact weaken (keeps_classifySignalStop hw.kept hin)
    | other => exact weaken (keeps_classifySignalStop hw.kept hin)
    | fork =>
      obtain ⟨htask, hne⟩ := hchild (.inl rfl)
      exact weaken (keeps_classifyFork hw.kept htask hne)
    | vfork =>
      obtain ⟨htask, hne⟩ := hchild (.inr rfl)
      exact weaken (keeps_classifyVfork hw htask hne)
    | exec =>
      have hr := h.replaced hd hst howns
        (p := (s.dbg.process.reportedBy d.tid).taskStopped d.tid)
      refine weaken (wp_classifyExec (World.pos_of_possible hd.possible) ?_ ?_ ?_ ?_)
      · exact hmessage.trans_le (World.exec_leader hd.possible hst).2
      · exact fun faults info sequence path _ _ => ⟨hr.policy, hr.alone, hr.group, hr.accounted⟩
      · intro _ faults e _
        exact ⟨hw.kept.policy, hw.kept.alone, hw.kept.group, hw.kept.accounted⟩
      · exact fun faults e _ => ⟨hr.policy, hr.alone, hr.group, hr.accounted⟩
  · intro d rest signal faults hd howns hst h0 _
    have hw := h.cloned hd hst howns h0
    have hk := hw.kept
    simp only [classifyEvent, wp_bind]
    refine wp_classifyClone rfl (fun _ => ?_) (fun e _ => ?_)
    · exact ⟨⟨hk.policy, hk.alone, hk.group, hk.accounted⟩,
        fun _ => ⟨⟨hk.policy, hk.alone, hk.group, hk.accounted⟩, hw.live, hw.inhabited⟩⟩
    · exact ⟨hk.policy, hk.alone, hk.group, hk.accounted⟩
  · intro d rest signal faults e hd howns hst _
    have := (h.stopped hd hst howns).kept
    exact ⟨this.policy, this.alone, this.group, this.accounted⟩

theorem keeps_waitAndClassify {expectedSingleStep : Bool} (h : s.Watching start) :
    wp (waitAndClassify tracees expectedSingleStep) (keeping start) s := by
  refine wp_waitAndClassify (I := Session.Watching start) (fun u hu => ?_) (fun _ _ => trivial) h
  refine wp_mono (keeps_waitPass hu) (fun r t ht => ?_) (fun _ _ ht => ht) (fun _ _ _ => trivial)
  cases r with
  | none => exact ht.2 rfl
  | some info => exact ht.1

end Accounting

end MiniDebugger
