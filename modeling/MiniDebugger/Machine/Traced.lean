import MiniDebugger.Machine.Cpu
import MiniDebugger.Sessions.Tables

/-!
# A session with a deterministic tracee

`Traced tracees cpu start A pid k s` says that session `s` traces the one thread `pid` of a program
and that its registers and its logical memory are the `k`-th state of the native run. `wp_stepped`
and `wp_trapped` say what `wait_and_classify` reports for such a tracee: the end of a single step,
or the first breakpoint that the program runs into.
-/

namespace MiniDebugger

open Command
open Overlay
open Function (update update_self update_of_ne)
open Std (ExtTreeMap)

/-- The reports of the script that the tracees produce are stops of the program. -/
def Honest (tracees : Tracees) (cpu : Cpu) (pid : Pid) (script : List Wakeup) : Prop :=
  ∀ d, .report d ∈ script → ∀ u, tracees u d = true → cpu.Stops pid u.world d

/-- Neither a failed ptrace request nor a failed `waitpid`. -/
def Exception.Smooth (e : Exception) : Prop :=
  e.isPtraceError = false ∧ e ≠ .runtimeError "waitpid failed"

structure Traced (tracees : Tracees) (cpu : Cpu) (start : UserRegs × Memory) (A : Set Addr)
    (pid : Pid) (k : Nat) (s : Session) : Prop where
  positive : 0 < pid
  honest : Honest tracees cpu pid s.script
  leader : s.dbg.process.pid = pid
  only : ∀ tid ∈ s.dbg.process.taskStates, tid = pid
  tracked : pid ∈ s.dbg.process.taskStates
  alone : s.dbg.retainedProcesses = ∅
  known : s.dbg.pendingThreadStarts = ∅
  unwatched : s.dbg.watchpoint = none
  tasks : s.world.tasks[pid]? = some pid
  regs : s.world.regs pid = (cpu.native start k).1
  shows : Cpu.Shows A (patches s.dbg.breakpointsByAddress) (s.world.memory pid)
    (cpu.native start k).2
  bounded : ∀ (a : Addr) (bp : Breakpoint), s.dbg.breakpointsByAddress[a]? = some bp →
    a.toNat + 8 ≤ 2 ^ 64

/-- The thread is stopped. -/
structure Rests (pid : Pid) (s : Session) : Prop where
  stopped : s.dbg.process.state = .stopped
  selected : s.dbg.process.currentTid = pid
  task : s.dbg.process.taskState pid = some .stopped

/-- A breakpoint is lifted exactly for the displaced step that is due at RIP. -/
structure Settled (pid : Pid) (s : Session) : Prop where
  lifted : ∀ (a : Addr) (bp : Breakpoint), s.dbg.breakpointsByAddress[a]? = some bp →
    bp.installed = false → s.dbg.pendingBreakpointStep = some ⟨a, pid⟩
  pending : ∀ p, s.dbg.pendingBreakpointStep = some p →
    p.tid = pid ∧ p.address = (s.world.regs pid).rip ∧
    ∃ bp, s.dbg.breakpointsByAddress[p.address]? = some bp ∧ bp.installed = false

theorem Cpu.Stops.tid {cpu : Cpu} {pid : Pid} {w : World} {d : Delivery}
    (h : cpu.Stops pid w d) : d.tid = pid := by
  cases h with
  | stepped htid => exact htid
  | trapped j htid => exact htid

theorem Cpu.Stops.status {cpu : Cpu} {pid : Pid} {w : World} {d : Delivery}
    (h : cpu.Stops pid w d) : d.status = .stopped sigtrap .none := by
  cases h with
  | stepped _ hstatus => exact hstatus
  | trapped j _ hstatus => exact hstatus

section Wait

variable {tracees : Tracees} {cpu : Cpu} {start : UserRegs × Memory} {A : Set Addr} {pid : Pid}
  {k : Nat} {s : Session}

/-- The session once the stop `d` of the thread has been filed. -/
def Session.landed (s : Session) (call : WaitCall) (d : Delivery) (rest : List Wakeup) : Session :=
  ((s.waiting call).deliver d rest).withProcess
    ((s.dbg.process.reportedBy d.tid).taskStopped d.tid)

theorem Traced.delivered (h : Traced tracees cpu start A pid k s) {call : WaitCall}
    {requested : Pid} {d : Delivery} {rest : List Wakeup}
    (hd : Delivered tracees requested (s.waiting call) d rest) : cpu.Stops pid s.world d :=
  h.honest d (by rw [show s.script = _ from hd.script]; exact List.mem_cons_self)
    (s.waiting call) hd.produced

/-- The program's memory once it has stopped. -/
theorem Traced.landed_world (h : Traced tracees cpu start A pid k s) {d : Delivery}
    (hstops : cpu.Stops pid s.world d) (call : WaitCall) (rest : List Wakeup) :
    (s.landed call d rest).world.memory pid = d.effect (s.world.memory pid) ∧
    (s.landed call d rest).world.regs pid = d.regs ∧
    (s.landed call d rest).world.tasks[pid]? = some pid := by
  have htid := hstops.tid
  have hgroup : s.world.groupOf d = pid := by simp [World.groupOf, htid, h.tasks]
  have hworld : (s.landed call d rest).world = s.world.stop d := by
    show s.world.deliver d = _
    simp [World.deliver, hstops.status]
  rw [hworld]
  simp [World.stop, World.memoryAfter, hgroup, htid]

/-- Under the program `wait_active_process` files one of its stops. -/
theorem wp_waitActiveProcess_traced (h : Traced tracees cpu start A pid k s)
    {Q : Post WaitCall Exception Session WaitEvent}
    (landed : ∀ d rest, cpu.Stops pid s.world d → s.script = .report d :: rest →
      Q.returned { kind := .stopped, value := sigtrap, tid := pid }
        (s.landed (.active (-1)) d rest))
    (failed : ∀ t, Q.raised (.runtimeError "waitpid failed") t)
    (blocked : ∀ w t, Q.blocked w t) : wp (waitActiveProcess tracees) Q s := by
  simp only [waitActiveProcess, wait, wp_bind, wp_view, h.alone, wp_ite,
    ExtTreeMap.isEmpty_empty, Bool.not_true, Bool.false_eq_true, if_false]
  refine wp_waitFor (fun rest => failed _) ?_ ?_ ?_ ?_ ?_ (blocked _ _)
  · intro d rest hd hnot
    rw [(h.delivered hd).tid] at hnot
    exact absurd h.tracked hnot
  · intro d rest event p hd _ hended
    rw [(h.delivered hd).status] at hended
    cases hended
  · intro d rest signal event hd _ hstatus hevent
    have hstops := h.delivered hd
    rw [hstops.status] at hstatus
    cases hstatus
    have := landed d rest hstops hd.script
    rwa [← hstops.tid] at this
  · intro d rest signal faults hd _ hstatus
    rw [(h.delivered hd).status] at hstatus
    cases hstatus
  · intro d rest signal faults e hd _ hstatus
    rw [(h.delivered hd).status] at hstatus
    cases hstatus

theorem Process.landed_facts {p : Process} (hpid : pid ∈ p.taskStates)
    (honly : ∀ tid ∈ p.taskStates, tid = pid) :
    ((p.reportedBy pid).taskStopped pid).pid = p.pid ∧
    (∀ tid ∈ ((p.reportedBy pid).taskStopped pid).taskStates, tid = pid) ∧
    pid ∈ ((p.reportedBy pid).taskStopped pid).taskStates ∧
    ((p.reportedBy pid).taskStopped pid).taskState pid = some .stopped := by
  rw [Process.reportedBy, Process.track_of_mem hpid]
  refine ⟨rfl, fun tid htid => ?_, by simp [Process.taskStopped], by
    simp [Process.taskStopped, Process.taskState]⟩
  simp only [Process.taskStopped, ExtTreeMap.mem_insert] at htid
  rcases htid with heq | hmem
  · exact (compare_eq_iff_eq.mp heq).symm
  · exact honly tid hmem

/-- A plain `SIGTRAP` without new threads and watchpoints is the awaited step or a trap. -/
theorem wp_classifyEvent_traced {expected : Bool} (hknown : s.dbg.pendingThreadStarts = ∅)
    (hwatch : s.dbg.watchpoint = none) {Q : Post WaitCall Exception Session (Option StopInfo)}
    (stepped : ∀ info t, expected = true → s.Alike t → info.reason = .singleStep →
      Q.returned (some info) { t with dbg := { s.dbg with stopInfo := info } })
    (trapped : ∀ t, expected = false → s.Alike t →
      wp (classifyTrap pid) ⟨fun info => Q.returned (some info), Q.raised, Q.blocked⟩ t)
    (raised : ∀ e t, e.isPtraceError = true → Q.raised e t) :
    wp (classifyEvent tracees expected { kind := .stopped, value := sigtrap, tid := pid }) Q s := by
  have howned : ∀ tid, s.dbg.ownedWatchpoint tid = none := by
    intro tid
    simp [Debugger.ownedWatchpoint, hwatch]
  simp only [classifyEvent, wp_map]
  refine wp_classifySignalStop ?_ ?_ ?_ ?_ ?_ ?_
  · intro info hmem
    simp [hknown] at hmem
  · intro info _ hvalue
    exact absurd rfl hvalue
  · intro t info _ _ hwatched
    simp [howned] at hwatched
  · intro t info _ _ _ hexpected hlike hreason _
    exact stepped info t hexpected hlike hreason
  · intro t _ _ hexpected hlike
    exact trapped t hexpected hlike
  · exact fun t e _ he => raised e t he

/-- A state of the native run that the session has moved on to. -/
theorem Traced.moved (h : Traced tracees cpu start A pid k s) {t : Session} {k' : Nat}
    (hscript : ∀ w ∈ t.script, w ∈ s.script) (hleader : t.dbg.process.pid = s.dbg.process.pid)
    (honly : ∀ tid ∈ t.dbg.process.taskStates, tid = pid) (htracked : pid ∈ t.dbg.process.taskStates)
    (hdbg : t.dbg.retainedProcesses = s.dbg.retainedProcesses ∧
      t.dbg.pendingThreadStarts = s.dbg.pendingThreadStarts ∧ t.dbg.watchpoint = s.dbg.watchpoint)
    (htasks : t.world.tasks[pid]? = some pid)
    (hregs : t.world.regs pid = (cpu.native start k').1)
    (hshows : Cpu.Shows A (patches t.dbg.breakpointsByAddress) (t.world.memory pid)
      (cpu.native start k').2)
    (hbounded : ∀ (a : Addr) (bp : Breakpoint), t.dbg.breakpointsByAddress[a]? = some bp →
      a.toNat + 8 ≤ 2 ^ 64) : Traced tracees cpu start A pid k' t where
  positive := h.positive
  honest := fun d hd => h.honest d (hscript _ hd)
  leader := hleader.trans h.leader
  only := honly
  tracked := htracked
  alone := hdbg.1.trans h.alone
  known := hdbg.2.1.trans h.known
  unwatched := hdbg.2.2.trans h.unwatched
  tasks := htasks
  regs := hregs
  shows := hshows
  bounded := hbounded

/-- The filed stop leaves everything but the registers and the memory of the thread. -/
theorem Traced.landed_process (h : Traced tracees cpu start A pid k s) {d : Delivery}
    (hstops : cpu.Stops pid s.world d) (call : WaitCall) (rest : List Wakeup) :
    (s.landed call d rest).dbg.process.pid = s.dbg.process.pid ∧
    (∀ tid ∈ (s.landed call d rest).dbg.process.taskStates, tid = pid) ∧
    pid ∈ (s.landed call d rest).dbg.process.taskStates ∧ Rests pid (s.landed call d rest) := by
  have hprocess := Process.landed_facts h.tracked h.only
  rw [← hstops.tid] at hprocess ⊢
  exact ⟨hprocess.1, hprocess.2.1, hprocess.2.2.1, rfl, rfl, hprocess.2.2.2⟩

/-- The stop of a single step that fetched no `INT3`. -/
theorem Traced.stepped (h : Traced tracees cpu start A pid k s) (hspares : cpu.Spares start A)
    (hmode : s.world.mode pid = some .step)
    (hfetch : s.world.memory pid (cpu.native start k).1.rip ≠ some int3) (call : WaitCall)
    {d : Delivery} {rest : List Wakeup} (hstops : cpu.Stops pid s.world d)
    (hscript : s.script = .report d :: rest) :
    Traced tracees cpu start A pid (k + 1) (s.landed call d rest) := by
  obtain ⟨hmemory, hregisters, htasks⟩ := h.landed_world hstops call rest
  obtain ⟨hleader, honly, htracked, -⟩ := h.landed_process hstops call rest
  obtain ⟨hregs, hshows⟩ := h.shows.execute hspares hfetch
  have hnext : (d.regs, d.effect (s.world.memory pid)) =
      cpu.execute ((cpu.native start k).1, s.world.memory pid) := by
    cases hstops with
    | stepped _ _ _ _ hnext => rw [hnext, h.regs]
    | trapped j _ _ hmode' _ hfetch' =>
      obtain hcont | ⟨-, rfl⟩ := hmode'
      · rw [hmode] at hcont
        cases hcont
      · rw [h.regs] at hfetch'
        exact absurd hfetch' hfetch
  refine h.moved (fun w hw => ?_) hleader honly htracked ⟨rfl, rfl, rfl⟩ htasks ?_ ?_ h.bounded
  · rw [hscript]
    exact List.mem_cons_of_mem _ hw
  · rw [hregisters, ← hregs, ← hnext]
  · rw [hmemory]
    rw [← hnext] at hshows
    exact hshows

/-- What is reported at the end of a single step: the next state of the native run, with the
breakpoints as they were. -/
structure Stepped (tracees : Tracees) (cpu : Cpu) (start : UserRegs × Memory) (A : Set Addr)
    (pid : Pid) (k : Nat) (s : Session) (info : StopInfo) (t : Session) : Prop where
  reason : info.reason = .singleStep
  traced : Traced tracees cpu start A pid (k + 1) t
  rests : Rests pid t
  table : t.dbg.breakpointsByAddress = s.dbg.breakpointsByAddress
  pending : t.dbg.pendingBreakpointStep = s.dbg.pendingBreakpointStep

/-- `wait_and_classify` after a single step. -/
theorem wp_stepped (h : Traced tracees cpu start A pid k s) (hspares : cpu.Spares start A)
    (hmode : s.world.mode pid = some .step)
    (hfetch : s.world.memory pid (cpu.native start k).1.rip ≠ some int3) :
    wp (waitAndClassify tracees true) ⟨fun info t => Stepped tracees cpu start A pid k s info t,
      fun e _ => ¬e.Smooth, fun _ _ => True⟩ s := by
  refine wp_waitAndClassify (I := fun u => u = s) ?_ (fun _ _ => trivial) rfl
  rintro u rfl
  rw [waitPass, wp_bind]
  refine wp_waitActiveProcess_traced h (fun d rest hstops hscript => ?_) (fun t => ?_)
    (fun _ _ => trivial)
  · have htraced := h.stepped hspares hmode hfetch (.active (-1)) hstops hscript
    have hrests := (h.landed_process hstops (.active (-1)) rest).2.2.2
    refine wp_classifyEvent_traced htraced.known htraced.unwatched ?_ ?_ ?_
    · intro info v _ hlike hreason
      obtain ⟨faults, sequence, debug, rfl⟩ := hlike
      refine ⟨hreason, ?_, ⟨hrests.stopped, hrests.selected, hrests.task⟩, rfl, rfl⟩
      exact htraced.moved (fun w hw => hw) rfl htraced.only htraced.tracked ⟨rfl, rfl, rfl⟩
        htraced.tasks htraced.regs htraced.shows htraced.bounded
    · intro v hexpected
      cases hexpected
    · exact fun e _ he hsmooth => by simp [hsmooth.1] at he
  · exact fun hsmooth => hsmooth.2 rfl

/-- The byte under a breakpoint is the one the program has there. -/
theorem Traced.saved (h : Traced tracees cpu start A pid k s) {a : Addr} {bp : Breakpoint}
    (hbp : s.dbg.breakpointsByAddress[a]? = some bp) :
    (cpu.native start k).2 a = some bp.originalByte := by
  have hpatch := patches_eq_some hbp
  rw [← h.shows.logical, logical, hpatch, seen]
  split
  · rfl
  · rename_i hout
    rw [h.shows.armed a _ hpatch, Patch.cell, if_neg hout]

theorem space_eq {w : World} (htasks : w.tasks[pid]? = some pid) : Lowlevel.space w pid = pid := by
  simp [Lowlevel.space, htasks]

/-- Lifting or placing a breakpoint adds none. -/
theorem bounded_modify {table : ExtTreeMap Addr Breakpoint} {address a : Addr} {bp : Breakpoint}
    {f : Breakpoint → Breakpoint}
    (h : ∀ (a : Addr) (bp : Breakpoint), table[a]? = some bp → a.toNat + 8 ≤ 2 ^ 64)
    (hbp : (table.modify address f)[a]? = some bp) : a.toNat + 8 ≤ 2 ^ 64 := by
  have hold := h a
  rw [ExtTreeMap.getElem?_modify] at hbp
  grind

theorem poke_memory (htasks : s.world.tasks[pid]? = some pid) (address : Addr) (value : Byte) :
    (s.poke pid address value).world.memory pid =
      update (s.world.memory pid) address (some value) := by
  simp [Session.poke, space_eq htasks]

/-- An installed breakpoint shows as an `INT3`. -/
theorem Cpu.Shows.int3_of_mem {table : ExtTreeMap Addr Breakpoint} {m n : Memory} {a : Addr}
    (h : Cpu.Shows A (patches table) m n)
    (hinstalled : ∀ (a : Addr) (bp : Breakpoint), table[a]? = some bp → bp.installed = true)
    (hmem : a ∈ table) : m a = some int3 := by
  obtain ⟨bp, hbp⟩ := Option.isSome_iff_exists.mp (ExtTreeMap.isSome_getElem?_iff_mem.mpr hmem)
  rw [h.armed a _ (patches_eq_some hbp), Patch.cell, if_pos (hinstalled a bp hbp)]

/-- The one breakpoint that was lifted is the one the thread has been put back onto. -/
theorem settled_lifted {t : Session} {address : Addr} {bp : Breakpoint}
    {table : ExtTreeMap Addr Breakpoint}
    (htable : t.dbg.breakpointsByAddress =
      table.modify address fun bp => { bp with installed := false })
    (hpending : t.dbg.pendingBreakpointStep = some ⟨address, pid⟩)
    (hrip : (t.world.regs pid).rip = address) (hbp : table[address]? = some bp)
    (hinstalled : ∀ (a : Addr) (bp : Breakpoint), table[a]? = some bp → bp.installed = true) :
    Settled pid t := by
  constructor
  · intro a bp' hbp' hout
    rw [htable, ExtTreeMap.getElem?_modify] at hbp'
    rw [hpending]
    have := hinstalled a bp'
    grind
  · intro p hp
    rw [hpending] at hp
    cases hp
    refine ⟨rfl, hrip.symm, { bp with installed := false }, ?_, rfl⟩
    rw [htable, ExtTreeMap.getElem?_modify]
    simp [hbp]

/-- What is reported when the program runs into a breakpoint: it has run on the native run up to
the first breakpoint, which is lifted for the step that is due. -/
structure Trapped (tracees : Tracees) (cpu : Cpu) (start : UserRegs × Memory) (A : Set Addr)
    (pid : Pid) (k j : Nat) (s : Session) (info : StopInfo) (t : Session) : Prop where
  reason : info.reason = .breakpoint
  address : info.breakpointAddress = some (cpu.native start (k + j)).1.rip
  traced : Traced tracees cpu start A pid (k + j) t
  rests : Rests pid t
  settled : Settled pid t
  first : ∀ i < j, (cpu.native start (k + i)).1.rip ∉ s.dbg.breakpointsByAddress
  arrived : (cpu.native start (k + j)).1.rip ∈ s.dbg.breakpointsByAddress
  table : t.dbg.breakpointsByAddress = (s.dbg.breakpointsByAddress).modify
    (cpu.native start (k + j)).1.rip fun bp => { bp with installed := false }
  ids : t.dbg.breakpointIds = s.dbg.breakpointIds

/-- `wait_and_classify` after `PTRACE_CONT`, with all breakpoints in place. -/
theorem wp_trapped (h : Traced tracees cpu start A pid k s) (hspares : cpu.Spares start A)
    (hfree : cpu.FreeOfInt3 start) (hmode : s.world.mode pid = some .cont)
    (hinstalled : ∀ (a : Addr) (bp : Breakpoint), s.dbg.breakpointsByAddress[a]? = some bp →
      bp.installed = true) :
    wp (waitAndClassify tracees false)
      ⟨fun info t => ∃ j, Trapped tracees cpu start A pid k j s info t,
        fun e _ => ¬e.Smooth, fun _ _ => True⟩ s := by
  refine wp_waitAndClassify (I := fun u => u = s) ?_ (fun _ _ => trivial) rfl
  rintro u rfl
  rw [waitPass, wp_bind]
  refine wp_waitActiveProcess_traced h (fun d rest hstops hscript => ?_) (fun t => ?_)
    (fun _ _ => trivial)
  swap
  · exact fun hsmooth => hsmooth.2 rfl
  obtain ⟨hmemory, hregisters, htasks⟩ := h.landed_world hstops (.active (-1)) rest
  obtain ⟨hleader, honly, htracked, hrests⟩ := h.landed_process hstops (.active (-1)) rest
  have hknown : (u.landed (.active (-1)) d rest).dbg.pendingThreadStarts = ∅ := h.known
  have hunwatched : (u.landed (.active (-1)) d rest).dbg.watchpoint = none := h.unwatched
  refine wp_classifyEvent_traced hknown hunwatched ?_ ?_ ?_
  · intro info t hexpected
    cases hexpected
  swap
  · exact fun e _ he hsmooth => by simp [hsmooth.1] at he
  intro t _ hlike
  obtain ⟨faults, sequence, debug, rfl⟩ := hlike
  cases hstops with
  | stepped _ _ hstep =>
    rw [hmode] at hstep
    cases hstep
  | trapped j htid hstatus hmode' hrun hfetch hregs heffect =>
    rw [h.regs] at hrun hfetch hregs heffect
    obtain ⟨hcursor, hshows⟩ := h.shows.iterate hspares j hrun
    rw [Cpu.fetchesInt3, hcursor] at hfetch
    rw [hcursor] at hregs
    rw [← heffect, ← hmemory] at hshows hfetch
    obtain ⟨p, hp, -, hsaved⟩ := hshows.applied_of_int3 hfetch (hfree (k + j))
    -- the mark is a breakpoint of the table
    obtain ⟨bp, hbp, rfl⟩ := Option.map_eq_some_iff.mp hp
    have hrip : d.regs.rip - 1 = (cpu.native start (k + j)).1.rip := by
      rw [hregs]
      exact BitVec.add_sub_cancel _ _
    have hback : { d.regs with rip := d.regs.rip - 1 } = (cpu.native start (k + j)).1 := by
      rw [hrip, hregs]
    have hnonzero : d.regs.rip ≠ 0 := by
      have := h.bounded _ bp hbp
      rw [← hrip] at this
      bv_omega
    refine wp_classifyTrap (fun bp' faults info hbp' _ _ hreason _ haddress => ?_)
      (fun faults info htrap => ?_) (fun faults regs snapshots e he hsmooth => ?_)
    · rw [hregisters, hrip] at hbp' haddress
      obtain rfl : bp = bp' := Option.some.inj (hbp.symm.trans hbp')
      rw [hregisters, hback, hrip]
      refine ⟨j, hreason, haddress, ?_, ⟨hrests.stopped, hrests.selected, hrests.task⟩, ?_, ?_, ?_,
        rfl, rfl⟩
      · refine h.moved (fun w hw => ?_) hleader honly htracked ⟨rfl, rfl, rfl⟩ htasks ?_ ?_ ?_
        · rw [hscript]
          exact List.mem_cons_of_mem _ hw
        · simp [Session.hit, Session.stopWith]
        · have hcell := hshows.update (a := (cpu.native start (k + j)).1.rip)
            (x := some ⟨bp.originalByte, false⟩) (y := some bp.originalByte)
            (fun _ => hshows.inside _ (by simp [hp])) (fun p hp => by cases hp; rfl)
            (by rw [hsaved]; rfl)
          rw [← patches_setInstalled hbp] at hcell
          convert hcell using 1
          · rfl
          · exact poke_memory htasks _ _
        · exact fun a bp' => bounded_modify h.bounded
      · refine settled_lifted ?_ rfl (by simp [Session.hit, Session.stopWith]) hbp hinstalled
        rfl
      · intro i hi hmem
        obtain ⟨hcursor', hshows'⟩ := h.shows.iterate hspares i fun i' hi' => hrun i' (hi'.trans hi)
        have hfetch' := hrun i hi
        rw [Cpu.fetchesInt3, hcursor'] at hfetch'
        exact hfetch' (hshows'.int3_of_mem hinstalled hmem)
      · exact ExtTreeMap.mem_iff_isSome_getElem?.mpr (by simp [hbp])
    · refine absurd ⟨?_, ?_⟩ htrap
      · rw [hregisters]
        exact hnonzero
      · rw [hregisters, hrip]
        have hentry : u.dbg.breakpointsByAddress[(cpu.native start (k + j)).1.rip]? = some bp := hbp
        have hin := hinstalled _ bp hbp
        show ((u.dbg.breakpointsByAddress[_]?).any _) = true
        rw [hentry]
        simp [hin]
    · rw [hsmooth.1] at he
      cases he

end Wait

end MiniDebugger
