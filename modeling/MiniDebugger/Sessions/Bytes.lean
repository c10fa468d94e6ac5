import MiniDebugger.Sessions.Ownership
import MiniDebugger.Sessions.SavedBytes

/-!
# Breakpoint tables and tracee memory over whole runs

In every state of a run the breakpoint tables of all domains are in order and the tracees' memory
shows what they say. This takes tracees that do not overwrite a byte under a breakpoint themselves,
and a few requests the debugger cannot do without; `breakpoint_tables_out_of_order` has a run for
each condition that goes wrong without it.
-/

namespace MiniDebugger

open Command
open Std (ExtTreeMap)
open Overlay

/-- The breakpoint tables of one process are in order and its memory shows what they say. -/
structure Domain.InOrder (next : Nat) (m : Memory) (D : Domain) : Prop where
  forward : ∀ (a : Addr) (bp : Breakpoint), D.table[a]? = some bp →
    bp.address = a ∧ D.ids[bp.id]? = some a
  backward : ∀ (i : Nat) (a : Addr), D.ids[i]? = some a →
    ∃ bp, D.table[a]? = some bp ∧ bp.id = i
  issued : ∀ (i : Nat) (a : Addr), D.ids[i]? = some a → i < next
  byte : ∀ (a : Addr) (bp : Breakpoint), D.table[a]? = some bp →
    m a = some (if bp.installed then int3 else bp.originalByte)
  displaced : D.process.live → ∀ (a : Addr) (bp : Breakpoint), D.table[a]? = some bp →
    bp.installed = false → ∃ p, D.pending = some p ∧ p.address = a

/-- The tables of the active process and of every retained one are in order. -/
structure Session.BreakpointsInOrder (s : Session) : Prop where
  active : s.dbg.domain.InOrder s.dbg.nextBreakpointId (s.world.memory s.dbg.process.pid)
  retained : ∀ (pid : Pid) (domain : RetainedProcessDomain),
    s.dbg.retainedProcesses[pid]? = some domain →
    domain.domain.InOrder s.dbg.nextBreakpointId (s.world.memory domain.process.pid)

/-- A tracee does not change a byte under a breakpoint of the active process, except that `exec`
replaces the whole image. -/
def leavesBreakpoints (s : Session) (d : Delivery) : Bool :=
  d.status.isExec || s.world.groupOf d != s.dbg.process.pid ||
    s.dbg.breakpointsByAddress.toList.all fun entry =>
      s.world.memoryAfter d entry.1 == s.world.memory s.dbg.process.pid entry.1

/-- The event message of an `exec` can be read. -/
def execRead (s : Session) (d : Delivery) : Bool :=
  match d.status with
  | .stopped _ .exec => !s.nextFails
  | _ => true

/-- When the debugger moves to a child with breakpoints in place, no request fails after the options
of the child have been set. -/
def handOverGranted (s : Session) (d : Delivery) : Bool :=
  match d.status with
  | .stopped _ .fork =>
    s.dbg.forkFollowPolicy != .child || s.forkServed ||
      !s.dbg.breakpointsByAddress.toList.any fun entry => entry.2.installed
  | _ => true

/-- Tracees that leave the breakpoints alone, with no failure of a request that the debugger cannot
do without. -/
def breakpointsKept : Tracees := fun s d =>
  calm s d && leavesBreakpoints s d && execRead s d && handOverGranted s d

/-- Operations that return, or throw without a failed access to a byte in the middle of a resume;
`detach` has to succeed. -/
def succeeding : Operation → Reply → Prop := fun op reply =>
  match reply with
  | .ok _ => True
  | .error e => op.detaches = false ∧ (op.resumes = true → e.isByteError = false)

theorem heard_of_granted {s : Session} {d : Delivery} (hexec : execRead s d = true)
    (hfork : handOverGranted s d = true) : s.Heard d where
  exec signal hst := by simpa [execRead, hst] using hexec
  fork signal hst hpolicy harmed := by
    obtain ⟨a, ha⟩ := harmed
    simp only [hasEntry, Option.any_eq_true, beq_iff_eq] at ha
    obtain ⟨bp, hbp, hin⟩ := ha
    have hany : (s.dbg.breakpointsByAddress.toList.any fun entry => entry.2.installed) = true :=
      List.any_eq_true.mpr ⟨(a, bp), ExtTreeMap.mem_toList_iff_getElem?_eq_some.mpr hbp, hin⟩
    simpa [handOverGranted, hst, hpolicy, hany] using hfork

theorem tame_breakpointsKept : Tame true breakpointsKept := by
  have split : ∀ {s d}, breakpointsKept s d = true → calm s d = true ∧
      leavesBreakpoints s d = true ∧ execRead s d = true ∧ handOverGranted s d = true := by
    intro s d h
    simpa only [breakpointsKept, Bool.and_eq_true, and_assoc] using h
  refine ⟨fun s d h => tame_calm.calm s d (split h).1, fun _ s d h hexec hgroup a ha => ?_,
    fun _ s d h => heard_of_granted (split h).2.2.1 (split h).2.2.2⟩
  have h := (split h).2.1
  simp only [leavesBreakpoints, hexec, hgroup, bne_self_eq_false, Bool.or_false, Bool.false_or,
    List.all_eq_true, beq_iff_eq] at h
  obtain ⟨bp, hbp⟩ := Option.isSome_iff_exists.mp (ExtTreeMap.isSome_getElem?_iff_mem.mpr ha)
  exact h (a, bp) (ExtTreeMap.mem_toList_iff_getElem?_eq_some.mpr hbp)

theorem Domain.Sound.inOrder {next : Nat} {m : Memory} {D : Domain} (h : D.Sound next)
    (hbytes : Armed int3 (patches D.table) m) : D.InOrder next m :=
  ⟨h.forward, h.backward, h.below, fun a _ hbp => hbytes a _ (patches_eq_some hbp), h.displaced⟩

/-- In every state of a run the breakpoint tables and the memory of the tracees agree, and no
breakpoint id has been handed out twice. Whatever operation comes next keeps the byte saved for a
breakpoint, unless it is the one that adds the breakpoint or writes there. -/
theorem breakpoint_tables_in_order {log : List Result} {s : Session}
    (h : Run breakpointsKept succeeding log s) :
    s.BreakpointsInOrder ∧ (issuedIds log).Nodup ∧
      (∀ i ∈ issuedIds log, i < s.dbg.nextBreakpointId) ∧
      ∀ op script faults, wp (op.run breakpointsKept) (saving (s.facing script faults) op)
        (s.facing script faults) := by
  have hgood := h.good tame_breakpointsKept fun _ _ hop => ⟨hop.1, fun _ => hop.2⟩
  have hbytes := hgood.bytes rfl
  refine ⟨⟨hgood.tables.sound.inOrder hbytes.active, fun pid domain hdomain => ?_⟩,
    hgood.tables.issued.1, hgood.tables.issued.2, fun op script faults => ?_⟩
  · have hk := hgood.tables.kept pid domain hdomain
    have hkey : domain.process.pid = pid := hk.key
    rw [hkey]
    exact hk.sound.inOrder (hbytes.kept pid domain hdomain)
  · have hgood : (s.facing script faults).core.Good true (issuedIds log) := hgood
    exact saving_run hgood op

/-- A launched process with one breakpoint in place. -/
def Session.armed (tracees : Tracees) : Session :=
  (Session.launch 10 (fun _ => some 0x90) {}).after tracees (.addBreakpoint 0x1000) []

theorem armed_run {tracees : Tracees} {allowed : Operation → Reply → Prop}
    (hallowed : allowed (.addBreakpoint 0x1000) (.ok (.breakpoint 1))) :
    Run tracees allowed [.breakpoint 1] (Session.armed tracees) :=
  (Run.start (started_launch (by decide) _ _)).after _ _ rfl hallowed

/-- The process has run onto its breakpoint, which is lifted for the moment. -/
def Session.onBreakpoint : Session :=
  (Session.armed breakpointsKept).after breakpointsKept (.continueExecution .suppress)
    [.report { tid := 10, status := .stopped sigtrap .none, regs := { rip := 0x1001 } }]

theorem breakpoint_tables_in_order_hit :
    Session.onBreakpoint.BreakpointsInOrder ∧
      hasEntry Session.onBreakpoint.dbg 0x1000 false = true ∧
      Session.onBreakpoint.world.memory 10 0x1000 = some 0x90 := by
  have harmed : Run breakpointsKept succeeding _ (Session.armed breakpointsKept) :=
    armed_run trivial
  have hrun := harmed.after (.continueExecution .suppress)
    [.report { tid := 10, status := .stopped sigtrap .none, regs := { rip := 0x1001 } }]
    (r := .stop { reason := .breakpoint, value := sigtrap, tid := 10, sequence := 1
                  breakpointAddress := some 0x1000 }) (by decide +kernel) trivial
  exact ⟨(breakpoint_tables_in_order hrun).1, by decide +kernel, by decide +kernel⟩

/-! ## What the conditions are for -/

/-- With these tracees a state is reached in which the tables and the memory disagree. -/
def Disordered (tracees : Tracees) : Prop :=
  ∃ log s, Run tracees succeeding log s ∧ ¬s.BreakpointsInOrder

/-- The entry at `0x1000` says that its `INT3` is in place, and the memory says otherwise. -/
theorem not_inOrder_of_stale {s : Session}
    (hentry : s.dbg.breakpointsByAddress[(0x1000 : Addr)]? = some ⟨1, 0x1000, 0x90, true⟩)
    (hbyte : s.world.memory s.dbg.process.pid 0x1000 ≠ some int3) : ¬s.BreakpointsInOrder :=
  fun h => hbyte (h.active.byte 0x1000 _ hentry)

/-- A tracee writes over the `INT3` in its own code. -/
theorem disordered_overwritten :
    Disordered fun s d => calm s d && execRead s d && handOverGranted s d := by
  refine ⟨_, _, (armed_run trivial).after (.continueExecution .suppress)
    [.report { tid := 10, status := .stopped 10 .none
               effect := fun m => Function.update m 0x1000 (some 0x91) }]
    (r := .stop { reason := .signal, value := 10, tid := 10, sequence := 1 }) ?_ trivial,
    not_inOrder_of_stale ?_ ?_⟩ <;> decide +kernel

/-- The image is replaced, and the event message of the `exec` cannot be read. -/
theorem disordered_unread :
    Disordered fun s d => calm s d && leavesBreakpoints s d && handOverGranted s d := by
  refine ⟨_, _, (armed_run trivial).failed (.continueExecution .suppress)
    [.report { tid := 10, status := .stopped sigtrap .exec, effect := fun _ _ => some 0x90 }]
    [none, some 3] (e := .ptraceError "PTRACE_GETEVENTMSG" 3) ?_ ⟨rfl, fun _ => rfl⟩,
    not_inOrder_of_stale ?_ ?_⟩ <;> decide +kernel

/-- A process with one breakpoint whose children are to be followed. -/
theorem armed_following {tracees : Tracees} :
    Run tracees succeeding [.done, .breakpoint 1]
      ((Session.armed tracees).after tracees (.setForkFollowPolicy .child) []) :=
  (armed_run trivial).after _ _ rfl trivial

/-- The parent of a fork cannot be released once its bytes have been restored. -/
theorem disordered_handOver :
    Disordered fun s d => calm s d && leavesBreakpoints s d && execRead s d := by
  refine ⟨_, _, armed_following.failed (.continueExecution .suppress)
    [.report { tid := 10, status := .stopped sigtrap .fork, message := 12 }]
    [none, none, none, none, none, some 3] (e := .ptraceError "PTRACE_DETACH" 3) ?_
    ⟨rfl, fun _ => rfl⟩, not_inOrder_of_stale ?_ ?_⟩ <;> decide +kernel

/-- Another thread replaces the image while the debugger waits for the end of a `vfork`. -/
theorem disordered_vfork :
    Disordered fun s d => leavesBreakpoints s d && execRead s d && handOverGranted s d := by
  have hstart : Run (fun s d => leavesBreakpoints s d && execRead s d && handOverGranted s d)
      succeeding [.breakpoint 1] (Session.attachedPair.after _ (.addBreakpoint 0x1000) []) :=
    (Run.start started_attachedPair).after _ _ rfl trivial
  refine ⟨_, _, hstart.failed (.continueExecution .suppress)
    [.report { tid := 10, status := .stopped sigtrap .vfork, message := 12
               transient := [.exited 0] },
      .report { tid := 10, status := .stopped sigtrap .exec, message := 11
                effect := fun _ _ => some 0x90 }] []
    (e := .runtimeError "followed parent did not stop at PTRACE_EVENT_VFORK_DONE") ?_
    ⟨rfl, fun _ => rfl⟩, not_inOrder_of_stale ?_ ?_⟩ <;> decide +kernel

/-- None of the conditions can be left out. -/
theorem breakpoint_tables_out_of_order :
    Disordered (fun s d => calm s d && execRead s d && handOverGranted s d) ∧
      Disordered (fun s d => calm s d && leavesBreakpoints s d && handOverGranted s d) ∧
      Disordered (fun s d => calm s d && leavesBreakpoints s d && execRead s d) ∧
      Disordered (fun s d => leavesBreakpoints s d && execRead s d && handOverGranted s d) :=
  ⟨disordered_overwritten, disordered_unread, disordered_handOver, disordered_vfork⟩

end MiniDebugger
