import Mathlib.Data.BitVec
import Mathlib.Logic.Function.Basic

/-!
# The kernel side of a traced process

The debugger reaches its tracees through `ptrace` and `waitpid` only. `World` is what those two
calls can observe or change: the memory of each process, the registers and debug registers of
each task, and which tasks are running. Everything a tracee does on its own between two stops is
a `Delivery`: the wait status that `waitpid` hands out next, with the registers at that stop and
the effect of the run on the memory of the process.

`World.possible` are the rules of the kernel that the debugger relies on: only running tasks
stop, a new process id is fresh, a new thread first stops with `SIGSTOP`, `exec` is reported for
the thread-group leader, and executing `0xCC` at `a` stops with `SIGTRAP` and `RIP = a + 1`.
-/

namespace MiniDebugger

open Std (ExtTreeMap)
open Function (update)

/-- `pid_t`, with `-1` for no task. -/
abbrev Pid := Int
abbrev Word := BitVec 64
abbrev Addr := BitVec 64
abbrev Byte := BitVec 8

instance : Std.TransOrd Addr := BitVec.instTransOrd

theorem toNat_sub_one {pc : Word} (h : pc ≠ 0) : (pc - 1).toNat + 1 = pc.toNat := by
  have hpos : pc.toNat ≠ 0 := fun hzero => h (BitVec.eq_of_toNat_eq (by simpa using hzero))
  have hlt := pc.isLt
  have hone : (1 : Word).toNat = 1 := rfl
  rw [BitVec.toNat_sub, hone]
  omega

/-- The bytes of an address space; `none` where nothing is mapped. -/
abbrev Memory := Addr → Option Byte

def sigkill : Nat := 9
def sigtrap : Nat := 5
def sigstop : Nat := 19

/-- `std::numeric_limits<pid_t>::max()` -/
def pidMax : Nat := 2147483647

def eio : Nat := 5
def esrch : Nat := 3

/-- `kInt3` -/
def int3 : Byte := 0xcc

/-- `user_regs_struct`, restricted to the registers the debugger names. -/
structure UserRegs where
  rax : Word := 0
  rbx : Word := 0
  rcx : Word := 0
  rdx : Word := 0
  rsi : Word := 0
  rdi : Word := 0
  rbp : Word := 0
  rsp : Word := 0
  r8 : Word := 0
  r9 : Word := 0
  r10 : Word := 0
  r11 : Word := 0
  r12 : Word := 0
  r13 : Word := 0
  r14 : Word := 0
  r15 : Word := 0
  rip : Word := 0
  deriving DecidableEq, Repr

/-- The `status >> 16` of a ptrace stop. -/
inductive PtraceEvent where
  | none | fork | vfork | clone | exec | vforkDone | other
  deriving DecidableEq, Repr

inductive WaitStatus where
  | exited (code : Nat)
  | signaled (signal : Nat)
  | stopped (signal : Nat) (event : PtraceEvent)
  deriving DecidableEq, Repr

/-- `WIFSTOPPED` -/
def WaitStatus.isStopped : WaitStatus → Bool
  | .stopped _ _ => true
  | _ => false

/-- `PTRACE_EVENT_VFORK_DONE` -/
def WaitStatus.isVforkDone : WaitStatus → Bool
  | .stopped _ .vforkDone => true
  | _ => false

/-- `PTRACE_EVENT_CLONE` -/
def WaitStatus.isClone : WaitStatus → Bool
  | .stopped _ .clone => true
  | _ => false

/-- `PTRACE_EVENT_EXEC` -/
def WaitStatus.isExec : WaitStatus → Bool
  | .stopped _ .exec => true
  | _ => false

inductive ResumeKind where
  | cont | step
  deriving DecidableEq, Repr

/-- What the debugger asked the kernel to do with a task. -/
inductive Request where
  | resume (kind : ResumeKind) (tid : Pid) (signal : Nat)
  | detach (tid : Pid) (signal : Nat)
  | kill (pid : Pid)
  deriving DecidableEq, Repr

/-- Why a task raised `SIGTRAP`. The debugger does not see this. -/
inductive Cause where
  /-- It ran into the `INT3` of a breakpoint that was installed there. -/
  | int3 (address : Addr)
  | step
  | other
  deriving DecidableEq, Repr

/-- One wait status, and what the tracee did up to it. -/
structure Delivery where
  tid : Pid
  status : WaitStatus
  /-- Thread group of a task the kernel reports for the first time. -/
  group : Pid := 0
  /-- `PTRACE_GETEVENTMSG` at this stop. -/
  message : Nat := 0
  cause : Cause := .other
  regs : UserRegs := {}
  debug : Nat → Word := fun _ => 0
  /-- The stores, mappings and image replacements since the last stop. -/
  effect : Memory → Memory := id
  /-- The executable behind `/proc/<pid>/exe` after an `exec`. -/
  exe : String := ""
  /-- Debug registers of a forked child, which the kernel copies or clears. -/
  childDebug : Nat → Word := fun _ => 0
  /-- First wait status of a forked child. -/
  childStatus : WaitStatus := .stopped sigstop .none
  /-- Later wait statuses of a vfork child, until it releases the address space. -/
  transient : List WaitStatus := []

structure World where
  /-- Memory by process id. -/
  memory : Pid → Memory
  /-- Thread group of each traced task. -/
  tasks : ExtTreeMap Pid Pid
  regs : Pid → UserRegs
  debug : Pid → Nat → Word
  /-- How each running task was resumed; `none` for a stopped one. -/
  mode : Pid → Option ResumeKind
  /-- Threads announced by a clone event whose initial `SIGSTOP` is still to come. -/
  starting : Pid → Bool
  message : Pid → Nat
  exe : Pid → String
  /-- Status still to be collected from the child of a `vfork`. -/
  transient : List WaitStatus
  childStatus : WaitStatus
  /-- Resume and release requests, latest first. -/
  requests : List Request

/-- The map that gives every listed task the same value. -/
def eachTask {V : Type} (tids : List Pid) (v : V) : ExtTreeMap Pid V :=
  tids.foldr (fun tid tasks => tasks.insert tid v) ∅

theorem getElem?_eachTask {V : Type} {tids : List Pid} {v : V} {tid : Pid} :
    (eachTask tids v)[tid]? = if tid ∈ tids then some v else none := by
  induction tids with
  | nil => simp [eachTask]
  | cons first rest ih =>
    rw [eachTask, List.foldr_cons, ExtTreeMap.getElem?_insert]
    by_cases h : first = tid
    · simp [h]
    · rw [if_neg (by simpa using h)]
      refine ih.trans ?_
      simp [Ne.symm h]

/-- The bytes of the word at `a`, lowest address first. -/
def wordAt (m : Memory) (a : Addr) : List (Option Byte) :=
  (List.range 8).map fun i => m (a + BitVec.ofNat 64 i)

/-- `PTRACE_PEEKDATA` and `PTRACE_POKEDATA` need the whole word mapped, without wrapping. -/
def accessible (m : Memory) (a : Addr) : Bool :=
  decide (a.toNat + 8 ≤ 2 ^ 64) && (wordAt m a).all (·.isSome)

namespace World

/-- The process a task belongs to. -/
def groupOf (w : World) (d : Delivery) : Pid := (w.tasks[d.tid]?).getD d.group

/-- No traced task or process has this id. -/
def fresh (w : World) (pid : Pid) : Bool :=
  w.tasks.toList.all fun task => decide (task.1 ≠ pid ∧ task.2 ≠ pid)

/-- The child named by the event message of a fork, vfork or clone stop. -/
def child (d : Delivery) : Pid := d.message

/-- The ids the kernel hands out. -/
def validId (message : Nat) : Bool := decide (0 < message ∧ message ≤ pidMax)

/-- The memory of the reporting process at the stop. -/
def memoryAfter (w : World) (d : Delivery) : Memory := d.effect (w.memory (w.groupOf d))

/-- The task that stops was running, or is a thread the debugger has not heard of yet; `exec`
can take over a stopped leader. -/
def canStop (w : World) (d : Delivery) (event : PtraceEvent) : Bool :=
  match w.tasks[d.tid]? with
  | some _ => (w.mode d.tid).isSome || decide (event = .exec)
  | none => w.fresh d.tid && decide (d.tid ≠ d.group)

/-- The statuses the kernel can report next for a task in this world. -/
def possibleStatus (w : World) (d : Delivery) : Bool :=
  match d.status with
  | .exited _ | .signaled _ => w.tasks.contains d.tid
  | .stopped signal event =>
    w.canStop d event &&
    (!(w.starting d.tid || !w.tasks.contains d.tid) ||
      decide (signal = sigstop ∧ event = .none)) &&
    match event with
    | .fork | .vfork => validId d.message && w.fresh (child d)
    | .clone => validId d.message && (w.fresh (child d) ||
      decide (w.tasks[child d]? = w.tasks[d.tid]? ∧ child d ≠ d.tid))
    | .exec => decide (w.tasks[d.tid]? = some d.tid ∧ d.message ≤ pidMax)
    | _ => true

/-- A trap has the cause it is said to have. By the time it is reported the `INT3` may have been
taken away again. -/
def possibleCause (w : World) (d : Delivery) : Bool :=
  match d.cause with
  | .int3 a =>
    -- user code runs in the lower half of the address space
    decide (d.status = .stopped sigtrap .none ∧ d.regs.rip = a + 1 ∧ a.toNat < 2 ^ 63)
  | .step => decide (d.status = .stopped sigtrap .none ∧ w.mode d.tid = some .step)
  | .other => true

def possible (w : World) (d : Delivery) : Bool :=
  decide (0 < d.tid) && w.possibleStatus d && w.possibleCause d

/-- A process created by `fork` or `vfork` starts as a stopped copy of its parent. -/
def addChild (w : World) (d : Delivery) : World :=
  { w with
    tasks := w.tasks.insert (child d) (child d)
    memory := update w.memory (child d) (w.memory (w.groupOf d))
    regs := update w.regs (child d) d.regs
    debug := update w.debug (child d) d.childDebug
    mode := update w.mode (child d) none
    transient := d.transient
    childStatus := d.childStatus }

/-- A thread announced by a clone event; it may have reported its initial stop already. -/
def addThread (w : World) (d : Delivery) : World :=
  if w.tasks.contains (child d) then w
  else
    { w with
      tasks := w.tasks.insert (child d) (w.groupOf d)
      mode := update w.mode (child d) (some .cont)
      starting := update w.starting (child d) true }

/-- `exec` puts another executable behind the process and ends its other threads. -/
def replaceImage (w : World) (d : Delivery) : World :=
  let gone := fun tid => tid ≠ d.tid ∧ w.tasks[tid]? = some (w.groupOf d)
  { w with
    exe := update w.exe d.tid d.exe
    mode := fun tid => if gone tid then none else w.mode tid
    starting := fun tid => if gone tid then false else w.starting tid }

/-- The task has ended; the run before that left its effect on the memory. -/
def ended (w : World) (d : Delivery) : World :=
  { w with
    memory := update w.memory (w.groupOf d) (w.memoryAfter d)
    tasks := w.tasks.erase d.tid
    mode := update w.mode d.tid none
    starting := update w.starting d.tid false }

/-- The task has stopped. -/
def stop (w : World) (d : Delivery) : World :=
  { w with
    memory := update w.memory (w.groupOf d) (w.memoryAfter d)
    tasks := w.tasks.insert d.tid (w.groupOf d)
    regs := update w.regs d.tid d.regs
    debug := update w.debug d.tid d.debug
    mode := update w.mode d.tid none
    starting := update w.starting d.tid false
    message := update w.message d.tid d.message }

/-- The world after `waitpid` has reported `d`. -/
def deliver (w : World) (d : Delivery) : World :=
  match d.status with
  | .exited _ | .signaled _ => w.ended d
  | .stopped _ event =>
    match event with
    | .fork | .vfork => (w.stop d).addChild d
    | .clone => (w.stop d).addThread d
    | .exec => (w.stop d).replaceImage d
    | _ => w.stop d

/-- The task the debugger resumed last, and how. -/
def lastResume (w : World) : Option (ResumeKind × Pid) :=
  w.requests.findSome? fun
    | .resume kind tid _ => some (kind, tid)
    | _ => none

/-! ## What a report changes -/

section Deliver

variable {w : World} {d : Delivery}

theorem fresh_iff {pid : Pid} :
    w.fresh pid = true ↔ ∀ tid group, w.tasks[tid]? = some group → tid ≠ pid ∧ group ≠ pid := by
  simp only [fresh, List.all_eq_true, decide_eq_true_eq, Prod.forall,
    ExtTreeMap.mem_toList_iff_getElem?_eq_some]

theorem pos_of_possible (h : w.possible d = true) : 0 < d.tid := by
  simp only [possible, Bool.and_eq_true, decide_eq_true_eq] at h
  exact h.1.1

theorem possibleStatus_of_possible (h : w.possible d = true) : w.possibleStatus d = true := by
  simp only [possible, Bool.and_eq_true] at h
  exact h.1.2

/-- Only `SIGSTOP` can be the first stop of a task. -/
theorem event_of_unknown {signal : Nat} {event : PtraceEvent} (h : w.possible d = true)
    (hst : d.status = .stopped signal event) (hnew : d.tid ∉ w.tasks) : event = .none := by
  have h := possibleStatus_of_possible h
  simp only [possibleStatus, hst, Bool.and_eq_true] at h
  have hc : w.tasks.contains d.tid = false := by
    rw [← Bool.not_eq_true, ExtTreeMap.contains_iff_mem]
    exact hnew
  simpa [hc] using And.right (a := signal = sigstop) (by simpa [hc] using h.1.2)

theorem fresh_child {signal : Nat} {event : PtraceEvent} (h : w.possible d = true)
    (hst : d.status = .stopped signal event) (hfork : event = .fork ∨ event = .vfork) :
    w.fresh (child d) = true := by
  have h := possibleStatus_of_possible h
  rcases hfork with rfl | rfl <;>
    simp only [possibleStatus, hst, Bool.and_eq_true] at h <;> exact h.2.2

theorem exec_leader {signal : Nat} (h : w.possible d = true)
    (hst : d.status = .stopped signal .exec) :
    w.tasks[d.tid]? = some d.tid ∧ d.message ≤ pidMax := by
  have h := possibleStatus_of_possible h
  simp only [possibleStatus, hst, Bool.and_eq_true, decide_eq_true_eq] at h
  exact h.2

/-- A thread that ran into an `INT3` stops with `SIGTRAP` just behind it. -/
theorem status_of_int3 {a : Addr} (h : w.possible d = true) (hcause : d.cause = .int3 a) :
    d.status = .stopped sigtrap .none ∧ d.regs.rip = a + 1 ∧ a.toNat < 2 ^ 63 := by
  simp only [possible, possibleCause, hcause, Bool.and_eq_true, decide_eq_true_eq] at h
  exact h.2

@[simp] theorem addThread_memory : (w.addThread d).memory = w.memory := by
  unfold addThread; split <;> rfl

@[simp] theorem addThread_message : (w.addThread d).message = w.message := by
  unfold addThread; split <;> rfl

@[simp] theorem addThread_regs : (w.addThread d).regs = w.regs := by
  unfold addThread; split <;> rfl

theorem addThread_tasks_of_mem {tid group : Pid} (h : w.tasks[tid]? = some group) :
    (w.addThread d).tasks[tid]? = some group := by
  unfold addThread
  split
  · exact h
  · rename_i hnew
    have hne : child d ≠ tid := by
      rintro rfl
      exact hnew (by simp [ExtTreeMap.mem_iff_isSome_getElem?, h])
    simpa [ExtTreeMap.getElem?_insert, hne] using h

@[simp] theorem addThread_requests : (w.addThread d).requests = w.requests := by
  unfold addThread; split <;> rfl

/-- A report is not a request. -/
theorem deliver_lastResume : (w.deliver d).lastResume = w.lastResume := by
  have hrequests : (w.deliver d).requests = w.requests := by
    rcases hst : d.status with code | signal | ⟨signal, event⟩
    · simp [deliver, hst, ended]
    · simp [deliver, hst, ended]
    · cases event <;> simp [deliver, hst, stop, addChild, replaceImage]
  rw [lastResume, hrequests]
  rfl

/-- A report does not move other tasks to another process. -/
theorem deliver_tasks_of_ne {tid group : Pid} (h : w.possible d = true) (hne : tid ≠ d.tid)
    (htid : w.tasks[tid]? = some group) : (w.deliver d).tasks[tid]? = some group := by
  rcases hst : d.status with code | signal | ⟨signal, event⟩
  · simp [deliver, hst, ended, ExtTreeMap.getElem?_erase, hne.symm, htid]
  · simp [deliver, hst, ended, ExtTreeMap.getElem?_erase, hne.symm, htid]
  · have hstop : (w.stop d).tasks[tid]? = some group := by
      simp [stop, ExtTreeMap.getElem?_insert, hne.symm, htid]
    have hfork : event = .fork ∨ event = .vfork → child d ≠ tid := fun he =>
      ((fresh_iff.mp (fresh_child h hst he) tid group htid).1).symm
    cases event with
    | fork | vfork =>
      simpa [deliver, hst, addChild, ExtTreeMap.getElem?_insert, hfork] using hstop
    | clone => simpa only [deliver, hst] using addThread_tasks_of_mem hstop
    | exec | none | vforkDone | other => simpa [deliver, hst, replaceImage] using hstop

theorem deliver_tasks_self {signal : Nat} {event : PtraceEvent} (h : w.possible d = true)
    (hst : d.status = .stopped signal event) :
    (w.deliver d).tasks[d.tid]? = some (w.groupOf d) := by
  have hstop : (w.stop d).tasks[d.tid]? = some (w.groupOf d) := by simp [stop]
  have hfork : event = .fork ∨ event = .vfork → child d ≠ d.tid := by
    intro he hself
    by_cases hin : d.tid ∈ w.tasks
    · obtain ⟨group, hgroup⟩ := Option.isSome_iff_exists.mp
        (ExtTreeMap.isSome_getElem?_iff_mem.mpr hin)
      exact (fresh_iff.mp (fresh_child h hst he) d.tid group hgroup).1 hself.symm
    · rcases he with rfl | rfl <;> cases event_of_unknown h hst hin
  cases event with
  | fork | vfork =>
    simpa [deliver, hst, addChild, ExtTreeMap.getElem?_insert, hfork] using hstop
  | clone => simpa only [deliver, hst] using addThread_tasks_of_mem hstop
  | exec | none | vforkDone | other => simpa [deliver, hst, replaceImage] using hstop

theorem deliver_tasks_child {signal : Nat} {event : PtraceEvent}
    (hst : d.status = .stopped signal event) (hfork : event = .fork ∨ event = .vfork) :
    (w.deliver d).tasks[child d]? = some (child d) := by
  rcases hfork with rfl | rfl <;> simp [deliver, hst, addChild]

theorem stop_groupOf : (w.stop d).groupOf d = w.groupOf d := by
  simp [groupOf, stop]

/-- A thread announced by a clone event is a thread of the process that reports it. -/
theorem deliver_tasks_cloned {signal : Nat} (h : w.possible d = true)
    (hst : d.status = .stopped signal .clone) :
    (w.deliver d).tasks[child d]? = some (w.groupOf d) := by
  have hself : d.tid ∈ w.tasks := by
    by_contra hnew
    cases event_of_unknown h hst hnew
  have hchild : w.fresh (child d) = true ∨
      (w.tasks[child d]? = w.tasks[d.tid]? ∧ child d ≠ d.tid) := by
    have h := possibleStatus_of_possible h
    simp only [possibleStatus, hst, Bool.and_eq_true, Bool.or_eq_true, decide_eq_true_eq] at h
    exact h.2.2
  obtain ⟨group, hgroup⟩ := Option.isSome_iff_exists.mp
    (ExtTreeMap.isSome_getElem?_iff_mem.mpr hself)
  have hgroupOf : w.groupOf d = group := by simp [groupOf, hgroup]
  have hstop := stop_groupOf (w := w) (d := d)
  simp only [deliver, hst, addThread]
  split
  · rename_i hin
    have hin : child d ∈ (w.stop d).tasks := by simpa using hin
    rcases hchild with hfresh | ⟨heq, hne⟩
    · have hfresh := fresh_iff.mp hfresh
      have hne : d.tid ≠ child d := (hfresh d.tid group hgroup).1
      have hin : child d ∈ w.tasks := by simpa [stop, hne] using hin
      obtain ⟨g, hg⟩ := Option.isSome_iff_exists.mp
        (ExtTreeMap.isSome_getElem?_iff_mem.mpr hin)
      exact absurd rfl (hfresh _ g hg).1
    · simp [stop, ExtTreeMap.getElem?_insert, Ne.symm hne, heq, hgroup, hgroupOf]
  · simp [hstop]

theorem deliver_message {signal : Nat} {event : PtraceEvent}
    (hst : d.status = .stopped signal event) : (w.deliver d).message d.tid = d.message := by
  cases event <;> simp [deliver, hst, stop, addChild, replaceImage]

/-- Only the memory of the reporting process and of a forked child changes. -/
theorem deliver_memory_of_ne {p : Pid} (hp : p ≠ w.groupOf d)
    (hchild : ∀ signal event, d.status = .stopped signal event →
      event = .fork ∨ event = .vfork → p ≠ child d) :
    (w.deliver d).memory p = w.memory p := by
  rcases hst : d.status with code | signal | ⟨signal, event⟩
  · simp [deliver, hst, ended, hp]
  · simp [deliver, hst, ended, hp]
  · have := hchild signal event hst
    cases event <;> simp_all [deliver, stop, addChild, replaceImage]

theorem deliver_memory_self
    (hchild : ∀ signal event, d.status = .stopped signal event →
      event = .fork ∨ event = .vfork → w.groupOf d ≠ child d) :
    (w.deliver d).memory (w.groupOf d) = w.memoryAfter d := by
  rcases hst : d.status with code | signal | ⟨signal, event⟩
  · simp [deliver, hst, ended]
  · simp [deliver, hst, ended]
  · have := hchild signal event hst
    cases event <;> simp_all [deliver, stop, addChild, replaceImage]

/-- A forked child starts with the memory of its parent. -/
theorem deliver_memory_child {signal : Nat} {event : PtraceEvent}
    (hst : d.status = .stopped signal event) (hfork : event = .fork ∨ event = .vfork) :
    (w.deliver d).memory (child d) = w.memoryAfter d := by
  have hgroup := stop_groupOf (w := w) (d := d)
  rcases hfork with rfl | rfl <;> simp [deliver, hst, addChild, hgroup] <;> simp [stop]

end Deliver

end World

end MiniDebugger
