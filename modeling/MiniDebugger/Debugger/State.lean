import MiniDebugger.Command
import MiniDebugger.Process

/-!
# The state of a debugging session

`Debugger` has the fields of the class of that name. A `Session` puts it beside the kernel it
talks to and the two inputs no operation controls: `script`, what `waitpid` will report, and
`faults`, which of the coming `ptrace` requests fail. A theorem about every order of events is a
theorem about every script; an operation whose script is used up blocks in its wait.
-/

namespace MiniDebugger

open Std (ExtTreeMap ExtTreeSet)

inductive StopReason where
  | initialExec | attached | exec | threadCreated | threadExited | threadSignaled
  | processExited | processSignaled | breakpoint | watchpoint | singleStep | signal | trap
  | exited | signaled
  deriving DecidableEq, Repr

inductive SignalPolicy where
  | suppress | forward
  deriving DecidableEq, Repr

inductive ProcessEventKind where
  | none | fork | vfork
  deriving DecidableEq, Repr

inductive ForkFollowPolicy where
  | parent | child | both
  deriving DecidableEq, Repr

structure StopInfo where
  reason : StopReason
  value : Nat := 0
  breakpointAddress : Option Addr := none
  watchpointId : Option Nat := none
  watchpointAddress : Option Addr := none
  tid : Pid := -1
  newTid : Option Pid := none
  formerTid : Option Pid := none
  processEvent : ProcessEventKind := .none
  parentPid : Option Pid := none
  childPid : Option Pid := none
  retainsChild : Bool := false
  sequence : Nat := 0
  deriving DecidableEq, Repr

structure Breakpoint where
  id : Nat
  address : Addr
  originalByte : Byte
  installed : Bool
  deriving DecidableEq, Repr

structure Watchpoint where
  id : Nat
  address : Addr
  length : Nat
  deriving DecidableEq, Repr

structure PendingBreakpointStep where
  address : Addr
  tid : Pid
  deriving DecidableEq, Repr

structure DebugRegisterSnapshot where
  tid : Pid
  dr0 : Word
  dr6 : Word
  dr7 : Word
  deriving DecidableEq, Repr

/-- The registers saved at the last hit of each breakpoint by each thread. -/
abbrev RegisterSnapshots := List ((Pid × Addr) × UserRegs)

/-- What the debugger keeps for a process other than the active one. -/
structure RetainedProcessDomain where
  process : Process
  stopInfo : StopInfo
  executablePath : String
  pendingThreadStarts : ExtTreeSet Pid := ∅
  pendingSignals : ExtTreeMap Pid Nat := ∅
  breakpointsByAddress : ExtTreeMap Addr Breakpoint := ∅
  breakpointIds : ExtTreeMap Nat Addr := ∅
  breakpointRegisterSnapshots : RegisterSnapshots := []
  pendingBreakpointStep : Option PendingBreakpointStep := none
  watchpoint : Option Watchpoint := none
  watchpointRegisterSnapshot : Option DebugRegisterSnapshot := none

structure Debugger where
  process : Process
  stopInfo : StopInfo
  executablePath : String
  forkFollowPolicy : ForkFollowPolicy := .parent
  breakpointsByAddress : ExtTreeMap Addr Breakpoint := ∅
  breakpointIds : ExtTreeMap Nat Addr := ∅
  breakpointRegisterSnapshots : RegisterSnapshots := []
  nextBreakpointId : Nat := 1
  pendingBreakpointStep : Option PendingBreakpointStep := none
  watchpoint : Option Watchpoint := none
  watchpointRegisterSnapshot : Option DebugRegisterSnapshot := none
  nextWatchpointId : Nat := 1
  pendingThreadStarts : ExtTreeSet Pid := ∅
  pendingSignals : ExtTreeMap Pid Nat := ∅
  retainedProcesses : ExtTreeMap Pid RetainedProcessDomain := ∅

/-- What the next `waitpid` brings. -/
inductive Wakeup where
  | report (d : Delivery)
  | failure (errno : Nat)

/-- The calls in which the debugger can block. -/
inductive WaitCall where
  /-- `wait_active_process`, waiting for this task (`-1` for any). -/
  | active (requested : Pid)
  /-- The wait for `PTRACE_EVENT_VFORK_DONE`. -/
  | vforkDone
  /-- The wait for a vfork child that still shares its parent's memory. -/
  | transientChild (child : Pid)
  deriving DecidableEq, Repr

/-- A call of `waitpid`, or a report it returned with, and the state at that moment. -/
inductive WaitRecord where
  | waits (call : WaitCall) (dbg : Debugger)
  | takes (dbg : Debugger) (world : World) (d : Delivery)

structure Session where
  dbg : Debugger
  world : World
  /-- The counter behind `next_stop_sequence`. -/
  sequence : Nat := 0
  script : List Wakeup := []
  /-- The result of each coming ptrace request: an `errno`, or success; success when used up. -/
  faults : List (Option Nat) := []
  /-- What happened in `waitpid` so far, latest first. Properties of runs refer to it; the
  debugger itself cannot read it. -/
  history : List WaitRecord := []

/-- The next ptrace request fails. -/
def Session.nextFails (s : Session) : Bool :=
  match s.faults with
  | some _ :: _ => true
  | _ => false

/-- No ptrace request to come fails. -/
def Session.served (s : Session) : Bool := s.faults.all Option.isNone

/-- A step of the debugger. -/
abbrev Act := Command WaitCall Exception Session

/-- The tracees a run is about: which deliveries they produce in a session. -/
abbrev Tracees := Session → Delivery → Bool

/-- Tracees that do anything the kernel allows. -/
def anyTracees : Tracees := fun _ _ => true

open Command

/-- Read from the debugger's own state. -/
def view {α : Type} (f : Debugger → α) : Act α := read fun s => f s.dbg

def modifyDebugger (f : Debugger → Debugger) : Act Unit :=
  update fun s => { s with dbg := f s.dbg }

def modifyProcess (f : Process → Process) : Act Unit :=
  modifyDebugger fun d => { d with process := f d.process }

def Session.withProcess (s : Session) (p : Process) : Session :=
  { s with dbg := { s.dbg with process := p } }

/-- Run a fallible function on the process record. -/
def tryProcess (f : Process → Except Exception Process) : Act Unit := fun s =>
  match f s.dbg.process with
  | .ok p => .returned () (s.withProcess p)
  | .error e => .raised e s

@[simp] theorem wp_view {α : Type} (f : Debugger → α) (Q : Post WaitCall Exception Session α)
    (s : Session) : wp (view f) Q s = Q.returned (f s.dbg) s := rfl

@[simp] theorem wp_modifyDebugger (f : Debugger → Debugger)
    (Q : Post WaitCall Exception Session Unit) (s : Session) :
    wp (modifyDebugger f) Q s = Q.returned () { s with dbg := f s.dbg } := rfl

@[simp] theorem wp_modifyProcess (f : Process → Process)
    (Q : Post WaitCall Exception Session Unit) (s : Session) :
    wp (modifyProcess f) Q s =
      Q.returned () { s with dbg := { s.dbg with process := f s.dbg.process } } := rfl

theorem wp_tryProcess {f : Process → Except Exception Process}
    {Q : Post WaitCall Exception Session Unit} {s : Session}
    (ok : ∀ p, f s.dbg.process = .ok p → Q.returned () (s.withProcess p))
    (error : ∀ e, f s.dbg.process = .error e → Q.raised e s) : wp (tryProcess f) Q s := by
  unfold wp tryProcess
  rcases hf : f s.dbg.process with e | p
  · exact error e hf
  · exact ok p hf

/-- `StopInfo{reason, value}` with its thread; building one draws the next sequence number. -/
def makeStop (reason : StopReason) (value : Nat) (tid : Pid) : Act StopInfo := fun s =>
  .returned { reason, value, tid, sequence := s.sequence + 1 }
    { s with sequence := s.sequence + 1 }

@[simp] theorem wp_makeStop (reason : StopReason) (value : Nat) (tid : Pid)
    (Q : Post WaitCall Exception Session StopInfo) (s : Session) :
    wp (makeStop reason value tid) Q s =
      Q.returned { reason, value, tid, sequence := s.sequence + 1 }
        { s with sequence := s.sequence + 1 } := rfl

/-- Record a stop and report it. -/
def report (info : StopInfo) : Act StopInfo := do
  modifyDebugger fun d => { d with stopInfo := info }
  return info

@[simp] theorem wp_report (info : StopInfo) (Q : Post WaitCall Exception Session StopInfo)
    (s : Session) :
    wp (report info) Q s = Q.returned info { s with dbg := { s.dbg with stopInfo := info } } :=
  rfl

/-! ## Changes that do not matter

Reading and programming debug registers, drawing the fate of a ptrace request and numbering a
stop leave the tables, the process record and the memory of every tracee alone.
-/

/-- `t` is `s` up to coming ptrace results, debug registers and the stop counter. -/
def Session.Alike (s t : Session) : Prop :=
  ∃ faults sequence debug,
    t = { s with faults, sequence, world := { s.world with debug } }

instance : Std.Refl Session.Alike where
  refl s := ⟨s.faults, s.sequence, s.world.debug, rfl⟩

instance : IsTrans Session Session.Alike where
  trans _ _ _ := by
    rintro ⟨_, _, _, rfl⟩ ⟨_, _, _, rfl⟩
    exact ⟨_, _, _, rfl⟩

def Exception.isPtraceError : Exception → Bool
  | .ptraceError _ _ => true
  | _ => false

/-- A byte of the tracee's memory could not be read or written. -/
def Exception.isByteError : Exception → Bool
  | .ptraceError operation _ =>
    operation = "PTRACE_PEEKDATA" || operation = "PTRACE_POKEDATA"
  | _ => false

/-- The command changes nothing that matters and can only fail in `ptrace`. -/
abbrev Quiet {α : Type} (x : Act α) : Prop :=
  Within Session.Alike (fun e => e.isPtraceError = true) x

end MiniDebugger
