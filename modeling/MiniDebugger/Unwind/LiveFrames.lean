import MiniDebugger.Debugger.Runs
import MiniDebugger.Memory.Words
import MiniDebugger.Sessions.Numbering
import MiniDebugger.Unwind.Cfi

/-!
# Frames of a debugging session

`liveInspectionFrames` is `build_inspection_frames` on a `Debugger`, and `validateInspectionFrame`
the check made before a frame built earlier is used. `LiveOperation` adds `set_register` to the
operations of the debugger, and `LiveRun` is a run of such operations. `LiveOperation.step` says
what one of them can do to what the frames are built from: report a new stop, or change the bytes
and registers it is meant to change.
-/

namespace MiniDebugger

open Command
open Function (update update_self update_of_ne)
open Std (ExtTreeMap)
open Lowlevel (memoryOf)

/-! ## Registers -/

def assignGeneralPurposeRegister (r : UserRegs) (name : String) (value : Word) :
    Option UserRegs :=
  match name with
  | "rax" => some { r with rax := value }
  | "rbx" => some { r with rbx := value }
  | "rcx" => some { r with rcx := value }
  | "rdx" => some { r with rdx := value }
  | "rsi" => some { r with rsi := value }
  | "rdi" => some { r with rdi := value }
  | "rbp" => some { r with rbp := value }
  | "rsp" => some { r with rsp := value }
  | "r8" => some { r with r8 := value }
  | "r9" => some { r with r9 := value }
  | "r10" => some { r with r10 := value }
  | "r11" => some { r with r11 := value }
  | "r12" => some { r with r12 := value }
  | "r13" => some { r with r13 := value }
  | "r14" => some { r with r14 := value }
  | "r15" => some { r with r15 := value }
  | _ => none

def setRegister (name : String) (value : Word) : Act Unit := do
  let tid ← stoppedTid
  let regs ← Lowlevel.getRegisters tid
  match assignGeneralPurposeRegister regs name value with
  | none =>
    raise (.invalidArgument ("unknown or read-only general-purpose register: " ++ name))
  | some regs => Lowlevel.setRegisters tid regs

/-! ## Runs with register changes -/

/-- The operations of `Debugger`, `set_register` included. -/
inductive LiveOperation where
  | debugger (op : Operation)
  | setRegister (name : String) (value : Word)

def LiveOperation.run (tracees : Tracees) : LiveOperation → Act Unit
  | .debugger op => (fun _ => ()) <$> op.run tracees
  | .setRegister name value => MiniDebugger.setRegister name value

/-- A session reached from one of `start` by operations that return (`none`) or throw, in steps
that are all `allowed`. -/
inductive LiveRun (tracees : Tracees)
    (allowed : Session → LiveOperation → Option Exception → Session → Prop)
    (start : Session → Prop) : Session → Prop
  | start {s : Session} (h : start s) : LiveRun tracees allowed start s
  | returned {s t : Session} {op : LiveOperation} {script : List Wakeup}
      {faults : List (Option Nat)} (h : LiveRun tracees allowed start s)
      (hrun : op.run tracees (s.facing script faults) = .returned () t)
      (hallowed : allowed s op none t) : LiveRun tracees allowed start t
  | raised {s t : Session} {op : LiveOperation} {script : List Wakeup}
      {faults : List (Option Nat)} {e : Exception} (h : LiveRun tracees allowed start s)
      (hrun : op.run tracees (s.facing script faults) = .raised e t)
      (hallowed : allowed s op (some e) t) : LiveRun tracees allowed start t

/-- What holds at the start and survives every operation holds throughout a run. -/
theorem LiveRun.invariant {tracees : Tracees}
    {allowed : Session → LiveOperation → Option Exception → Session → Prop}
    {start : Session → Prop} {I : Session → Prop} (base : ∀ s, start s → I s)
    (step : ∀ s op script faults, I s → wp (op.run tracees)
      ⟨fun _ t => allowed s op none t → I t, fun e t => allowed s op (some e) t → I t,
        fun _ _ => True⟩ (s.facing script faults))
    {s : Session} (h : LiveRun tracees allowed start s) : I s := by
  induction h with
  | start h => exact base _ h
  | returned _ hrun hallowed ih => exact wp_returned (step _ _ _ _ ih) hrun hallowed
  | raised _ hrun hallowed ih => exact wp_raised (step _ _ _ _ ih) hrun hallowed

/-! ## What the unwinder reads -/

/-- The words of a read from `offset` on, of which `n` are left. -/
def readWords (m : Memory) (address : Addr) (length : Nat) :
    Nat → Nat → Except Exception (List Byte)
  | 0, _ => .ok []
  | n + 1, offset =>
    if accessible m (address + BitVec.ofNat 64 offset) then do
      let rest ← readWords m address length n (offset + 8)
      return ((wordAt m (address + BitVec.ofNat 64 offset)).map (·.getD 0)).take
        (min 8 (length - offset)) ++ rest
    else .error (.ptraceError "PTRACE_PEEKDATA" eio)

/-- `Debugger::read_memory` on a memory, when no request fails (`readMemory_eq`). -/
def memoryReader (m : Memory) : CfiMemoryReader := fun address length =>
  readWords m address length ((length + 7) / 8) 0

theorem words_eq {s : Session} (hf : s.faults = []) (tid : Pid) (address : Addr) (length : Nat) :
    ∀ n offset, Lowlevel.readMemory.words tid address length n offset s =
      Command.ofExcept (readWords (memoryOf s tid) address length n offset) s := by
  intro n
  induction n with
  | zero => intro offset; rfl
  | succ n ih =>
    intro offset
    simp only [Lowlevel.readMemory.words, readWords, bind]
    rw [Lowlevel.peekWord_eq tid _ hf]
    by_cases hacc : accessible (memoryOf s tid) (address + BitVec.ofNat 64 offset) = true
    · rw [if_pos hacc, if_pos hacc]
      dsimp only
      rw [ih]
      cases readWords (memoryOf s tid) address length n (offset + 8) <;> rfl
    · rw [if_neg hacc, if_neg hacc]
      rfl

/-- `memoryReader` is what `read_memory` of the debugger computes. -/
theorem readMemory_eq {s : Session} (hf : s.faults = []) (tid : Pid) (address : Addr)
    (length : Nat) : Lowlevel.readMemory tid address length s =
      Command.ofExcept (memoryReader (memoryOf s tid) address length) s :=
  words_eq hf tid address length _ 0

/-- `/proc/<pid>/maps`, which changes only while the tracees run: it is a function of the reports
taken so far. -/
abbrev Maps := List (World × Delivery) → Pid → Option (List MapsLine)

/-- What the unwinder reads of a session. -/
def Session.tracee (s : Session) (maps : Maps) : Tracee where
  state := s.dbg.process.state
  pid := s.dbg.process.pid
  activeTid := s.dbg.process.currentTid
  stopSequence := s.dbg.stopInfo.sequence
  registers := s.world.regs s.dbg.process.currentTid
  readMemory := memoryReader (memoryOf s s.dbg.process.currentTid)
  maps := maps s.reports s.dbg.process.pid

/-- `build_inspection_frames` on a `Debugger`. The checks that come before `registers()` are
those of `buildInspectionFrames`. -/
def liveInspectionFrames (maps : Maps) (files : Files) (preferred : Preferred)
    (maxFrames : Nat) : Act (List InspectionFrameContext) := do
  let state ← view (·.process.state)
  when (maxFrames ≠ 0 ∧ state = .stopped) (do let _ ← registers)
  let tracee ← read (·.tracee maps)
  ofExcept (buildInspectionFrames tracee files preferred maxFrames)

def validateInspectionFrame (frame : InspectionFrameContext) : Act Unit := do
  let d ← view id
  if d.process.state ≠ .stopped then
    raise (.logicError "inspection-frame local-value lookup requires a stopped tracee")
  else if frame.processPid ≠ d.process.pid ∨ frame.tid ≠ d.process.currentTid then
    raise (.logicError "inspection frame belongs to a different process/TID domain")
  else if frame.originStopSequence ≠ d.stopInfo.sequence then
    raise (.logicError "inspection frame is stale after debugger stop changed")
  else
    let live ← registers
    if live.rip ≠ frame.originRuntimePc ∨ live.rsp ≠ frame.originStackPointer ∨
        frame.originFramePointer.any (live.rbp ≠ ·) then
      raise (.logicError "inspection frame is stale after execution state changed")
    else if frame.runtimePc = 0 ∨ frame.stackPointer = 0 ∨ frame.modulePath = "" then
      raise (.invalidArgument "inspection frame is incomplete")
    else pure ()

/-- The checks a frame has passed when it is accepted. -/
structure Session.Accepts (s : Session) (frame : InspectionFrameContext) : Prop where
  ready : s.dbg.process.Ready
  pid : frame.processPid = s.dbg.process.pid
  tid : frame.tid = s.dbg.process.currentTid
  stop : frame.originStopSequence = s.dbg.stopInfo.sequence
  rip : (s.world.regs s.dbg.process.currentTid).rip = frame.originRuntimePc
  rsp : (s.world.regs s.dbg.process.currentTid).rsp = frame.originStackPointer
  rbp : ∀ value, frame.originFramePointer = some value →
    (s.world.regs s.dbg.process.currentTid).rbp = value

theorem accepts_of_validateInspectionFrame {frame : InspectionFrameContext} {s : Session}
    (h : (validateInspectionFrame frame s).value? = some ()) : s.Accepts frame := by
  have hwp : wp (validateInspectionFrame frame)
      ⟨fun _ _ => s.Accepts frame, fun _ _ => True, fun _ _ => True⟩ s := by
    simp only [validateInspectionFrame, registers, wp_bind, wp_view, id, wp_ite, wp_raise, wp_pure]
    split
    · trivial
    split
    · trivial
    split
    · trivial
    rename_i hdomain hstop
    refine wp_stoppedTid (fun hstate hpos htask => ?_) fun _ _ => trivial
    refine Lowlevel.wp_getRegisters (fun faults => ?_) fun _ _ _ => trivial
    dsimp only
    split
    · trivial
    split
    · trivial
    rename_i hregs _
    simp only [not_or, not_not] at hdomain hstop hregs
    refine ⟨⟨hstate, hpos, htask⟩, hdomain.1, hdomain.2, hstop, hregs.1, hregs.2.1, ?_⟩
    intro value hvalue
    simpa [hvalue] using hregs.2.2
  cases hv : validateInspectionFrame frame s with
  | returned a t => exact wp_returned hwp hv
  | raised e t => rw [hv] at h; cases h
  | blocked w t => rw [hv] at h; cases h

end MiniDebugger
