import MiniDebugger.Checks
import MiniDebugger.Dwarf.Operands
import MiniDebugger.Unwind.Walk

/-!
# Following the saved frame pointers

`unwind_frame_pointers` follows the records that `rbp` leads to: the frame pointer of the caller and
the return address behind it. `finish` reads the first of these records itself, with tests of its
own. The loop is a walk from the frame of the registers.
-/

namespace MiniDebugger

open Checks

inductive UnwindStopReason where
  | endOfChain | frameLimit | invalidFramePointer | memoryReadError
  deriving DecidableEq, Repr

structure StackFrame where
  instructionPointer : Word
  framePointer : Word
  deriving DecidableEq, Repr

structure Backtrace where
  frames : List StackFrame
  stopReason : UnwindStopReason
  deriving DecidableEq, Repr

/-- The thread of a debugger, and what `PTRACE_PEEKDATA` answers at each address: a word or an
error number. -/
structure PeekedThread where
  state : ProcessState
  userRegs : UserRegs
  peekData : Addr → Except Nat Word

namespace PeekedThread

def registers (thread : PeekedThread) : Except Exception UserRegs :=
  if thread.state ≠ .stopped then throw (.logicError "operation requires a stopped tracee")
  else return thread.userRegs

def peekWord (thread : PeekedThread) (address : Addr) : Except Exception Word :=
  match thread.peekData address with
  | .ok word => return word
  | .error errno => throw (.ptraceError "PTRACE_PEEKDATA" errno)

/-- The bytes of `n` words, of which the last may be cut. -/
def readWords (thread : PeekedThread) (address : Addr) (length : Nat) :
    Nat → Nat → Except Exception (List Byte)
  | 0, _ => return []
  | n + 1, offset => do
    let word ← thread.peekWord (address + BitVec.ofNat 64 offset)
    let rest ← thread.readWords address length n (offset + 8)
    return (fieldBytes 8 word.toNat).take (min 8 (length - offset)) ++ rest

def readMemory (thread : PeekedThread) (address : Addr) (length : Nat) :
    Except Exception (List Byte) :=
  if thread.state ≠ .stopped then throw (.logicError "operation requires a stopped tracee")
  else thread.readWords address length ((length + 7) / 8) 0

end PeekedThread

/-- `read_u64` -/
def recordWord (bytes : List Byte) (offset : Nat) : Word :=
  BitVec.ofNat 64 (littleEndian ((bytes.drop offset).take 8))

/-- The loop of `unwind_frame_pointers`. -/
def framePointerLoop (thread : PeekedThread) (maxFrames : Nat) (maxFrameSpan : Word)
    (framePointer : Word) (frames : List StackFrame) : Except Exception Backtrace :=
  if framePointer = 0 then return ⟨frames, .endOfChain⟩
  else if framePointer % 8 ≠ 0 then return ⟨frames, .invalidFramePointer⟩
  else
    match thread.readMemory framePointer 16 with
    | .error (.ptraceError _ _) => return ⟨frames, .memoryReadError⟩
    | .error e => throw e
    | .ok frameData =>
      let nextFramePointer := recordWord frameData 0
      let returnAddress := recordWord frameData 8
      if returnAddress = 0 then return ⟨frames, .endOfChain⟩
      else if nextFramePointer = 0 then
        return ⟨frames ++ [⟨returnAddress, 0⟩], .endOfChain⟩
      else if nextFramePointer ≤ framePointer ∨
          maxFrameSpan < nextFramePointer - framePointer then
        return ⟨frames, .invalidFramePointer⟩
      else if maxFrames ≤ frames.length + 1 then
        return ⟨frames ++ [⟨returnAddress, nextFramePointer⟩], .frameLimit⟩
      else
        framePointerLoop thread maxFrames maxFrameSpan nextFramePointer
          (frames ++ [⟨returnAddress, nextFramePointer⟩])
termination_by 2 ^ 64 - framePointer.toNat
decreasing_by
  have hnext : nextFramePointer = recordWord frameData 0 := rfl
  have hbound := nextFramePointer.isLt
  simp only [← hnext, BitVec.le_def] at *
  omega

def unwindFramePointers (thread : PeekedThread) (maxFrames : Nat) (maxFrameSpan : Word) :
    Except Exception Backtrace := do
  if maxFrames = 0 then
    throw (.invalidArgument "frame-pointer unwind requires a non-zero frame limit")
  if maxFrameSpan = 0 then
    throw (.invalidArgument "frame-pointer unwind requires a non-zero frame span")
  let regs ← thread.registers
  if maxFrames = 1 then return ⟨[⟨regs.rip, regs.rbp⟩], .frameLimit⟩
  framePointerLoop thread maxFrames maxFrameSpan regs.rbp [⟨regs.rip, regs.rbp⟩]

/-- `kMaxFrameSpan`, 16 MiB -/
def kMaxFrameSpan : Word := 16 * 1024 * 1024

/-- The bytes of the record, for `finish`. -/
def readableRecord (thread : PeekedThread) (framePointer : Word) :
    Except Exception (List Byte) :=
  match thread.readMemory framePointer 16 with
  | .error (.ptraceError _ _) =>
    throw (.invalidArgument "finish frame record is unreadable")
  | result => result

def framePointerReturnAddress (thread : PeekedThread) : Except Exception Word := do
  if thread.state ≠ .stopped then throw (.logicError "finish requires a stopped tracee")
  let regs ← thread.registers
  let framePointer := regs.rbp
  if framePointer = 0 then
    throw (.invalidArgument "finish requires a non-zero frame pointer")
  if framePointer % 8 ≠ 0 then
    throw (.invalidArgument "finish requires an aligned frame pointer")
  if BitVec.allOnes 64 - 16 < framePointer then
    throw (.invalidArgument "finish frame record overflows address space")
  let frameData ← readableRecord thread framePointer
  let previousFrame := recordWord frameData 0
  let returnAddress := recordWord frameData 8
  if returnAddress = 0 then
    throw (.invalidArgument "finish frame has no return address")
  if previousFrame ≠ 0 then
    if previousFrame % 8 ≠ 0 ∨ previousFrame ≤ framePointer ∨
        kMaxFrameSpan < previousFrame - framePointer then
      throw (.invalidArgument "finish encountered an invalid frame-pointer chain")
  return returnAddress

/-! ## Records -/

/-- The record at a frame pointer: the saved frame pointer and the return address. -/
def PeekedThread.record (thread : PeekedThread) (framePointer : Word) :
    Except Nat (Word × Word) := do
  let next ← thread.peekData framePointer
  let returnAddress ← thread.peekData (framePointer + 8)
  return (next, returnAddress)

section Records

variable {thread : PeekedThread} {framePointer : Word}

theorem recordWord_fieldBytes (first second : Word) :
    recordWord (fieldBytes 8 first.toNat ++ fieldBytes 8 second.toNat) 0 = first ∧
      recordWord (fieldBytes 8 first.toNat ++ fieldBytes 8 second.toNat) 8 = second := by
  have hword : ∀ word : Word, BitVec.ofNat 64 (littleEndian (fieldBytes 8 word.toNat)) = word := by
    intro word
    rw [littleEndian_fieldBytes, Nat.mod_eq_of_lt (by exact word.isLt), BitVec.ofNat_toNat,
      BitVec.setWidth_eq]
  unfold recordWord
  constructor
  · rw [List.drop_zero, List.take_left' (length_fieldBytes 8 _), hword]
  · rw [List.drop_left' (length_fieldBytes 8 _), List.take_of_length_le
      (length_fieldBytes 8 _).le, hword]

/-- A record is read if both of its words are. -/
theorem readMemory_record (hstopped : thread.state = .stopped) (framePointer : Word) :
    (∃ errno, thread.record framePointer = .error errno ∧
      thread.readMemory framePointer 16 = .error (.ptraceError "PTRACE_PEEKDATA" errno)) ∨
    ∃ next returnAddress frameData,
      thread.record framePointer = .ok (next, returnAddress) ∧
      thread.readMemory framePointer 16 = .ok frameData ∧
      recordWord frameData 0 = next ∧ recordWord frameData 8 = returnAddress := by
  have hread : thread.readMemory framePointer 16 = (do
      let next ← thread.peekWord framePointer
      let rest ← thread.readWords framePointer 16 1 8
      return (fieldBytes 8 next.toNat).take 8 ++ rest) := by
    simp only [PeekedThread.readMemory, hstopped, ne_eq, not_true_eq_false, if_false]
    simp only [PeekedThread.readWords, BitVec.add_zero]
    rfl
  unfold PeekedThread.record
  rw [hread]
  simp only [PeekedThread.readWords, PeekedThread.peekWord]
  cases hfirst : thread.peekData framePointer with
  | error errno => exact .inl ⟨errno, rfl, rfl⟩
  | ok next =>
    cases hsecond : thread.peekData (framePointer + 8) with
    | error errno => exact .inl ⟨errno, rfl, rfl⟩
    | ok returnAddress =>
      obtain ⟨hzero, height⟩ := recordWord_fieldBytes next returnAddress
      refine .inr ⟨next, returnAddress, _, rfl, ?_, hzero, height⟩
      simp [List.take_of_length_le]

end Records

/-! ## The chain -/

/-- The caller that the record of a frame names. -/
def nextFrame (thread : PeekedThread) (frame : StackFrame) : Option StackFrame :=
  if frame.framePointer = 0 ∨ frame.framePointer % 8 ≠ 0 then none
  else
    match thread.record frame.framePointer with
    | .error _ => none
    | .ok (next, returnAddress) => if returnAddress = 0 then none else some ⟨returnAddress, next⟩

/-- The frame pointer of the caller is zero or further up, but not too far. -/
def InSpan (maxFrameSpan : Word) (frame caller : StackFrame) : Prop :=
  caller.framePointer = 0 ∨
    (frame.framePointer < caller.framePointer ∧
      caller.framePointer - frame.framePointer ≤ maxFrameSpan)

instance (maxFrameSpan : Word) : DecidableRel (InSpan maxFrameSpan) := fun frame caller =>
  inferInstanceAs (Decidable (caller.framePointer = 0 ∨
    (frame.framePointer < caller.framePointer ∧
      caller.framePointer - frame.framePointer ≤ maxFrameSpan)))

section Walk

variable {thread : PeekedThread} {maxFrameSpan : Word} {frame caller : StackFrame}

theorem nextFrame_eq_some_iff : nextFrame thread frame = some caller ↔
    frame.framePointer ≠ 0 ∧ frame.framePointer % 8 = 0 ∧ caller.instructionPointer ≠ 0 ∧
      thread.record frame.framePointer =
        .ok (caller.framePointer, caller.instructionPointer) := by
  unfold nextFrame
  by_cases hpointer : frame.framePointer = 0 ∨ frame.framePointer % 8 ≠ 0
  · rw [if_pos hpointer]
    simp only [reduceCtorEq, false_iff]
    tauto
  · rw [if_neg hpointer]
    push Not at hpointer
    simp only [hpointer, ne_eq, not_false_eq_true, true_and]
    cases hrecord : thread.record frame.framePointer with
    | error errno => simp
    | ok record =>
      obtain ⟨next, returnAddress⟩ := record
      by_cases hreturn : returnAddress = 0
      · simp only [hreturn, if_true, reduceCtorEq, false_iff, Except.ok.injEq, Prod.mk.injEq]
        rintro ⟨hne, -, hzero⟩
        exact hne hzero.symm
      · simp only [hreturn, if_false, Option.some.injEq, Except.ok.injEq, Prod.mk.injEq]
        constructor
        · rintro rfl
          exact ⟨hreturn, rfl, rfl⟩
        · rintro ⟨-, rfl, rfl⟩
          rfl

theorem nextFrame_eq_none_of_record {errno : Nat}
    (h : thread.record frame.framePointer = .error errno) : nextFrame thread frame = none := by
  rw [Option.eq_none_iff_forall_ne_some]
  intro caller hcaller
  obtain ⟨_, _, _, hrecord⟩ := nextFrame_eq_some_iff.mp hcaller
  cases h.symm.trans hrecord

theorem nextFrame_eq_none_of_return {next : Word}
    (h : thread.record frame.framePointer = .ok (next, 0)) : nextFrame thread frame = none := by
  rw [Option.eq_none_iff_forall_ne_some]
  intro caller hcaller
  obtain ⟨_, _, hreturn, hrecord⟩ := nextFrame_eq_some_iff.mp hcaller
  rw [h, Except.ok.injEq, Prod.mk.injEq] at hrecord
  exact hreturn hrecord.2.symm

theorem nextFrame_eq_none_of_pointer (h : frame.framePointer = 0 ∨ frame.framePointer % 8 ≠ 0) :
    nextFrame thread frame = none :=
  if_pos h

/-- The loop walks on from the frame pushed last. -/
theorem framePointerLoop_eq (hstopped : thread.state = .stopped) {maxFrames : Nat}
    {frames : List StackFrame} (hlimit : frames.length < maxFrames) :
    ∃ reason, framePointerLoop thread maxFrames maxFrameSpan frame.framePointer frames =
      .ok ⟨frames ++
        walk (nextFrame thread) (InSpan maxFrameSpan) (maxFrames - frames.length) frame, reason⟩ := by
  obtain ⟨rounds, hrounds⟩ : ∃ rounds, maxFrames - frames.length = rounds + 1 :=
    ⟨maxFrames - frames.length - 1, by omega⟩
  rw [hrounds]
  induction rounds using Nat.strong_induction_on generalizing frame frames with
  | _ rounds ih =>
    have hends : nextFrame thread frame = none → ∀ reason,
        ∃ reason', (Except.ok ⟨frames, reason⟩ : Except Exception Backtrace) = .ok ⟨frames ++
          walk (nextFrame thread) (InSpan maxFrameSpan) (rounds + 1) frame, reason'⟩ :=
      fun hnone reason => ⟨reason, by rw [walk_of_none hnone, List.append_nil]⟩
    unfold framePointerLoop
    by_cases hzero : frame.framePointer = 0
    · rw [if_pos hzero]
      exact hends (nextFrame_eq_none_of_pointer (.inl hzero)) _
    by_cases haligned : frame.framePointer % 8 = 0
    swap
    · rw [if_neg hzero, if_pos haligned]
      exact hends (nextFrame_eq_none_of_pointer (.inr haligned)) _
    rw [if_neg hzero, if_neg (not_not.mpr haligned)]
    obtain ⟨errno, hrecord, hread⟩ |
        ⟨next, returnAddress, frameData, hrecord, hread, hnext, hreturn⟩ :=
      readMemory_record hstopped frame.framePointer
    · rw [hread]
      exact hends (nextFrame_eq_none_of_record hrecord) _
    · rw [hread]
      dsimp only
      rw [hnext, hreturn]
      by_cases hreturnZero : returnAddress = 0
      · rw [if_pos hreturnZero]
        exact hends (nextFrame_eq_none_of_return (hreturnZero ▸ hrecord)) _
      rw [if_neg hreturnZero]
      have hcaller : nextFrame thread frame = some ⟨returnAddress, next⟩ :=
        nextFrame_eq_some_iff.mpr ⟨hzero, haligned, hreturnZero, hrecord⟩
      by_cases hnextZero : next = 0
      · subst hnextZero
        rw [if_pos rfl, walk_of_accept hcaller (.inl rfl)]
        have hlast : nextFrame thread ⟨returnAddress, 0⟩ = none :=
          nextFrame_eq_none_of_pointer (.inl rfl)
        exact ⟨_, by rw [walk_of_none hlast]; rfl⟩
      rw [if_neg hnextZero]
      by_cases hinvalid : next ≤ frame.framePointer ∨ maxFrameSpan < next - frame.framePointer
      · have hreject : ¬InSpan maxFrameSpan frame ⟨returnAddress, next⟩ := by
          simp only [InSpan, hnextZero, false_or, BitVec.lt_def, BitVec.le_def] at hinvalid ⊢
          omega
        rw [if_pos hinvalid, walk_of_reject hcaller hreject]
        exact ⟨_, by rw [List.append_nil]; rfl⟩
      have haccept : InSpan maxFrameSpan frame ⟨returnAddress, next⟩ := by
        simp only [InSpan, hnextZero, false_or, BitVec.lt_def, BitVec.le_def] at hinvalid ⊢
        omega
      rw [if_neg hinvalid, walk_of_accept hcaller haccept]
      by_cases hfull : maxFrames ≤ frames.length + 1
      · have hlast : rounds = 0 := by omega
        subst hlast
        rw [if_pos hfull]
        exact ⟨_, rfl⟩
      · rw [if_neg hfull]
        obtain ⟨fewer, rfl⟩ : ∃ fewer, rounds = fewer + 1 := ⟨rounds - 1, by omega⟩
        have hlength : (frames ++ [(⟨returnAddress, next⟩ : StackFrame)]).length =
            frames.length + 1 := by simp
        obtain ⟨reason, hloop⟩ := @ih fewer (Nat.lt_succ_self fewer) ⟨returnAddress, next⟩
          (frames ++ [⟨returnAddress, next⟩]) (by omega) (by omega)
        refine ⟨reason, hloop.trans ?_⟩
        rw [List.append_assoc]
        rfl

/-- `caller` is the record stored at the frame pointer of `frame`. -/
structure Calls (thread : PeekedThread) (maxFrameSpan : Word) (frame caller : StackFrame) :
    Prop where
  pointer : frame.framePointer ≠ 0
  aligned : frame.framePointer % 8 = 0
  record : thread.record frame.framePointer =
    .ok (caller.framePointer, caller.instructionPointer)
  returns : caller.instructionPointer ≠ 0
  increasing : caller.framePointer ≠ 0 → frame.framePointer < caller.framePointer ∧
    caller.framePointer - frame.framePointer ≤ maxFrameSpan

/-- No record that can be followed is stored at the frame pointer of `frame`. -/
def Exhausted (thread : PeekedThread) (maxFrameSpan : Word) (frame : StackFrame) : Prop :=
  frame.framePointer = 0 ∨ frame.framePointer % 8 ≠ 0 ∨
    (∃ errno, thread.record frame.framePointer = .error errno) ∨
    ∃ next returnAddress, thread.record frame.framePointer = .ok (next, returnAddress) ∧
      (returnAddress = 0 ∨
        next ≠ 0 ∧ (next ≤ frame.framePointer ∨ maxFrameSpan < next - frame.framePointer))

/-- The frames from that of the registers on, each the caller of the one before, as many as there
are or are allowed. -/
structure FrameChain (thread : PeekedThread) (maxFrames : Nat) (maxFrameSpan : Word)
    (frames : List StackFrame) : Prop where
  first : frames[0]? = some ⟨thread.userRegs.rip, thread.userRegs.rbp⟩
  length_le : frames.length ≤ maxFrames
  calls : frames.IsChain (Calls thread maxFrameSpan)
  maximal : frames.length = maxFrames ∨ ∀ last ∈ frames.getLast?, Exhausted thread maxFrameSpan last

theorem calls_iff : Calls thread maxFrameSpan frame caller ↔
    nextFrame thread frame = some caller ∧ InSpan maxFrameSpan frame caller := by
  rw [nextFrame_eq_some_iff]
  constructor
  · intro h
    refine ⟨⟨h.pointer, h.aligned, h.returns, h.record⟩, ?_⟩
    by_cases hzero : caller.framePointer = 0
    · exact .inl hzero
    · exact .inr (h.increasing hzero)
  · rintro ⟨⟨hpointer, haligned, hreturns, hrecord⟩, hspan⟩
    exact ⟨hpointer, haligned, hrecord, hreturns, hspan.resolve_left⟩

theorem exhausted_of_stops
    (h : ∀ caller, nextFrame thread frame = some caller → ¬InSpan maxFrameSpan frame caller) :
    Exhausted thread maxFrameSpan frame := by
  by_cases hzero : frame.framePointer = 0
  · exact .inl hzero
  by_cases haligned : frame.framePointer % 8 = 0
  swap
  · exact .inr (.inl haligned)
  refine .inr (.inr ?_)
  cases hrecord : thread.record frame.framePointer with
  | error errno => exact .inl ⟨errno, rfl⟩
  | ok record =>
    obtain ⟨next, returnAddress⟩ := record
    refine .inr ⟨next, returnAddress, rfl, or_iff_not_imp_left.mpr fun hreturn => ?_⟩
    have hreject := h ⟨returnAddress, next⟩
      (nextFrame_eq_some_iff.mpr ⟨hzero, haligned, hreturn, hrecord⟩)
    simp only [InSpan, BitVec.lt_def, BitVec.le_def, not_or, not_and] at hreject ⊢
    refine ⟨hreject.1, ?_⟩
    omega

theorem frameChain_walk (thread : PeekedThread) (maxFrameSpan : Word) (callers : Nat) :
    FrameChain thread (callers + 1) maxFrameSpan
      (⟨thread.userRegs.rip, thread.userRegs.rbp⟩ ::
        walk (nextFrame thread) (InSpan maxFrameSpan) callers
          ⟨thread.userRegs.rip, thread.userRegs.rbp⟩) where
  first := rfl
  length_le := Nat.succ_le_succ (length_walk_le callers _)
  calls := (isChain_walk callers _).imp fun _ _ => calls_iff.mpr
  maximal := by
    obtain hall | hstops := @walk_stops _ (nextFrame thread) (InSpan maxFrameSpan) _ callers
      ⟨thread.userRegs.rip, thread.userRegs.rbp⟩
    · exact .inl (by rw [List.length_cons, hall])
    · exact .inr fun last hlast => exhausted_of_stops (hstops last hlast)

end Walk

/-! ## Traces -/

section Traces

variable {thread : PeekedThread}

/-- `finish` returns to the caller of the current frame. -/
theorem calls_of_framePointerReturnAddress {returnAddress : Word}
    (h : framePointerReturnAddress thread = .ok returnAddress) :
    ∃ previous, Calls thread kMaxFrameSpan ⟨thread.userRegs.rip, thread.userRegs.rbp⟩
      ⟨returnAddress, previous⟩ := by
  unfold framePointerReturnAddress at h
  by_cases hstopped : thread.state = .stopped
  swap
  · rw [if_pos hstopped] at h
    cases h
  have hregisters : thread.registers = .ok thread.userRegs := by
    simp [PeekedThread.registers, hstopped]
  simp only [hstopped, hregisters, ne_eq, not_true_eq_false, if_false, ok_bind,
    throw_bind, ite_throw_eq_ok] at h
  obtain ⟨hpointer, haligned, _, h⟩ := h
  obtain ⟨frameData, hreadable, h⟩ := bind_eq_ok.mp h
  obtain ⟨errno, hrecord, hread⟩ | ⟨next, address, frameData', hrecord, hread, rfl, rfl⟩ :=
    readMemory_record hstopped thread.userRegs.rbp
  · rw [readableRecord, hread] at hreadable
    cases hreadable
  · rw [readableRecord, hread] at hreadable
    cases hreadable
    obtain ⟨hreturn, h⟩ := ite_throw_eq_ok.mp h
    split at h
    · obtain ⟨hvalid, h⟩ := ite_throw_eq_ok.mp h
      obtain rfl := pure_eq_ok.mp h
      simp only [BitVec.lt_def, BitVec.le_def, not_or] at hvalid
      refine ⟨recordWord frameData 0, hpointer, not_not.mp haligned, hrecord, hreturn, fun _ => ?_⟩
      simp only [BitVec.lt_def, BitVec.le_def]
      omega
    · next hlast =>
      obtain rfl := pure_eq_ok.mp h
      exact ⟨recordWord frameData 0, hpointer, not_not.mp haligned, hrecord, hreturn,
        fun hnot => absurd hnot hlast⟩

theorem unwindFramePointers_eq (hstopped : thread.state = .stopped) {maxFrames : Nat}
    (hframes : maxFrames ≠ 0) {maxFrameSpan : Word} (hspan : maxFrameSpan ≠ 0) :
    ∃ reason, unwindFramePointers thread maxFrames maxFrameSpan =
      .ok ⟨⟨thread.userRegs.rip, thread.userRegs.rbp⟩ ::
        walk (nextFrame thread) (InSpan maxFrameSpan) (maxFrames - 1)
          ⟨thread.userRegs.rip, thread.userRegs.rbp⟩, reason⟩ := by
  have hregisters : thread.registers = .ok thread.userRegs := by
    simp [PeekedThread.registers, hstopped]
  unfold unwindFramePointers
  rw [if_neg hframes, if_neg hspan, hregisters, ok_bind]
  by_cases hone : maxFrames = 1
  · subst hone
    exact ⟨_, rfl⟩
  · rw [if_neg hone]
    let frame : StackFrame := ⟨thread.userRegs.rip, thread.userRegs.rbp⟩
    have hlimit : [frame].length < maxFrames := by
      rw [List.length_singleton]
      omega
    obtain ⟨reason, hloop⟩ : ∃ reason, framePointerLoop thread maxFrames maxFrameSpan
        frame.framePointer [frame] = .ok ⟨[frame] ++ _, reason⟩ :=
      framePointerLoop_eq hstopped hlimit
    exact ⟨reason, hloop⟩

/-- With limits that are not zero the unwinder returns the chain of frames, and where `finish` finds
a return address in the frame record the second frame of the chain has it. -/
theorem unwindFramePointers_frameChain (thread : PeekedThread) (hstopped : thread.state = .stopped)
    (maxFrames : Nat) (hframes : maxFrames ≠ 0) (maxFrameSpan : Word) (hspan : maxFrameSpan ≠ 0) :
    ∃ trace, unwindFramePointers thread maxFrames maxFrameSpan = .ok trace ∧
      FrameChain thread maxFrames maxFrameSpan trace.frames ∧
      ∀ returnAddress, framePointerReturnAddress thread = .ok returnAddress →
        maxFrameSpan = kMaxFrameSpan → 2 ≤ maxFrames →
        ∃ caller, trace.frames[1]? = some caller ∧ caller.instructionPointer = returnAddress := by
  obtain ⟨reason, htrace⟩ := unwindFramePointers_eq hstopped hframes hspan
  have hchain := frameChain_walk thread maxFrameSpan (maxFrames - 1)
  rw [Nat.sub_add_cancel (Nat.one_le_iff_ne_zero.mpr hframes)] at hchain
  refine ⟨_, htrace, hchain, fun returnAddress hfinish hdefault htwo => ?_⟩
  obtain ⟨previous, hcalls⟩ := calls_of_framePointerReturnAddress hfinish
  rw [← hdefault] at hcalls
  obtain ⟨hstep, haccept⟩ := calls_iff.mp hcalls
  obtain ⟨callers, rfl⟩ : ∃ callers, maxFrames = callers + 2 := ⟨maxFrames - 2, by omega⟩
  refine ⟨⟨returnAddress, previous⟩, ?_, rfl⟩
  dsimp only
  rw [Nat.add_sub_assoc (by decide), walk_of_accept hstep haccept]
  rfl

/-- A thread whose only record is at 0x1000. -/
def oneRecord : PeekedThread where
  state := .stopped
  userRegs := { rip := 0x400000, rbp := 0x1000 }
  peekData address :=
    if address = 0x1000 then .ok 0 else if address = 0x1008 then .ok 0x400100 else .error eio

theorem unwindFramePointers_oneRecord :
    ∃ trace, unwindFramePointers oneRecord 64 kMaxFrameSpan = .ok trace ∧
      FrameChain oneRecord 64 kMaxFrameSpan trace.frames ∧
      ∀ returnAddress, framePointerReturnAddress oneRecord = .ok returnAddress →
        kMaxFrameSpan = kMaxFrameSpan → 2 ≤ 64 →
        ∃ caller, trace.frames[1]? = some caller ∧ caller.instructionPointer = returnAddress :=
  unwindFramePointers_frameChain oneRecord rfl 64 (by decide) kMaxFrameSpan (by decide)

/-- A frame limit of zero is refused. -/
theorem not_unwindFramePointers_of_limits :
    ¬∀ (thread : PeekedThread) (maxFrames : Nat) (maxFrameSpan : Word),
      thread.state = .stopped → ∃ trace,
        unwindFramePointers thread maxFrames maxFrameSpan = .ok trace ∧
          1 ≤ trace.frames.length ∧ trace.frames.length ≤ maxFrames := by
  intro h
  obtain ⟨trace, htrace, _⟩ := h oneRecord 0 kMaxFrameSpan rfl
  cases htrace

end Traces

end MiniDebugger
