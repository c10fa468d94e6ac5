import MiniDebugger.Checks
import MiniDebugger.Dwarf.Rows
import MiniDebugger.Unwind.Cfi

/-!
# The return address of the current frame

`finish` stops at the address that `module_caller_return_address` recovers from the full register
file, a backtrace recovers its first caller from a cursor of four registers. Where the cursor has
the registers that the row of the current frame asks for, both evaluate the same frame.
-/

namespace MiniDebugger

open Checks

def dwarfRegister (regs : UserRegs) (reg : Word) : Except Exception Word :=
  match reg.toNat with
  | 0 => return regs.rax
  | 1 => return regs.rdx
  | 2 => return regs.rcx
  | 3 => return regs.rbx
  | 4 => return regs.rsi
  | 5 => return regs.rdi
  | 6 => return regs.rbp
  | 7 => return regs.rsp
  | 8 => return regs.r8
  | 9 => return regs.r9
  | 10 => return regs.r10
  | 11 => return regs.r11
  | 12 => return regs.r12
  | 13 => return regs.r13
  | 14 => return regs.r14
  | 15 => return regs.r15
  | 16 => return regs.rip
  | _ => throw (.runtimeError "unsupported x86-64 DWARF register")

/-- `EhFrame::caller_return_address` -/
def Tracee.callerReturnAddress (tracee : Tracee) (cfi : EhFrame) (elf : ElfFile) :
    Except Exception (Option Word) := do
  if !cfi.available then return none
  if tracee.state ≠ .stopped then
    throw (.logicError "CFI evaluation requires a stopped tracee")
  let regs := tracee.registers
  let bias ← tracee.loadBias elf
  if regs.rip < bias then
    throw (.runtimeError "runtime RIP is below executable load bias")
  match ← evaluateFrame cfi.section_ cfi.sectionVirtualAddress (regs.rip - bias) tracee.readMemory
      (dwarfRegister regs) ∅ 0 with
  | none => return none
  | some evaluated => return some evaluated.returnAddress

def moduleCallerReturnAddress (tracee : Tracee) (files : Files) (preferred : Preferred) :
    Except Exception (Option Word) := do
  if tracee.state ≠ .stopped then
    throw (.logicError "CFI return-address recovery requires a stopped tracee")
  match ← tracee.mappedModulePath tracee.registers.rip with
  | none => return none
  | some path =>
    if files.sameFile path preferred.elf.path then
      if !preferred.cfi.available then return none
      else tracee.callerReturnAddress preferred.cfi preferred.elf
    else
      let elf ← files.elf path
      let cfi ← files.ehFrame path
      if !cfi.available then return none
      else tracee.callerReturnAddress cfi elf

/-! ## Registers -/

/-- The cursor of the live registers has the values of the full register file, where it has any. -/
theorem dwarfRegister_of_cursorRegister {regs : UserRegs} {reg value : Word}
    (h : cursorRegister regs.cursor reg = .ok value) : dwarfRegister regs reg = .ok value := by
  unfold cursorRegister at h
  split at h
  next hrbx =>
    subst hrbx
    exact h
  next =>
    split at h
    next hrbp =>
      subst hrbp
      exact h
    next =>
      split at h
      next hrsp =>
        subst hrsp
        exact h
      next =>
        split at h
        next hrip =>
          subst hrip
          exact h
        next => cases h

/-- A frame that is evaluated with some registers is evaluated with more. -/
theorem frameOfRow_mono {readMemory : CfiMemoryReader}
    {readRegister readRegister' : Word → Except Exception Word} {row : CfiRow}
    {frame : EvaluatedFrame}
    (hmore : ∀ reg value, readRegister reg = .ok value → readRegister' reg = .ok value)
    (h : frameOfRow readMemory readRegister row = .ok frame) :
    frameOfRow readMemory readRegister' row = .ok frame := by
  unfold frameOfRow at h ⊢
  dsimp only at h ⊢
  rw [throw_bind, ite_throw_eq_ok] at h ⊢
  obtain ⟨hdefined, h⟩ := h
  obtain ⟨base, hbase, h⟩ := bind_eq_ok.mp h
  refine ⟨hdefined, ?_⟩
  rw [hmore _ _ hbase]
  exact h

theorem evaluateFrame_mono {bytes : List Byte} {virtualAddress target : Word}
    {readMemory : CfiMemoryReader} {readRegister readRegister' : Word → Except Exception Word}
    {frame : EvaluatedFrame}
    (hmore : ∀ reg value, readRegister reg = .ok value → readRegister' reg = .ok value)
    (h : evaluateFrame bytes virtualAddress target readMemory readRegister ∅ 0 =
      .ok (some frame)) :
    evaluateFrame bytes virtualAddress target readMemory readRegister' ∅ 0 = .ok (some frame) := by
  rw [evaluateFrame_eq] at h ⊢
  obtain ⟨found, hfound, h⟩ := bind_eq_ok.mp h
  rw [hfound, ok_bind]
  cases found with
  | none => cases h
  | some row =>
    obtain ⟨evaluated, hevaluated, hframe⟩ := bind_eq_ok.mp h
    cases hframe
    dsimp only
    rw [frameOfRow_mono hmore hevaluated]
    rfl

/-! ## Return addresses -/

section Finish

variable {tracee : Tracee} {files : Files} {preferred : Preferred}

/-- A caller of the live cursor returns where the full register file says. -/
theorem callerReturnAddress_of_callerFrame {cfi : EhFrame} {elf : ElfFile} {caller : EhFrameCursor}
    (h : tracee.callerFrame cfi elf tracee.registers.cursor = .ok (some caller)) :
    tracee.callerReturnAddress cfi elf = .ok (some caller.instructionPointer) := by
  unfold Tracee.callerFrame at h
  dsimp only at h
  split at h
  · cases h
  next havailable =>
    rw [throw_bind, ite_throw_eq_ok] at h
    obtain ⟨hstopped, h⟩ := h
    obtain ⟨bias, hbias, h⟩ := bind_eq_ok.mp h
    rw [throw_bind, ite_throw_eq_ok] at h
    obtain ⟨habove, h⟩ := h
    have habove : ¬tracee.registers.rip < bias := habove
    unfold EhFrame.callerFrame at h
    rw [if_neg havailable] at h
    obtain ⟨found, hfound, h⟩ := bind_eq_ok.mp h
    cases found with
    | none => cases h
    | some frame =>
      obtain ⟨framePointer, _, h⟩ := bind_eq_ok.mp h
      obtain ⟨rbx, _, hcaller⟩ := bind_eq_ok.mp h
      cases hcaller
      have hframe : evaluateFrame cfi.section_ cfi.sectionVirtualAddress
          (tracee.registers.rip - bias) tracee.readMemory (dwarfRegister tracee.registers) ∅ 0 =
          .ok (some frame) := evaluateFrame_mono (fun _ _ => dwarfRegister_of_cursorRegister) hfound
      unfold Tracee.callerReturnAddress
      dsimp only
      rw [if_neg havailable, if_neg hstopped, hbias, ok_bind, if_neg habove, hframe]
      rfl

theorem lifted_bind {σ α β : Type} (a : α) (f : α → StateT σ (Except Exception) β) (s : σ) :
    ((liftM (Except.ok a : Except Exception α) : StateT σ (Except Exception) α) >>= f) s = f a s :=
  rfl

theorem eq_ok_of_lifted {σ α : Type} {x : Except Exception α} {a : α} {s t : σ}
    (h : (liftM x : StateT σ (Except Exception) α) s = .ok (a, t)) : x = .ok a := by
  cases x with
  | error e => cases h
  | ok b =>
    cases h
    rfl

/-- The first module to be needed is opened. -/
theorem cachedModule_nil {path : String} {f : ModuleCfi → StateT ModuleCache (Except Exception)
    (Option EhFrameCursor)} {result : Option EhFrameCursor × ModuleCache}
    (h : (cachedModule files path >>= f) [] = .ok result) :
    ∃ elf cfi, files.elf path = .ok elf ∧ files.ehFrame path = .ok cfi ∧
      f ⟨path, elf, cfi⟩ [⟨path, elf, cfi⟩] = .ok result := by
  have hcached : cachedModule files path [] = (do
      let elf ← files.elf path
      let cfi ← files.ehFrame path
      return (⟨path, elf, cfi⟩, [⟨path, elf, cfi⟩])) := rfl
  have hbind : (cachedModule files path >>= f) [] =
      cachedModule files path [] >>= fun found => f found.1 found.2 := rfl
  rw [hbind, hcached] at h
  obtain ⟨found, hfound, h⟩ := bind_eq_ok.mp h
  obtain ⟨elf, helf, hfound⟩ := bind_eq_ok.mp hfound
  obtain ⟨cfi, hcfi, hdone⟩ := bind_eq_ok.mp hfound
  cases hdone
  exact ⟨elf, cfi, helf, hcfi, h⟩

/-- The first caller of a backtrace returns where `finish` stops. -/
theorem moduleCallerReturnAddress_of_callerForCursor {caller : EhFrameCursor}
    {modules : ModuleCache} (hstopped : tracee.state = .stopped)
    (h : callerForCursor tracee files preferred tracee.registers.cursor [] =
      .ok (some caller, modules)) :
    moduleCallerReturnAddress tracee files preferred = .ok (some caller.instructionPointer) := by
  unfold moduleCallerReturnAddress
  dsimp only
  rw [if_neg (not_not.mpr hstopped)]
  unfold callerForCursor at h
  have hpath : tracee.registers.cursor.instructionPointer = tracee.registers.rip := rfl
  rw [hpath] at h
  cases hmodule : tracee.mappedModulePath tracee.registers.rip with
  | error e =>
    rw [hmodule] at h
    cases h
  | ok path =>
    rw [hmodule] at h
    rw [ok_bind]
    cases path with
    | none => cases h
    | some path =>
      rw [lifted_bind] at h
      dsimp only at h ⊢
      split at h
      next hsame =>
        rw [if_pos hsame]
        split at h
        · cases h
        next havailable =>
          rw [if_neg havailable]
          exact callerReturnAddress_of_callerFrame (eq_ok_of_lifted h)
      next hother =>
        rw [if_neg hother]
        obtain ⟨elf, cfi, helf, hcfi, h⟩ := cachedModule_nil h
        rw [helf, ok_bind, hcfi, ok_bind]
        dsimp only at h ⊢
        split at h
        · cases h
        next havailable =>
          rw [if_neg havailable]
          exact callerReturnAddress_of_callerFrame (eq_ok_of_lifted h)

/-- The two commands agree: the caller of the innermost frame is where `finish` stops. -/
structure FinishAgrees (tracee : Tracee) (files : Files) (preferred : Preferred) : Prop where
  backtrace : ∀ maxFrames backtrace current caller frames,
    unwindEhFrame tracee files preferred maxFrames = .ok backtrace →
    backtrace.frames = current :: caller :: frames →
    moduleCallerReturnAddress tracee files preferred = .ok (some caller.instructionPointer)
  callerFrame : ∀ cfi elf caller,
    tracee.callerFrame cfi elf tracee.registers.cursor = .ok (some caller) →
    tracee.callerReturnAddress cfi elf = .ok (some caller.instructionPointer)

theorem finishAgrees (tracee : Tracee) (files : Files) (preferred : Preferred) :
    FinishAgrees tracee files preferred where
  backtrace := by
    intro maxFrames backtrace current caller frames h hframes
    unfold unwindEhFrame at h
    rw [ite_throw_eq_ok, ite_throw_eq_ok] at h
    obtain ⟨hlimit, hstopped, h⟩ := h
    dsimp only at h
    split at h
    · cases h
      cases hframes
    · cases h
      obtain ⟨room, hroom⟩ : ∃ room, maxFrames - 1 = room + 1 := ⟨maxFrames - 2, by omega⟩
      rw [hroom, unwindFrom] at hframes
      cases hcall : callerForCursor tracee files preferred tracee.registers.cursor [] with
      | error e =>
        rw [hcall] at hframes
        cases hframes
      | ok result =>
        obtain ⟨found, modules⟩ := result
        rw [hcall] at hframes
        cases found with
        | none => cases hframes
        | some first =>
          dsimp only at hframes
          split at hframes
          · cases hframes
          · have hwalk : (unwindFrom tracee files preferred room first modules
                [.ofCursor tracee.registers.cursor, .ofCursor first]).frames = _ :=
              unwindFrom_frames room (first, modules) _
            rw [List.singleton_append, hwalk] at hframes
            cases hframes
            exact moduleCallerReturnAddress_of_callerForCursor (not_not.mp hstopped) hcall
  callerFrame := fun _ _ _ => callerReturnAddress_of_callerFrame

end Finish

end MiniDebugger
