import MiniDebugger.Dwarf.Reader

/-!
# Call-frame information

`EhFrame` evaluates the `.eh_frame` section of one module. `parseCie` reads a common information
entry, `execute` runs call-frame instructions up to a target address and `evaluateFrame` finds the
entry that covers the target. `callerFrame` recovers the caller of a cursor.
-/

namespace MiniDebugger

open Std (ExtTreeMap)

structure Cie where
  codeAlignment : Word := 0
  dataAlignment : Int := 0
  returnRegister : Word := 0
  fdeEncoding : Nat := 0
  instructionsBegin : Nat := 0
  instructionsEnd : Nat := 0

inductive RuleKind where
  | undefined | sameValue | offset
  deriving DecidableEq, Repr

structure RegisterRule where
  kind : RuleKind := .undefined
  offset : Int := 0
  deriving DecidableEq, Repr

structure CfiState where
  cfaDefined : Bool := false
  cfaRegister : Word := 0
  cfaOffset : Int := 0
  rules : ExtTreeMap Word RegisterRule := ∅

structure EvaluatedFrame where
  state : CfiState
  cfa : Word
  returnAddress : Word

/-- The registers of a frame, as far as they have been recovered. -/
structure EhFrameCursor where
  instructionPointer : Word
  stackPointer : Word
  framePointer : Option Word
  rbx : Option Word := none
  deriving DecidableEq, Repr

/-- `CfiMemoryReader` -/
abbrev CfiMemoryReader := Word → Nat → Except Exception (List Byte)

/-- `std::numeric_limits<std::int64_t>::max()` and `min()` -/
def int64Max : Int := 2 ^ 63 - 1
def int64Min : Int := -2 ^ 63

def scaledOffset (alignment : Int) (factor : Word) : Except Exception Int :=
  if int64Max < factor.toNat then throw (.runtimeError "CFI offset factor is too large")
  else if alignment < 0 ∧ factor.toNat ≠ 0 ∧ alignment < int64Min.tdiv factor.toNat then
    throw (.runtimeError "CFI offset overflows 64 bits")
  else if 0 < alignment ∧ factor.toNat ≠ 0 ∧ int64Max.tdiv factor.toNat < alignment then
    throw (.runtimeError "CFI offset overflows 64 bits")
  else return alignment * factor.toNat

def unsupportedEncoding : String := "unsupported signed PC-relative CFI pointer encoding"

/-! ## Common information entries -/

/-- One character of the augmentation string; the result is the FDE encoding read so far. -/
def readAugmentation (bytes : List Byte) (augmentationEnd : Nat) (fdeEncoding : Option Nat)
    (descriptor : Char) : Parse (Option Nat) :=
  match descriptor with
  | 'P' => do
    let encoding ← readScalar bytes augmentationEnd 1 "personality encoding"
    if !isPcrelIndirectSignedEncoding encoding then
      throw (.runtimeError "unsupported .eh_frame personality pointer encoding")
    let _ ← readSignedEncodedValue unsupportedEncoding bytes augmentationEnd encoding
      "personality pointer"
    return fdeEncoding
  | 'L' => do
    let encoding ← readScalar bytes augmentationEnd 1 "LSDA encoding"
    if !isPcrelSignedEncoding encoding then
      throw (.runtimeError "unsupported .eh_frame LSDA pointer encoding")
    return fdeEncoding
  | 'R' => do
    let encoding ← readScalar bytes augmentationEnd 1 "FDE encoding"
    if !isPcrelSignedEncoding encoding then
      throw (.runtimeError "unsupported .eh_frame FDE pointer encoding")
    return some encoding
  | _ => throw (.runtimeError "unsupported .eh_frame CIE augmentation descriptor")

/-- `parse_cie`, with the cursor behind the CIE pointer. -/
def parseCie (bytes : List Byte) (stop : Nat) : Parse Cie := do
  let version ← readScalar bytes stop 1 "CIE version"
  if version ≠ 1 then throw (.runtimeError "only .eh_frame CIE version 1 is supported")
  let augmentation ← readCString bytes stop "CIE augmentation"
  if augmentation.head? ≠ some 'z' then
    throw (.runtimeError "only z-prefixed .eh_frame augmentation is supported")
  let codeAlignment ← readUleb bytes stop
  let dataAlignment ← readSleb bytes stop
  let returnRegister ← readScalar bytes stop 1 "CIE return register"
  let augmentationSize ← readUleb bytes stop
  let cursor ← get
  if stop - cursor < augmentationSize.toNat then
    throw (.runtimeError "CIE augmentation extends past entry boundary")
  let augmentationEnd := cursor + augmentationSize.toNat
  let fdeEncoding ← augmentation.tail.foldlM (readAugmentation bytes augmentationEnd) none
  match fdeEncoding with
  | none => throw (.runtimeError "CIE augmentation does not define an FDE pointer encoding")
  | some fdeEncoding =>
    let cursor ← get
    if cursor ≠ augmentationEnd then
      throw (.runtimeError "unexpected trailing CIE augmentation data")
    return { codeAlignment, dataAlignment, returnRegister := BitVec.ofNat 64 returnRegister
             fdeEncoding, instructionsBegin := cursor, instructionsEnd := stop }

/-! ## Call-frame instructions -/

/-- The row under construction: its location, its rules and the remembered states. -/
structure CfiMachine where
  location : Word
  state : CfiState
  stack : List CfiState := []

def restoreRule (state : CfiState) (initial : Option CfiState) (reg : Word) :
    Except Exception CfiState :=
  match initial with
  | none => throw (.runtimeError "CIE uses an invalid restore opcode")
  | some initial =>
    match initial.rules[reg]? with
    | none => return { state with rules := state.rules.erase reg }
    | some rule => return { state with rules := state.rules.insert reg rule }

/-- `none` when the next row starts behind the target. -/
def advance (cie : Cie) (target : Word) (units : Word) (machine : CfiMachine) :
    Except Exception (Option CfiMachine) :=
  if cie.codeAlignment = 0 ∨ (2 ^ 64 - 1) / cie.codeAlignment.toNat < units.toNat then
    throw (.runtimeError "invalid CFI location advance")
  else
    let delta := units * cie.codeAlignment
    if 2 ^ 64 - 1 - machine.location.toNat < delta.toNat then
      throw (.runtimeError "CFI location overflows address space")
    else
      let next := machine.location + delta
      if target < next then return none else return some { machine with location := next }

/-- `state.rules[reg] = rule` -/
def CfiMachine.setRule (machine : CfiMachine) (reg : Word) (rule : RegisterRule) : CfiMachine :=
  { machine with state := { machine.state with rules := machine.state.rules.insert reg rule } }

/-- The opcodes without an operand in the opcode byte. -/
def executeExtended (bytes : List Byte) (stop : Nat) (cie : Cie) (initial : Option CfiState)
    (target : Word) (machine : CfiMachine) (opcode : Nat) : Parse (Option CfiMachine) :=
  match opcode with
  | 0x00 => return machine
  | 0x02 => do
    advance cie target (BitVec.ofNat 64 (← readScalar bytes stop 1 "advance_loc1")) machine
  | 0x03 => do
    advance cie target (BitVec.ofNat 64 (← readScalar bytes stop 2 "advance_loc2")) machine
  | 0x04 => do
    advance cie target (BitVec.ofNat 64 (← readScalar bytes stop 4 "advance_loc4")) machine
  | 0x05 => do
    let reg ← readUleb bytes stop
    let offset ← scaledOffset cie.dataAlignment (← readUleb bytes stop)
    return machine.setRule reg ⟨.offset, offset⟩
  | 0x06 => do
    let state ← restoreRule machine.state initial (← readUleb bytes stop)
    return some { machine with state }
  | 0x07 => return machine.setRule (← readUleb bytes stop) ⟨.undefined, 0⟩
  | 0x08 => return machine.setRule (← readUleb bytes stop) ⟨.sameValue, 0⟩
  | 0x0a => return some { machine with stack := machine.state :: machine.stack }
  | 0x0b =>
    match machine.stack with
    | [] => throw (.runtimeError "unbalanced DW_CFA_restore_state")
    | state :: stack => return some { machine with state, stack }
  | 0x0c => do
    let cfaRegister ← readUleb bytes stop
    let offset ← readUleb bytes stop
    if int64Max < offset.toNat then throw (.runtimeError "CFA offset is too large")
    let cfaOffset : Int := offset.toNat
    return some { machine with
      state := { machine.state with cfaRegister, cfaOffset, cfaDefined := true } }
  | 0x0d => do
    if !machine.state.cfaDefined then throw (.runtimeError "CFA register is undefined")
    let cfaRegister ← readUleb bytes stop
    return some { machine with state := { machine.state with cfaRegister } }
  | 0x0e => do
    if !machine.state.cfaDefined then throw (.runtimeError "CFA register is undefined")
    let offset ← readUleb bytes stop
    if int64Max < offset.toNat then throw (.runtimeError "CFA offset is too large")
    let cfaOffset : Int := offset.toNat
    return some { machine with state := { machine.state with cfaOffset } }
  | 0x2e => do
    let _ ← readUleb bytes stop
    return machine
  | _ => throw (.runtimeError "unsupported DWARF CFI opcode")

/-- One pass of the loop of `execute`; `none` when the row for the target is complete. -/
def executeOpcode (bytes : List Byte) (stop : Nat) (cie : Cie) (initial : Option CfiState)
    (target : Word) (machine : CfiMachine) : Parse (Option CfiMachine) := do
  let opcode ← readScalar bytes stop 1 "CFI opcode"
  let primary := opcode &&& 0xc0
  let operand := BitVec.ofNat 64 (opcode &&& 0x3f)
  if primary = 0x40 then advance cie target operand machine
  else if primary = 0x80 then
    let offset ← scaledOffset cie.dataAlignment (← readUleb bytes stop)
    return machine.setRule operand ⟨.offset, offset⟩
  else if primary = 0xc0 then
    let state ← restoreRule machine.state initial operand
    return some { machine with state }
  else executeExtended bytes stop cie initial target machine opcode

theorem forward_executeExtended {bytes : List Byte} {stop : Nat} {cie : Cie}
    {initial : Option CfiState} {target : Word} {machine : CfiMachine} (opcode : Nat) :
    Forward (executeExtended bytes stop cie initial target machine opcode) := by
  unfold executeExtended
  split
  · exact forward_pure _
  · exact forward_bind forward_readScalar fun _ => forward_lift _
  · exact forward_bind forward_readScalar fun _ => forward_lift _
  · exact forward_bind forward_readScalar fun _ => forward_lift _
  · refine forward_bind forward_readUleb fun _ => forward_bind forward_readUleb fun _ => ?_
    exact forward_bind (forward_lift _) fun _ => forward_pure _
  · refine forward_bind forward_readUleb fun _ => ?_
    exact forward_bind (forward_lift _) fun _ => forward_pure _
  · exact forward_bind forward_readUleb fun _ => forward_pure _
  · exact forward_bind forward_readUleb fun _ => forward_pure _
  · exact forward_pure _
  · split
    · exact forward_throw _
    · exact forward_pure _
  · refine forward_bind forward_readUleb fun _ => forward_bind forward_readUleb fun _ => ?_
    exact forward_ite (forward_throw _) (forward_pure _)
  · refine forward_ite (forward_throw _) ?_
    exact forward_bind forward_readUleb fun _ => forward_pure _
  · refine forward_ite (forward_throw _) (forward_bind forward_readUleb fun _ => ?_)
    exact forward_ite (forward_throw _) (forward_pure _)
  · exact forward_bind forward_readUleb fun _ => forward_pure _
  · exact forward_throw _

/-- Every pass consumes at least its opcode. -/
theorem executeOpcode_next {bytes : List Byte} {stop : Nat} {cie : Cie}
    {initial : Option CfiState} {target : Word} {machine : CfiMachine}
    {result : Option CfiMachine} {cursor next : Nat}
    (h : executeOpcode bytes stop cie initial target machine cursor = .ok (result, next)) :
    cursor < next := by
  obtain ⟨opcode, middle, hread, hrest⟩ := bind_ok h
  have hmiddle := readScalar_next hread
  have hforward : middle ≤ next := by
    revert hrest
    refine forward_ite (forward_lift _) (forward_ite ?_ (forward_ite ?_ ?_))
    · refine forward_bind forward_readUleb fun _ => ?_
      exact forward_bind (forward_lift _) fun _ => forward_pure _
    · exact forward_bind (forward_lift _) fun _ => forward_pure _
    · exact forward_executeExtended opcode
  omega

def execute (bytes : List Byte) (stop : Nat) (cie : Cie) (initial : Option CfiState)
    (target : Word) (machine : CfiMachine) (cursor : Nat) : Except Exception CfiState :=
  if cursor < stop then
    match h : executeOpcode bytes stop cie initial target machine cursor with
    | .error e => .error e
    | .ok (none, _) => .ok machine.state
    | .ok (some machine, next) =>
      have := executeOpcode_next h
      execute bytes stop cie initial target machine next
  else .ok machine.state
termination_by stop - cursor

/-! ## Finding the frame -/

def kDwarfRbx : Word := 3
def kDwarfRbp : Word := 6
def kDwarfRsp : Word := 7
def kDwarfRip : Word := 16

def cursorRegister (cursor : EhFrameCursor) (reg : Word) : Except Exception Word :=
  if reg = kDwarfRbx then
    match cursor.rbx with
    | none => throw (.runtimeError "CFI backtrace requires an unavailable caller RBX")
    | some rbx => return rbx
  else if reg = kDwarfRbp then
    match cursor.framePointer with
    | none => throw (.runtimeError "CFI backtrace requires an unavailable caller RBP")
    | some rbp => return rbp
  else if reg = kDwarfRsp then return cursor.stackPointer
  else if reg = kDwarfRip then return cursor.instructionPointer
  else throw (.runtimeError "CFI backtrace requires an unrecovered x86-64 register")

/-- `read_u64` -/
def readU64 (bytes : List Byte) : Except Exception Word :=
  if bytes.length ≠ 8 then throw (.runtimeError "unexpected CFI register read size")
  else return BitVec.ofNat 64 (littleEndian bytes)

def readCfiSlot (readMemory : CfiMemoryReader) (address : Word) (what : String) :
    Except Exception Word :=
  match readMemory address 8 >>= readU64 with
  | .ok value => return value
  | .error _ => throw (.runtimeError (what ++ " is unreadable"))

/-- The frame of an entry whose range covers the target. -/
def evaluateEntry (bytes : List Byte) (stop : Nat) (cie : Cie) (initialLocation target : Word)
    (readMemory : CfiMemoryReader) (readRegister : Word → Except Exception Word) (cursor : Nat) :
    Except Exception EvaluatedFrame := do
  let cieState ← execute bytes cie.instructionsEnd cie none (BitVec.allOnes 64)
    ⟨initialLocation, {}, []⟩ cie.instructionsBegin
  let state ← execute bytes stop cie (some cieState) target ⟨initialLocation, cieState, []⟩ cursor
  if !state.cfaDefined then throw (.runtimeError "CFI did not define a CFA")
  let cfa ← addSigned (← readRegister state.cfaRegister) state.cfaOffset "CFI CFA"
  match state.rules[cie.returnRegister]? with
  | some ⟨.offset, offset⟩ =>
    let slot ← addSigned cfa offset "CFI return slot"
    let returnAddress ← readCfiSlot readMemory slot "CFI return-address slot"
    if returnAddress = 0 then throw (.runtimeError "CFI resolved a zero return address")
    return ⟨state, cfa, returnAddress⟩
  | _ => throw (.runtimeError "CFI return-address rule is not a supported memory offset")

/-- What an FDE says before its instructions: the first address it covers, and how many. -/
def readFdeRange (bytes : List Byte) (virtualAddress : Word) (stop : Nat) (cie : Cie) :
    Parse (Word × Word) := do
  let fieldVirtualAddress := virtualAddress + BitVec.ofNat 64 (← get)
  let relative ← readSignedEncodedValue unsupportedEncoding bytes stop cie.fdeEncoding
    "FDE initial location"
  let initialLocation ← addSigned fieldVirtualAddress relative "FDE start"
  let signedRange ← readSignedEncodedValue unsupportedEncoding bytes stop cie.fdeEncoding
    "FDE address range"
  if signedRange < 0 then throw (.runtimeError "negative FDE address range")
  if 2 ^ 64 - 1 - initialLocation.toNat < signedRange.toNat then
    throw (.runtimeError "FDE address range overflows address space")
  let augmentationSize ← readUleb bytes stop
  let cursor ← get
  if stop - cursor < augmentationSize.toNat then
    throw (.runtimeError "FDE augmentation extends past entry boundary")
  set (cursor + augmentationSize.toNat)
  return (initialLocation, BitVec.ofNat 64 signedRange.toNat)

/-- The loop of `evaluate_frame` over the entries of the section. -/
def evaluateFrame (bytes : List Byte) (virtualAddress target : Word) (readMemory : CfiMemoryReader)
    (readRegister : Word → Except Exception Word) (cies : ExtTreeMap Nat Cie) (entry : Nat) :
    Except Exception (Option EvaluatedFrame) :=
  if entry < bytes.length then do
    let length ← readAt bytes entry 4 ".eh_frame length"
    if length = 0 then return none
    if length = 0xffffffff then throw (.runtimeError "DWARF64 .eh_frame is unsupported")
    let content := entry + 4
    if bytes.length - content < length then
      throw (.runtimeError ".eh_frame entry extends past section boundary")
    let stop := content + length
    let (ciePointer, cursor) ← readScalar bytes stop 4 "CIE pointer" content
    if ciePointer = 0 then
      let (cie, _) ← parseCie bytes stop cursor
      evaluateFrame bytes virtualAddress target readMemory readRegister
        (cies.insertIfNew entry cie) stop
    else if content < ciePointer then
      throw (.runtimeError "FDE CIE pointer underflows section")
    else
      match cies[content - ciePointer]? with
      | none => throw (.runtimeError "FDE references an unknown CIE")
      | some cie =>
        let ((initialLocation, range), cursor) ← readFdeRange bytes virtualAddress stop cie cursor
        if initialLocation ≤ target ∧ target < initialLocation + range then
          let frame ← evaluateEntry bytes stop cie initialLocation target readMemory readRegister
            cursor
          return some frame
        else evaluateFrame bytes virtualAddress target readMemory readRegister cies stop
  else return none
termination_by bytes.length - entry

def recoverRegister (readMemory : CfiMemoryReader) (evaluated : EvaluatedFrame) (reg : Word)
    (currentValue : Option Word) (what : String) : Except Exception (Option Word) :=
  match evaluated.state.rules[reg]? with
  | none => return none
  | some ⟨.undefined, _⟩ => return none
  | some ⟨.sameValue, _⟩ => return currentValue
  | some ⟨.offset, offset⟩ => do
    let slot ← addSigned evaluated.cfa offset what
    let value ← readCfiSlot readMemory slot what
    return some value

/-- `EhFrame`: the section of a module, once it has been found. -/
structure EhFrame where
  section_ : List Byte := []
  sectionVirtualAddress : Word := 0
  available : Bool := false
  deriving DecidableEq

/-- `EhFrame::caller_frame` at a virtual address of the module -/
def EhFrame.callerFrame (cfi : EhFrame) (readMemory : CfiMemoryReader) (moduleVirtualPc : Word)
    (current : EhFrameCursor) : Except Exception (Option EhFrameCursor) := do
  if !cfi.available then return none
  let evaluated ← evaluateFrame cfi.section_ cfi.sectionVirtualAddress moduleVirtualPc readMemory
    (cursorRegister current) ∅ 0
  match evaluated with
  | none => return none
  | some evaluated =>
    let framePointer ← recoverRegister readMemory evaluated kDwarfRbp current.framePointer
      "CFI RBP slot"
    let rbx ← recoverRegister readMemory evaluated kDwarfRbx current.rbx "CFI RBX slot"
    return some ⟨evaluated.returnAddress, evaluated.cfa, framePointer, rbx⟩

end MiniDebugger
