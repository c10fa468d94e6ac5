import MiniDebugger.Dwarf.LineFormatReads
import MiniDebugger.Dwarf.LineProgram
import MiniDebugger.LineRows

/-!
# The line-number matrix

The line-number program of a unit is a string of instructions over a few registers, and some of them
append a row to a matrix. `decode` reads the instructions from the bytes behind a header, `rows` is
the matrix. Each pass of the loop of `parse` decodes an instruction and does to its variables what
the instruction does to the registers; so the ranges of the table are those of the matrices.
-/

namespace MiniDebugger.LineProgram

open LineRows

inductive Instruction where
  | special (adjusted : Nat)
  | copy
  | advancePc (operations : Nat)
  | advanceLine (delta : Int)
  | setFile (file : Nat)
  | setColumn (column : Nat)
  | constAddPc
  | fixedAdvancePc (delta : Nat)
  | endSequence
  | setAddress (address : Nat)
  | defineFile (file : FileEntry)
  | skip
  deriving DecidableEq, Repr

/-! ## Encoded instructions -/

/-- Operands that nothing needs. -/
def takeNumbers : Nat → List Byte → Option (List Byte)
  | 0, code => some code
  | count + 1, code => do
    let (_, code) ← takeNumber code
    takeNumbers count code

/-- The instruction of a payload without its opcode. -/
def extended (opcode : Nat) (operand : List Byte) : Option Instruction :=
  match opcode with
  | 1 => some .endSequence
  | 2 => (takeField 8 operand).map fun (address, _) => .setAddress address
  | 3 => (takeFile operand).map fun (file, _) => .defineFile file
  | _ => some .skip

/-- An instruction behind a zero byte is a payload that is as long as it says. -/
def decodeExtended (code : List Byte) : Option (Instruction × List Byte) := do
  let (length, code) ← takeNumber code
  if code.length < length then none
  else
    let (opcode, operand) ← takeField 1 (code.take length)
    let instruction ← extended opcode operand
    return (instruction, code.drop length)

variable (header : Header)

/-- The header says how many operands an opcode has that is not known. -/
def decodeStandard (opcode : Nat) (code : List Byte) : Option (Instruction × List Byte) :=
  match opcode with
  | 1 => some (.copy, code)
  | 2 => (takeNumber code).map fun (operations, code) => (.advancePc operations, code)
  | 3 => (takeSigned code).map fun (delta, code) => (.advanceLine delta, code)
  | 4 => (takeNumber code).map fun (file, code) => (.setFile file, code)
  | 5 => (takeNumber code).map fun (column, code) => (.setColumn column, code)
  | 6 => some (.skip, code)
  | 7 => some (.skip, code)
  | 8 => some (.constAddPc, code)
  | 9 => (takeField 2 code).map fun (delta, code) => (.fixedAdvancePc delta, code)
  | 10 => some (.skip, code)
  | 11 => some (.skip, code)
  | 12 => (takeNumber code).map fun (_, code) => (.skip, code)
  | _ =>
    (takeNumbers (header.standardOpcodeLengths.getD (opcode - 1) 0) code).map fun code =>
      (.skip, code)

/-- The first instruction of some code: an opcode is extended, standard or special. -/
def decode : List Byte → Option (Instruction × List Byte)
  | [] => none
  | opcode :: code =>
    if opcode.toNat = 0 then decodeExtended code
    else if opcode.toNat < header.opcodeBase then decodeStandard header opcode.toNat code
    else some (.special (opcode.toNat - header.opcodeBase), code)

/-- Code that consists of instructions. -/
inductive Encodes : List Instruction → List Byte → Prop
  | nil : Encodes [] []
  | cons {instruction : Instruction} {instructions : List Instruction} {code rest : List Byte} :
    decode header code = some (instruction, rest) → Encodes instructions rest →
    Encodes (instruction :: instructions) code

variable {header} in
/-- Code has one reading. -/
theorem Encodes.unique {instructions instructions' : List Instruction} {code : List Byte}
    (h : Encodes header instructions code) (h' : Encodes header instructions' code) :
    instructions = instructions' := by
  induction h generalizing instructions' with
  | nil =>
    cases h' with
    | nil => rfl
    | cons hdecode _ => cases hdecode
  | cons hdecode _ ih =>
    cases h' with
    | nil => cases hdecode
    | cons hdecode' hrest =>
      rw [hdecode] at hdecode'
      cases hdecode'
      rw [ih hrest]

/-! ## Rows -/

/-- The registers, and the files with those that the program has defined. -/
structure Registers where
  address : Word := 0
  file : Nat := 1
  line : Int := 1
  column : Nat := 0
  files : List FileEntry

/-- Version 5 counts directories and files from zero, version 4 from one. -/
def entry {α : Type} (dwarf5 : Bool) (entries : List α) (index : Nat) : Option α :=
  if dwarf5 then entries[index]?
  else if index = 0 then none
  else entries[index - 1]?

/-- The path of a file; a directory that the header does not have adds nothing. -/
def path (file : FileEntry) : FilePath :=
  match entry header.dwarf5 header.directories file.directoryIndex.toNat with
  | none => file.name
  | some directory => directory.append file.name

/-- The source position of a row, when its file is one of the header and its line is positive. -/
def Registers.location (registers : Registers) : Option LineLocation :=
  if registers.line ≤ 0 then none
  else
    (entry header.dwarf5 registers.files registers.file).map fun file =>
      ⟨path header file, BitVec.ofInt 64 registers.line, BitVec.ofNat 64 registers.column⟩

def Registers.row (registers : Registers) (endSequence : Bool) : Row Word LineLocation where
  address := registers.address
  label := registers.location header
  endSequence := endSequence

/-- The address moves by a number of operations. -/
def Registers.advance (registers : Registers) (operations : Nat) : Registers :=
  { registers with
    address := registers.address +
      BitVec.ofNat 64 (operations * header.minimumInstructionLength) }

/-- What an instruction does to the registers, and the row that it appends. -/
def apply (registers : Registers) : Instruction → Registers × Option (Row Word LineLocation)
  | .special adjusted =>
    let advanced := registers.advance header (adjusted / header.lineRange)
    let next := { advanced with
      line := advanced.line + header.lineBase + (adjusted % header.lineRange : Nat) }
    (next, some (next.row header false))
  | .copy => (registers, some (registers.row header false))
  | .advancePc operations => (registers.advance header operations, none)
  | .advanceLine delta => ({ registers with line := registers.line + delta }, none)
  | .setFile file => ({ registers with file }, none)
  | .setColumn column => ({ registers with column }, none)
  | .constAddPc =>
    (registers.advance header ((255 - header.opcodeBase) / header.lineRange), none)
  | .fixedAdvancePc delta =>
    ({ registers with address := registers.address + BitVec.ofNat 64 delta }, none)
  | .endSequence => ({ files := registers.files }, some (registers.row header true))
  | .setAddress address => ({ registers with address := BitVec.ofNat 64 address }, none)
  | .defineFile file => ({ registers with files := registers.files ++ [file] }, none)
  | .skip => (registers, none)

def rowsFrom : Registers → List Instruction → List (Row Word LineLocation)
  | _, [] => []
  | registers, instruction :: instructions =>
    (apply header registers instruction).2.toList ++
      rowsFrom (apply header registers instruction).1 instructions

/-- The matrix of a unit. -/
def rows (instructions : List Instruction) : List (Row Word LineLocation) :=
  rowsFrom header { files := header.files } instructions

/-! ## Reading an instruction -/

section Reads

variable {bytes : List Byte} {stop cursor next : Nat} {what : String}

theorem takeNumbers_of_readTimes {count : Nat} {numbers : List Word}
    (h : readTimes (readLineUleb bytes stop) count cursor = .ok (numbers, next)) :
    takeNumbers count (codeAt bytes stop cursor) = some (codeAt bytes stop next) := by
  induction count generalizing cursor numbers with
  | zero =>
    cases h
    rfl
  | succ count ih =>
    obtain ⟨number, middle, hnumber, h⟩ := bind_ok h
    obtain ⟨others, behind, hothers, hdone⟩ := bind_ok h
    cases hdone
    rw [takeNumbers, takeNumber_of_readLineUleb hnumber]
    exact ih hothers

end Reads

/-! ## A pass of the loop -/

end MiniDebugger.LineProgram

namespace MiniDebugger

open LineRows LineProgram

/-- The registers that the variables of a unit stand for. -/
def LineMachine.registers (machine : LineMachine) : Registers where
  address := machine.state.address
  file := machine.state.file.toNat
  line := machine.state.line
  column := machine.state.column.toNat
  files := machine.files

/-- The row that `previous` stands for. -/
def LineRow.row (previous : LineRow) : Row Word LineLocation :=
  ⟨previous.address, previous.location, false⟩

/-- The range of the table, with the unit it comes from. -/
def ownedRange (fileTableIndex : Nat) (range : Range Word LineLocation) : LineRange :=
  ⟨range.first, range.last, range.label, fileTableIndex⟩

section Pass

variable {bytes : List Byte} {header : LineHeader} {fileTableIndex : Nat}

theorem fileEntryOffset_eq (file : Word) (files : List FileEntry) (dwarf5 : Bool) :
    (fileEntryOffset file files.length dwarf5).bind (files[·]?) = entry dwarf5 files file.toNat := by
  unfold fileEntryOffset entry
  cases dwarf5 with
  | true =>
    rw [if_pos rfl, if_pos rfl]
    split
    next hle => exact (List.getElem?_eq_none hle).symm
    next => rfl
  | false =>
    rw [if_neg Bool.false_ne_true, if_neg Bool.false_ne_true]
    have hzero : file = 0 ↔ file.toNat = 0 := by
      rw [← BitVec.toNat_inj]
      rfl
    split
    next h =>
      split
      next => rfl
      next hne =>
        refine (List.getElem?_eq_none ?_).symm
        have := h.resolve_left (mt hzero.mp hne)
        omega
    next h =>
      rw [if_neg (fun hfile => h (.inl (hzero.mpr hfile)))]
      rfl

theorem resolvedFilePath_eq (file : FileEntry) :
    resolvedFilePath file header.directories header.dwarf5 = path header.described file := by
  unfold resolvedFilePath path entry
  dsimp only
  split
  next habsolute =>
    have happend : ∀ directory : FilePath, directory.append file.name = file.name := by
      intro directory
      unfold FilePath.append
      rw [if_pos habsolute]
    split
    · rfl
    · exact (happend _).symm
  next hrelative =>
    by_cases hversion : header.dwarf5 = true
    · rw [if_pos hversion, if_pos hversion]
      split
      next h => rw [List.getElem?_eq_getElem h]
      next h => rw [List.getElem?_eq_none (Nat.le_of_not_lt h)]
    · rw [if_neg hversion, if_neg hversion]
      split
      next h => rw [if_neg h.1, List.getElem?_eq_getElem (by omega)]
      next h =>
        split
        next hnone => rfl
        next directory hsome =>
          exfalso
          split at hsome
          · cases hsome
          · obtain ⟨hlt, _⟩ := List.getElem?_eq_some_iff.mp hsome
            omega

theorem sourceLocation_eq (machine : LineMachine) :
    sourceLocation machine.state header.directories machine.files header.dwarf5 =
      machine.registers.location header.described := by
  unfold sourceLocation Registers.location LineMachine.registers
  dsimp only
  split
  next => rfl
  next =>
    rw [← fileEntryOffset_eq, BitVec.ofNat_toNat, BitVec.setWidth_eq]
    cases fileEntryOffset machine.state.file machine.files.length header.dwarf5 with
    | none => rfl
    | some index =>
      simp only [resolvedFilePath_eq]
      rfl

/-- What a pass does to the row before and to the ranges when it appends a row, or none. -/
def Appends (fileTableIndex : Nat) (row : Option (Row Word LineLocation))
    (before after : LineMachine) : Prop :=
  match row with
  | none => after.previous = before.previous ∧ after.ranges = before.ranges
  | some row =>
    after.previous.map LineRow.row = row.open ∧
      after.ranges = before.ranges ++
        ((before.previous.map LineRow.row).bind (rangeTo row)).toList.map (ownedRange fileTableIndex)

theorem appends_emit (endSequence : Bool) (machine : LineMachine) :
    Appends fileTableIndex (some (machine.registers.row header.described endSequence)) machine
      (emit header fileTableIndex endSequence machine) := by
  refine ⟨?_, ?_⟩
  · unfold emit Row.open Registers.row
    dsimp only
    cases endSequence with
    | true => rfl
    | false =>
      rw [if_neg Bool.false_ne_true, if_neg Bool.false_ne_true, sourceLocation_eq]
      rfl
  · unfold emit
    dsimp only
    cases machine.previous with
    | none => exact (List.append_nil _).symm
    | some previous =>
      rw [Option.map_some, Option.bind_some]
      unfold rangeTo
      dsimp only
      by_cases hless : previous.address < machine.state.address
      · have hrow : previous.row.address <
            (machine.registers.row header.described endSequence).address := hless
        rw [if_pos hless, if_pos hrow]
        unfold LineRow.row
        cases previous.location with
        | none => exact (List.append_nil _).symm
        | some location => rfl
      · have hrow : ¬previous.row.address <
            (machine.registers.row header.described endSequence).address := hless
        rw [if_neg hless, if_neg hrow]
        exact (List.append_nil _).symm

/-- A pass does what an instruction does. -/
def FollowsLine (header : LineHeader) (fileTableIndex : Nat) (instruction : Instruction)
    (before after : LineMachine) : Prop :=
  (apply header.described before.registers instruction).1 = after.registers ∧
    Appends fileTableIndex (apply header.described before.registers instruction).2 before after

theorem registers_advance (machine : LineMachine) (operations : Nat) (delta : Word)
    (hdelta : delta = BitVec.ofNat 64 (operations * header.minimumInstructionLength)) :
    (machine.advance delta).registers = machine.registers.advance header.described operations := by
  rw [hdelta]
  rfl

theorem addressAdvance_eq (adjusted : Nat) : addressAdvance header adjusted =
    BitVec.ofNat 64 (adjusted / header.lineRange * header.minimumInstructionLength) := by
  unfold addressAdvance
  rw [BitVec.ofNat_mul]

theorem specialOpcode_follows (opcode : Nat) (machine : LineMachine) :
    FollowsLine header fileTableIndex (.special (opcode - header.opcodeBase)) machine
      (specialOpcode header fileTableIndex opcode machine) := by
  let adjusted := opcode - header.opcodeBase
  let moved := (machine.advance (addressAdvance header adjusted)).advanceLine
    (header.lineBase + adjusted % header.lineRange)
  have hregisters : (apply header.described machine.registers (.special adjusted)).1 =
      moved.registers := by
    unfold apply moved LineMachine.advanceLine
    dsimp only
    rw [← registers_advance machine _ _ (addressAdvance_eq adjusted),
      Int.add_assoc, Int.natCast_mod]
    rfl
  have hrow : (apply header.described machine.registers (.special adjusted)).2 =
      some (moved.registers.row header.described false) := by
    rw [← hregisters]
    rfl
  refine ⟨hregisters, ?_⟩
  rw [hrow]
  exact appends_emit false moved

theorem standardOpcode_follows {opcode : Nat} {machine after : LineMachine} {cursor next : Nat}
    (h : standardOpcode bytes header fileTableIndex opcode machine cursor = .ok (after, next)) :
    ∃ instruction, decodeStandard header.described opcode (codeAt bytes header.unitEnd cursor) =
        some (instruction, codeAt bytes header.unitEnd next) ∧
      FollowsLine header fileTableIndex instruction machine after := by
  unfold standardOpcode at h
  split at h
  · cases h
    exact ⟨.copy, rfl, rfl, appends_emit false machine⟩
  · obtain ⟨operand, middle, hoperand, hdone⟩ := bind_ok h
    cases hdone
    refine ⟨.advancePc operand.toNat, ?_, ?_, rfl, rfl⟩
    · rw [decodeStandard, takeNumber_of_readLineUleb hoperand]
      rfl
    · refine (registers_advance machine operand.toNat _ ?_).symm
      rw [BitVec.ofNat_mul, BitVec.ofNat_toNat, BitVec.setWidth_eq]
  · obtain ⟨operand, middle, hoperand, hdone⟩ := bind_ok h
    cases hdone
    refine ⟨.advanceLine operand, ?_, rfl, rfl, rfl⟩
    rw [decodeStandard, takeSigned_of_readLineSleb hoperand]
    rfl
  · obtain ⟨file, middle, hfile, hdone⟩ := bind_ok h
    cases hdone
    refine ⟨.setFile file.toNat, ?_, rfl, rfl, rfl⟩
    rw [decodeStandard, takeNumber_of_readLineUleb hfile]
    rfl
  · obtain ⟨column, middle, hcolumn, hdone⟩ := bind_ok h
    cases hdone
    refine ⟨.setColumn column.toNat, ?_, rfl, rfl, rfl⟩
    rw [decodeStandard, takeNumber_of_readLineUleb hcolumn]
    rfl
  · cases h
    exact ⟨.skip, rfl, rfl, rfl, rfl⟩
  · cases h
    exact ⟨.skip, rfl, rfl, rfl, rfl⟩
  · cases h
    exact ⟨.skip, rfl, rfl, rfl, rfl⟩
  · cases h
    exact ⟨.skip, rfl, rfl, rfl, rfl⟩
  · cases h
    exact ⟨.constAddPc, rfl, (registers_advance machine _ _ (addressAdvance_eq _)).symm, rfl, rfl⟩
  · obtain ⟨operand, middle, hoperand, hdone⟩ := bind_ok h
    cases hdone
    refine ⟨.fixedAdvancePc operand, ?_, rfl, rfl, rfl⟩
    rw [decodeStandard, takeField_of_readLineScalar hoperand]
    rfl
  · obtain ⟨operand, middle, hoperand, hdone⟩ := bind_ok h
    cases hdone
    refine ⟨.skip, ?_, rfl, rfl, rfl⟩
    rw [decodeStandard, takeNumber_of_readLineUleb hoperand]
    rfl
  · obtain ⟨operands, middle, hoperands, hdone⟩ := bind_ok h
    cases hdone
    refine ⟨.skip, ?_, rfl, rfl, rfl⟩
    unfold decodeStandard
    split <;> first | contradiction | skip
    rw [takeNumbers_of_readTimes hoperands]
    rfl

theorem extendedOpcode_follows {opcode payloadEnd : Nat} {machine after : LineMachine}
    {cursor next : Nat}
    (h : extendedOpcode bytes header fileTableIndex payloadEnd opcode machine cursor =
      .ok (after, next)) :
    ∃ instruction, extended opcode (codeAt bytes payloadEnd cursor) = some instruction ∧
      FollowsLine header fileTableIndex instruction machine after := by
  unfold extendedOpcode at h
  split at h
  · cases h
    exact ⟨.endSequence, rfl, rfl, appends_emit true machine⟩
  · obtain ⟨start, middle, hget, h⟩ := bind_ok h
    cases hget
    obtain ⟨hwidth, h⟩ := ite_throw_ok h
    obtain ⟨address, behind, haddress, hdone⟩ := bind_ok h
    cases hdone
    refine ⟨.setAddress address, ?_, rfl, rfl, rfl⟩
    rw [extended, takeField_of_readLineScalar haddress]
    rfl
  · obtain ⟨hversion, h⟩ := ite_throw_ok h
    obtain ⟨file, middle, hfile, hdone⟩ := bind_ok h
    cases hdone
    refine ⟨.defineFile file, ?_, rfl, rfl, rfl⟩
    rw [extended, takeFile_of_readV4FileEntry hfile]
    rfl
  · obtain ⟨discriminator, middle, hdiscriminator, hdone⟩ := bind_ok h
    cases hdone
    exact ⟨.skip, rfl, rfl, rfl, rfl⟩
  · cases h
    refine ⟨.skip, ?_, rfl, rfl, rfl⟩
    unfold extended
    split <;> first | contradiction | rfl

theorem extendedInstruction_follows {machine after : LineMachine} {cursor next : Nat}
    (hfile : header.unitEnd ≤ bytes.length)
    (h : extendedInstruction bytes header fileTableIndex machine cursor = .ok (after, next)) :
    ∃ instruction, LineProgram.decodeExtended (codeAt bytes header.unitEnd cursor) =
        some (instruction, codeAt bytes header.unitEnd next) ∧
      FollowsLine header fileTableIndex instruction machine after := by
  obtain ⟨payloadLength, start, hlength, h⟩ := bind_ok h
  obtain ⟨_, middle, hget, h⟩ := bind_ok h
  cases hget
  obtain ⟨hpayload, h⟩ := ite_throw_ok h
  obtain ⟨opcode, behind, hopcode, h⟩ := bind_ok h
  obtain ⟨final, stop, hmachine, hdone⟩ := bind_ok h
  cases hdone
  obtain ⟨instruction, hinstruction, hfollows⟩ := extendedOpcode_follows hmachine
  refine ⟨instruction, ?_, hfollows⟩
  obtain ⟨hzero, hroom⟩ := not_or.mp hpayload
  have hstart := (readLineScalar_next hopcode)
  have hpositive : payloadLength.toNat ≠ 0 := fun h => hzero (BitVec.eq_of_toNat_eq h)
  have hlong : ¬(codeAt bytes header.unitEnd start).length < payloadLength.toNat := by
    rw [codeAt_length hfile]
    exact hroom
  have hpayloadEnd : start + payloadLength.toNat ≤ header.unitEnd := by omega
  have htake := takeField_of_readLineScalar hopcode
  rw [codeAt_take hpayloadEnd] at htake
  rw [LineProgram.decodeExtended, takeNumber_of_readLineUleb hlength, Option.bind_eq_bind,
    Option.bind_some]
  dsimp only
  rw [if_neg hlong, htake, Option.bind_some]
  dsimp only
  rw [hinstruction, codeAt_drop]
  rfl

theorem lineOpcode_follows {machine after : LineMachine} {cursor next : Nat}
    (hfile : header.unitEnd ≤ bytes.length)
    (h : lineOpcode bytes header fileTableIndex machine cursor = .ok (after, next)) :
    ∃ instruction, LineProgram.decode header.described (codeAt bytes header.unitEnd cursor) =
        some (instruction, codeAt bytes header.unitEnd next) ∧
      FollowsLine header fileTableIndex instruction machine after := by
  obtain ⟨opcode, middle, hopcode, h⟩ := bind_ok h
  obtain ⟨byte, hcode, rfl⟩ := eq_cons_of_takeField (takeField_of_readLineScalar hopcode)
  rw [hcode, LineProgram.decode]
  split at h
  next hextended =>
    rw [if_pos hextended]
    exact extendedInstruction_follows hfile h
  next hextended =>
    rw [if_neg hextended]
    split at h
    next hstandard =>
      rw [if_pos hstandard]
      exact standardOpcode_follows h
    next hspecial =>
      rw [if_neg hspecial]
      cases h
      exact ⟨_, rfl, specialOpcode_follows _ machine⟩

/-- The ranges of the rows to come, from what a pass leaves. -/
theorem FollowsLine.ranges {instruction : Instruction} {instructions : List Instruction}
    {before after : LineMachine} (h : FollowsLine header fileTableIndex instruction before after) :
    before.ranges ++ (rangesFrom (before.previous.map LineRow.row)
        (rowsFrom header.described before.registers (instruction :: instructions))).map
          (ownedRange fileTableIndex) =
      after.ranges ++ (rangesFrom (after.previous.map LineRow.row)
        (rowsFrom header.described after.registers instructions)).map
          (ownedRange fileTableIndex) := by
  obtain ⟨hregisters, happends⟩ := h
  rw [rowsFrom, hregisters]
  cases hrow : (apply header.described before.registers instruction).2 with
  | none =>
    rw [hrow] at happends
    obtain ⟨hprevious, hranges⟩ := happends
    rw [hprevious, hranges]
    rfl
  | some row =>
    rw [hrow] at happends
    obtain ⟨hprevious, hranges⟩ := happends
    rw [hprevious, hranges, Option.toList_some, List.singleton_append, rangesFrom, List.map_append,
      List.append_assoc]

/-- The loop appends the ranges of the rows that its instructions append. -/
theorem runLineProgram_follows {machine final : LineMachine} {cursor stop : Nat}
    (hfile : header.unitEnd ≤ bytes.length)
    (h : runLineProgram bytes header fileTableIndex machine cursor = .ok (final, stop)) :
    ∃ instructions, Encodes header.described instructions (codeAt bytes header.unitEnd cursor) ∧
      final.ranges = machine.ranges ++ (rangesFrom (machine.previous.map LineRow.row)
        (rowsFrom header.described machine.registers instructions)).map
          (ownedRange fileTableIndex) := by
  refine Loop.scan_induction lineOpcode_next
    (motive := fun machine cursor final _ => ∃ instructions,
      Encodes header.described instructions (codeAt bytes header.unitEnd cursor) ∧
        final.ranges = machine.ranges ++ (rangesFrom (machine.previous.map LineRow.row)
          (rowsFrom header.described machine.registers instructions)).map
            (ownedRange fileTableIndex))
    ?_ ?_ h
  · intro machine cursor hend
    rw [codeAt_eq_nil hend]
    refine ⟨[], .nil, ?_⟩
    rw [rowsFrom, rangesFrom, List.map_nil, List.append_nil]
  · intro machine cursor after next final stop _ hpass hrest
    obtain ⟨instruction, hdecode, hfollows⟩ := lineOpcode_follows hfile hpass
    obtain ⟨instructions, hencodes, hranges⟩ := hrest
    exact ⟨instruction :: instructions, .cons hdecode hencodes, by rw [hranges, hfollows.ranges]⟩

end Pass

/-! ## Units -/

/-- A unit of the section: its header and the instructions of its program. -/
structure LineUnitProgram where
  header : Header
  instructions : List Instruction

/-- The ranges of a unit in the table. -/
def LineUnitProgram.ranges (unit : LineUnitProgram) (fileTableIndex : Nat) : List LineRange :=
  (LineRows.ranges (rows unit.header unit.instructions)).map (ownedRange fileTableIndex)

/-- The ranges of units, numbered from `first`. -/
def unitRanges (units : List LineUnitProgram) (first : Nat) : List LineRange :=
  (units.zipIdx first).flatMap fun (unit, fileTableIndex) => unit.ranges fileTableIndex

/-- The units in the bytes of the section, up to its end. -/
inductive LineUnits (strings : Option (List Byte)) : List Byte → List LineUnitProgram → Prop
  | done : LineUnits strings [] []
  | unit {code program rest : List Byte} {header : Header} {instructions : List Instruction}
      {units : List LineUnitProgram} : takeUnit strings code = some (header, program, rest) →
    Encodes header instructions program → LineUnits strings rest units →
    LineUnits strings code (⟨header, instructions⟩ :: units)

theorem LineUnits.unique {strings : Option (List Byte)} {code : List Byte}
    {units units' : List LineUnitProgram} (h : LineUnits strings code units)
    (h' : LineUnits strings code units') : units = units' := by
  induction h generalizing units' with
  | done =>
    cases h' with
    | done => rfl
    | unit htake => cases htake
  | unit htake hencodes _ ih =>
    cases h' with
    | done => cases htake
    | unit htake' hencodes' hrest =>
      rw [htake] at htake'
      cases htake'
      rw [hencodes.unique hencodes', ih hrest]

section Units

variable {bytes : List Byte} {sectionEnd : Nat} {lineStrings : Option (SectionRange bytes)}

/-- A pass over a unit adds its file table and its ranges. -/
theorem parseUnit_follows (hfile : sectionEnd ≤ bytes.length)
    {tables tables' : List LineFileTable × List LineRange} {cursor next : Nat}
    (h : parseUnit bytes sectionEnd lineStrings tables cursor = .ok (tables', next)) :
    ∃ header program instructions,
      takeUnit (lineStrings.map content) (codeAt bytes sectionEnd cursor) =
        some (header, program, codeAt bytes sectionEnd next) ∧
      Encodes header instructions program ∧ tables'.1.length = tables.1.length + 1 ∧
      tables'.2 = tables.2 ++ LineUnitProgram.ranges ⟨header, instructions⟩ tables.1.length := by
  obtain ⟨header, start, hheader, h⟩ := bind_ok h
  obtain ⟨machine, stop, hmachine, hdone⟩ := bind_ok h
  cases hdone
  obtain ⟨_, hlimit, hsection⟩ := readLineHeader_next hheader
  obtain ⟨instructions, hencodes, hranges⟩ :=
    runLineProgram_follows (hsection.trans hfile) hmachine
  obtain rfl := runLineProgram_next hlimit hmachine
  refine ⟨_, _, instructions, takeUnit_of_readLineHeader hfile hheader, hencodes, ?_, ?_⟩
  · rw [List.length_append]
    rfl
  · rw [hranges, Option.map_none, (rangesFrom_eq _).1]
    rfl

theorem parseUnits_follows (hfile : sectionEnd ≤ bytes.length)
    {tables tables' : List LineFileTable × List LineRange} {cursor stop : Nat}
    (h : parseUnits bytes sectionEnd lineStrings tables cursor = .ok (tables', stop)) :
    ∃ units, LineUnits (lineStrings.map content) (codeAt bytes sectionEnd cursor) units ∧
      tables'.1.length = tables.1.length + units.length ∧
      tables'.2 = tables.2 ++ unitRanges units tables.1.length := by
  refine Loop.scan_induction parseUnit_next
    (motive := fun tables cursor tables' _ => ∃ units,
      LineUnits (lineStrings.map content) (codeAt bytes sectionEnd cursor) units ∧
      tables'.1.length = tables.1.length + units.length ∧
      tables'.2 = tables.2 ++ unitRanges units tables.1.length) ?_ ?_ h
  · intro tables cursor hend
    rw [codeAt_eq_nil hend]
    exact ⟨[], .done, rfl, (List.append_nil _).symm⟩
  · intro tables cursor middle next tables' stop hlimit hpass hrest
    obtain ⟨header, program, instructions, htake, hencodes, hlength, hranges⟩ :=
      parseUnit_follows hfile hpass
    obtain ⟨units, hunits, hlength', hranges'⟩ := hrest
    refine ⟨⟨header, instructions⟩ :: units, .unit htake hencodes hunits, ?_, ?_⟩
    · rw [hlength', hlength, List.length_cons]
      omega
    · rw [hranges', hranges, hlength, unitRanges, unitRanges, List.zipIdx_cons,
        List.flatMap_cons, List.append_assoc]

end Units

/-! ## The table -/

/-- The units of a file, which may have no section of line tables. -/
def LineUnitsOf (bytes : List Byte) (units : List LineUnitProgram) : Prop :=
  match sectionNamed bytes ".debug_line" with
  | none => units = []
  | some code => LineUnits (sectionNamed bytes ".debug_line_str") code units

theorem LineUnitsOf.unique {bytes : List Byte} {units units' : List LineUnitProgram}
    (h : LineUnitsOf bytes units) (h' : LineUnitsOf bytes units') : units = units' := by
  unfold LineUnitsOf at h h'
  cases hcode : sectionNamed bytes ".debug_line" with
  | none =>
    rw [hcode] at h h'
    exact h.trans h'.symm
  | some code =>
    rw [hcode] at h h'
    exact LineUnits.unique h h'

theorem lineUnitsOf_of_none {bytes : List Byte}
    (h : findDebugSection bytes ".debug_line" = .ok none) : LineUnitsOf bytes [] := by
  rw [LineUnitsOf, sectionNamed_of_findDebugSection h]
  rfl

theorem lineUnitsOf_of_some {bytes : List Byte} {section_ : SectionRange bytes}
    {lineStrings : Option (SectionRange bytes)} {units : List LineUnitProgram}
    (h : findDebugSection bytes ".debug_line" = .ok (some section_))
    (hstrings : findDebugSection bytes ".debug_line_str" = .ok lineStrings)
    (hunits : LineUnits (lineStrings.map content) (content section_) units) :
    LineUnitsOf bytes units := by
  rw [LineUnitsOf, sectionNamed_of_findDebugSection h, sectionNamed_of_findDebugSection hstrings]
  exact hunits

theorem mem_unitRanges {units : List LineUnitProgram} {range : LineRange} :
    range ∈ unitRanges units 0 ↔ ∃ unit, units[range.fileTableIndex]? = some unit ∧
      ⟨range.first, range.last, range.location⟩ ∈
        LineRows.ranges (rows unit.header unit.instructions) := by
  unfold unitRanges LineUnitProgram.ranges
  simp only [List.mem_flatMap, List.mem_map, Prod.exists, List.mem_zipIdx_iff_getElem?]
  refine ⟨?_, ?_⟩
  · intro ⟨unit, index, hunit, matrixRange, hmem, hrange⟩
    subst hrange
    exact ⟨unit, hunit, hmem⟩
  · intro ⟨unit, hunit, hmem⟩
    exact ⟨unit, range.fileTableIndex, hunit, _, hmem, rfl⟩

theorem parseLineTable_follows {bytes : List Byte} {fileTables : List LineFileTable}
    {ranges : List LineRange} (h : parseLineTable bytes = .ok (fileTables, ranges)) :
    ∃ units, LineUnitsOf bytes units ∧ fileTables.length = units.length ∧
      ranges = unitRanges units 0 := by
  obtain ⟨section_, hsection, h⟩ := Checks.bind_eq_ok.mp h
  cases section_ with
  | none =>
    cases h
    exact ⟨[], lineUnitsOf_of_none hsection, rfl, rfl⟩
  | some section_ =>
    obtain ⟨lineStrings, hstrings, h⟩ := Checks.bind_eq_ok.mp h
    obtain ⟨⟨tables, stop⟩, htables, hdone⟩ := Checks.bind_eq_ok.mp h
    cases hdone
    obtain ⟨units, hunits, hlength, hranges⟩ := parseUnits_follows section_.within htables
    refine ⟨units, lineUnitsOf_of_some hsection hstrings hunits, ?_, hranges⟩
    rw [hlength]
    exact Nat.zero_add _

theorem LineRange.before_total (left right : LineRange) :
    LineRange.Before left right ∨ LineRange.Before right left := by
  unfold LineRange.Before
  bv_omega

theorem LineRange.before_trans {a b c : LineRange} (h : LineRange.Before a b)
    (h' : LineRange.Before b c) : LineRange.Before a c := by
  unfold LineRange.Before at *
  bv_omega

/-- Every file that is accepted has a table. -/
theorem exists_parsedFrom {bytes : List Byte} {tables : List LineFileTable × List LineRange}
    (h : parseLineTable bytes = .ok tables) : ∃ table : LineTable, table.ParsedFrom bytes := by
  obtain ⟨fileTables, ranges⟩ := tables
  obtain ⟨units, hunits, hlength, rfl⟩ := parseLineTable_follows h
  let le (left right : LineRange) : Bool := LineRange.Before left right
  have hperm := List.mergeSort_perm (unitRanges units 0) le
  have hsorted : ((unitRanges units 0).mergeSort le).Pairwise (fun left right => le left right) := by
    refine List.pairwise_mergeSort ?_ ?_ _
    · intro a b c hab hbc
      exact decide_eq_true
        (LineRange.before_trans (of_decide_eq_true hab) (of_decide_eq_true hbc))
    · intro a b
      rw [Bool.or_eq_true, decide_eq_true_iff, decide_eq_true_iff]
      exact LineRange.before_total a b
  refine ⟨⟨fileTables, (unitRanges units 0).mergeSort le, ?_, ?_, ?_⟩, _, h, hperm⟩
  · intro range hmem
    obtain ⟨unit, _, hrange⟩ := mem_unitRanges.mp (hperm.mem_iff.mp hmem)
    exact first_lt_last hrange
  · exact hsorted.imp of_decide_eq_true
  · intro range hmem
    obtain ⟨unit, hunit, _⟩ := mem_unitRanges.mp (hperm.mem_iff.mp hmem)
    obtain ⟨hlt, _⟩ := List.getElem?_eq_some_iff.mp hunit
    rwa [hlength]

/-- A line register that is an `int64_t` is the line of its location. -/
theorem location_line {header : Header} {registers : Registers} {location : LineLocation}
    (h : registers.location header = some location) (hmax : registers.line ≤ int64Max) :
    (location.line.toNat : Int) = registers.line := by
  unfold Registers.location at h
  split at h
  · cases h
  next hpositive =>
    obtain ⟨file, _, rfl⟩ := Option.map_eq_some_iff.mp h
    have hmax' : int64Max = 2 ^ 63 - 1 := rfl
    rw [BitVec.toNat_ofInt]
    omega

/-- What `DwarfLineTable::parse` makes of any bytes. A range of a table comes from two consecutive
rows of one sequence in the matrix of the unit that owns it. -/
structure RunsLinePrograms (bytes : List Byte) : Prop where
  builds : ∀ ⦃tables⦄, parseLineTable bytes = .ok tables →
    ∃ table : LineTable, table.ParsedFrom bytes
  ranges : ∀ ⦃table : LineTable⦄, table.ParsedFrom bytes → ∃ units, LineUnitsOf bytes units ∧
    table.ranges.Perm (unitRanges units 0) ∧
    ∀ range ∈ table.ranges, range.first < range.last ∧
      ∃ unit, units[range.fileTableIndex]? = some unit ∧
        ∃ sequence ∈ sequences (rows unit.header unit.instructions),
        ∃ before row next after, sequence = before ++ row :: next :: after ∧
          row.endSequence = false ∧ row.address = range.first ∧ next.address = range.last ∧
          row.label = some range.location
  sorted : ∀ ⦃table : LineTable⦄, table.ParsedFrom bytes →
    table.ranges.Pairwise LineRange.Before
  line : ∀ {header : Header} {registers : Registers} {location : LineLocation},
    registers.location header = some location → registers.line ≤ int64Max →
    (location.line.toNat : Int) = registers.line
  program_ends : ∀ (header : LineHeader) (fileTableIndex : Nat) (machine : LineMachine)
      (cursor : Nat),
    Loop.Ends (Loop.scanRound header.unitEnd (lineOpcode bytes header fileTableIndex))
      (machine, cursor) (runLineProgram bytes header fileTableIndex machine cursor)
  units_end : ∀ (sectionEnd : Nat) (lineStrings : Option (SectionRange bytes))
      (tables : List LineFileTable × List LineRange) (cursor : Nat),
    Loop.Ends (Loop.scanRound sectionEnd (parseUnit bytes sectionEnd lineStrings))
      (tables, cursor) (parseUnits bytes sectionEnd lineStrings tables cursor)

theorem runsLinePrograms (bytes : List Byte) : RunsLinePrograms bytes where
  builds _ h := exists_parsedFrom h
  ranges := by
    intro table ⟨ranges, hparse, hperm⟩
    obtain ⟨units, hunits, hlength, rfl⟩ := parseLineTable_follows hparse
    refine ⟨units, hunits, hperm, ?_⟩
    intro range hrange
    obtain ⟨unit, hunit, hmem⟩ := mem_unitRanges.mp (hperm.mem_iff.mp hrange)
    obtain ⟨sequence, hsequence, before, row, next, after, hsplit, hto⟩ := mem_ranges.mp hmem
    obtain ⟨_, hfirst, hlast, hlabel⟩ := rangeTo_eq_some.mp hto
    exact ⟨table.nonempty range hrange, unit, hunit, sequence, hsequence, before, row, next, after,
      hsplit, open_of_mem_sequences hsequence hsplit, hfirst, hlast, hlabel⟩
  sorted table _ := table.sorted
  line := location_line
  program_ends _ _ _ _ := Loop.scan_ends _ _ _
  units_end _ _ _ _ := Loop.scan_ends _ _ _

/-- A file whose first section is `.debug_line`. -/
def lineFile (content : List Byte) : List Byte :=
  let header : List Byte := [0x7f, 0x45, 0x4c, 0x46, 2, 1, 1] ++ List.replicate 11 0 ++ [62, 0] ++
    List.replicate 20 0 ++ fieldBytes 8 64 ++ List.replicate 10 0 ++ fieldBytes 2 64 ++
    fieldBytes 2 2 ++ fieldBytes 2 1
  let sectionHeader (name offset size : Nat) : List Byte := fieldBytes 4 name ++
    List.replicate 20 0 ++ fieldBytes 8 offset ++ fieldBytes 8 size ++ List.replicate 24 0
  let names : List Byte := [0, 0x2e, 0x64, 0x65, 0x62, 0x75, 0x67, 0x5f, 0x6c, 0x69, 0x6e, 0x65, 0]
  header ++ sectionHeader 1 205 content.length ++ sectionHeader 0 192 13 ++ names ++ content

/-- A version 5 unit with these tables of directories and files. -/
def lineUnit (tables program : List Byte) : List Byte :=
  let header : List Byte := [1, 1, 1, 0xfb, 14, 13] ++ [0, 1, 1, 1, 1, 0, 0, 0, 1, 0, 0, 1] ++
    tables
  fieldBytes 4 (8 + header.length + program.length) ++ fieldBytes 2 5 ++ [8, 0] ++
    fieldBytes 4 header.length ++ header ++ program

/-- The directory `/s` with the files `a` and `b`. -/
def sampleTables : List Byte :=
  [1, 1, 8, 1, 0x2f, 0x73, 0] ++ [2, 1, 8, 2, 0x0b, 2, 0x61, 0, 0, 0x62, 0, 0]

/-- `DW_LNE_set_address` 0x1000, `DW_LNS_advance_line` 2, `DW_LNS_copy`, `DW_LNS_advance_pc` 16 and
`DW_LNE_end_sequence` -/
def sampleProgram : List Byte :=
  [0, 9, 2] ++ fieldBytes 8 0x1000 ++ [3, 2, 1, 2, 16, 0, 1, 1]

def sampleFile : List Byte := lineFile (lineUnit sampleTables sampleProgram)

def sampleHeader : LineHeader where
  dwarf5 := true
  addressSize := 8
  headerEnd := 254
  unitEnd := 273
  minimumInstructionLength := 1
  lineBase := -5
  lineRange := 14
  opcodeBase := 13
  standardOpcodeLengths := [0, 1, 1, 1, 1, 0, 0, 0, 1, 0, 0, 1]
  directories := ["/s".toList]
  files := [⟨"a".toList, 0⟩, ⟨"b".toList, 0⟩]

def sampleInstructions : List Instruction :=
  [.setAddress 0x1000, .advanceLine 2, .copy, .advancePc 16, .endSequence]

theorem lineUnitsOf_sampleFile :
    LineUnitsOf sampleFile [⟨sampleHeader.described, sampleInstructions⟩] := by
  have hcode : sectionNamed sampleFile ".debug_line" =
      some (lineUnit sampleTables sampleProgram) := by decide +kernel
  have hunit : takeUnit (sectionNamed sampleFile ".debug_line_str")
      (lineUnit sampleTables sampleProgram) = some (sampleHeader.described, sampleProgram, []) := by
    decide +kernel
  have hadvanceLine : Encodes sampleHeader.described
      [.advanceLine 2, .copy, .advancePc 16, .endSequence] [3, 2, 1, 2, 16, 0, 1, 1] := by
    have hend : Encodes sampleHeader.described [.endSequence] [0, 1, 1] :=
      .cons (by decide +kernel) .nil
    have hadvance : Encodes sampleHeader.described [.advancePc 16, .endSequence]
        [2, 16, 0, 1, 1] := .cons (by decide +kernel) hend
    have hcopy : Encodes sampleHeader.described [.copy, .advancePc 16, .endSequence]
        [1, 2, 16, 0, 1, 1] := .cons (by decide +kernel) hadvance
    exact .cons (by decide +kernel) hcopy
  have hencodes : Encodes sampleHeader.described sampleInstructions sampleProgram :=
    .cons (by decide +kernel) hadvanceLine
  rw [LineUnitsOf, hcode]
  exact .unit hunit hencodes .done

/-- The range between its two rows, which the second file of the unit labels. -/
theorem runsLinePrograms_sample : ∃ table : LineTable, table.ParsedFrom sampleFile ∧
    table.ranges = [⟨0x1000, 0x1010, ⟨"/s/b".toList, 3, 0⟩, 0⟩] := by
  let files := sampleHeader.files
  let row : LineRow := ⟨0x1000, some ⟨"/s/b".toList, 3, 0⟩⟩
  let range : LineRange := ⟨0x1000, 0x1010, ⟨"/s/b".toList, 3, 0⟩, 0⟩
  have hsection : findDebugSection sampleFile ".debug_line" =
      .ok (some ⟨205, 68, by decide +kernel⟩) := by decide +kernel
  have hstrings : findDebugSection sampleFile ".debug_line_str" = .ok none := by decide +kernel
  have hheader : readLineHeader sampleFile 273 none 205 = .ok (sampleHeader, 254) := by
    decide +kernel
  have haddress : lineOpcode sampleFile sampleHeader 0 { files, ranges := [] } 254 =
      .ok ({ state := { address := 0x1000 }, files, ranges := [] }, 265) := by decide +kernel
  have hline : lineOpcode sampleFile sampleHeader 0
      { state := { address := 0x1000 }, files, ranges := [] } 265 =
      .ok ({ state := { address := 0x1000, line := 3 }, files, ranges := [] }, 267) := by
    decide +kernel
  have hcopy : lineOpcode sampleFile sampleHeader 0
      { state := { address := 0x1000, line := 3 }, files, ranges := [] } 267 =
      .ok ({ state := { address := 0x1000, line := 3 }, previous := row, files, ranges := [] },
        268) := by
    decide +kernel
  have hadvance : lineOpcode sampleFile sampleHeader 0
      { state := { address := 0x1000, line := 3 }, previous := row, files, ranges := [] } 268 =
      .ok ({ state := { address := 0x1010, line := 3 }, previous := row, files, ranges := [] },
        270) := by
    decide +kernel
  have hend : lineOpcode sampleFile sampleHeader 0
      { state := { address := 0x1010, line := 3 }, previous := row, files, ranges := [] } 270 =
      .ok ({ files, ranges := [range] }, 273) := by
    decide +kernel
  have hprogram : runLineProgram sampleFile sampleHeader 0 { files, ranges := [] } 254 =
      .ok ({ files, ranges := [range] }, 273) :=
    calc runLineProgram sampleFile sampleHeader 0 { files, ranges := [] } 254
      _ = _ := Loop.scan_of_ok lineOpcode_next (by decide) haddress
      _ = _ := Loop.scan_of_ok lineOpcode_next (by decide) hline
      _ = _ := Loop.scan_of_ok lineOpcode_next (by decide) hcopy
      _ = _ := Loop.scan_of_ok lineOpcode_next (by decide) hadvance
      _ = _ := Loop.scan_of_ok lineOpcode_next (by decide) hend
      _ = _ := Loop.scan_of_not_lt lineOpcode_next _ (by decide)
  have hunit : parseUnit sampleFile 273 none ([], []) 205 =
      .ok (([⟨true, ["/s/a".toList, "/s/b".toList]⟩], [range]), 273) := by
    rw [parseUnit, bind_of_read hheader, List.length_nil]
    exact bind_of_read hprogram
  have hunits : parseUnits sampleFile 273 none ([], []) 205 =
      .ok (([⟨true, ["/s/a".toList, "/s/b".toList]⟩], [range]), 273) :=
    (Loop.scan_of_ok parseUnit_next (by decide) hunit).trans
      (Loop.scan_of_not_lt parseUnit_next _ (by decide))
  have hparse : parseLineTable sampleFile =
      .ok ([⟨true, ["/s/a".toList, "/s/b".toList]⟩], [range]) := by
    rw [parseLineTable, hsection, Checks.ok_bind]
    dsimp only
    rw [hstrings, Checks.ok_bind]
    exact Checks.bind_eq_ok.mpr ⟨_, hunits, rfl⟩
  obtain ⟨table, htable⟩ := (runsLinePrograms sampleFile).builds hparse
  obtain ⟨units, hof, hperm, -⟩ := (runsLinePrograms sampleFile).ranges htable
  obtain rfl := hof.unique lineUnitsOf_sampleFile
  have hranges : unitRanges [⟨sampleHeader.described, sampleInstructions⟩] 0 = [range] := by
    decide +kernel
  rw [hranges, List.perm_singleton] at hperm
  exact ⟨table, htable, hperm⟩

end MiniDebugger
