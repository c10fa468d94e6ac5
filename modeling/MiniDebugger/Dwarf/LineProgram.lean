import MiniDebugger.Dwarf.LineHeader
import MiniDebugger.Loops

/-!
# The line programs of `.debug_line`

`DwarfLineTable::parse` runs the line program of every unit. A row that the program emits ends the
row before it, and the range between them is kept when the row before has a location; all ranges are
sorted at the end. The line register is an integer here, so that it cannot overflow.
-/

namespace MiniDebugger

@[match_pattern] abbrev kLnsCopy : Nat := 1
@[match_pattern] abbrev kLnsAdvancePc : Nat := 2
@[match_pattern] abbrev kLnsAdvanceLine : Nat := 3
@[match_pattern] abbrev kLnsSetFile : Nat := 4
@[match_pattern] abbrev kLnsSetColumn : Nat := 5
@[match_pattern] abbrev kLnsNegateStmt : Nat := 6
@[match_pattern] abbrev kLnsSetBasicBlock : Nat := 7
@[match_pattern] abbrev kLnsConstAddPc : Nat := 8
@[match_pattern] abbrev kLnsFixedAdvancePc : Nat := 9
@[match_pattern] abbrev kLnsSetPrologueEnd : Nat := 10
@[match_pattern] abbrev kLnsSetEpilogueBegin : Nat := 11
@[match_pattern] abbrev kLnsSetIsa : Nat := 12

@[match_pattern] abbrev kLneEndSequence : Nat := 1
@[match_pattern] abbrev kLneSetAddress : Nat := 2
@[match_pattern] abbrev kLneDefineFile : Nat := 3
@[match_pattern] abbrev kLneSetDiscriminator : Nat := 4

/-- `Row` -/
structure LineRow where
  address : Word
  location : Option LineLocation
  deriving DecidableEq, Repr

/-- `State` -/
structure LineState where
  address : Word := 0
  file : Word := 1
  -- an `int64_t` in the source: behind an overflow of it the ranges are not the compiled code's
  line : Int := 1
  column : Word := 0
  deriving DecidableEq, Repr

def resolvedFilePath (file : FileEntry) (directories : List FilePath) (dwarf5 : Bool) : FilePath :=
  let path := file.name
  let index := file.directoryIndex.toNat
  if path.isAbsolute then path
  else if dwarf5 then
    if h : index < directories.length then directories[index].append path else path
  else if h : index ≠ 0 ∧ index ≤ directories.length then directories[index - 1].append path
  else path

def sourceLocation (state : LineState) (directories : List FilePath) (files : List FileEntry)
    (dwarf5 : Bool) : Option LineLocation :=
  if state.line ≤ 0 then none
  else
    match fileEntryOffset state.file files.length dwarf5 with
    | none => none
    | some fileIndex =>
      files[fileIndex]?.map fun file =>
        ⟨resolvedFilePath file directories dwarf5, BitVec.ofInt 64 state.line, state.column⟩

/-- The variables of a unit that its program changes, and the ranges of the table so far. -/
structure LineMachine where
  state : LineState := {}
  previous : Option LineRow := none
  files : List FileEntry
  ranges : List LineRange
  deriving DecidableEq, Repr

section Program

variable (bytes : List Byte) (header : LineHeader) (fileTableIndex : Nat)

def emit (endSequence : Bool) (machine : LineMachine) : LineMachine :=
  let state := machine.state
  let ranges :=
    match machine.previous with
    | none => machine.ranges
    | some previous =>
      if previous.address < state.address then
        match previous.location with
        | none => machine.ranges
        | some location =>
          machine.ranges ++ [⟨previous.address, state.address, location, fileTableIndex⟩]
      else machine.ranges
  let previous :=
    if endSequence then none
    else some ⟨state.address, sourceLocation state header.directories machine.files header.dwarf5⟩
  { machine with previous, ranges }

def LineMachine.advance (delta : Word) (machine : LineMachine) : LineMachine :=
  { machine with state := { machine.state with address := machine.state.address + delta } }

def LineMachine.advanceLine (delta : Int) (machine : LineMachine) : LineMachine :=
  { machine with state := { machine.state with line := machine.state.line + delta } }

/-- The address of a special opcode, or of `DW_LNS_const_add_pc` as of the last one. -/
def addressAdvance (adjusted : Nat) : Word :=
  BitVec.ofNat 64 (adjusted / header.lineRange) * BitVec.ofNat 64 header.minimumInstructionLength

/-- The operand of an extended opcode, which ends at `payloadEnd` or before. -/
def extendedOpcode (payloadEnd opcode : Nat) (machine : LineMachine) : Parse LineMachine :=
  match opcode with
  | kLneEndSequence => return { emit header fileTableIndex true machine with state := {} }
  | kLneSetAddress => do
    let cursor ← get
    if payloadEnd - cursor ≠ header.addressSize then
      throw (.runtimeError "DWARF set_address width does not match line header")
    let address ← readLineScalar bytes payloadEnd 8 "DWARF set_address operand"
    return { machine with state := { machine.state with address := BitVec.ofNat 64 address } }
  | kLneDefineFile => do
    if header.dwarf5 then throw (.runtimeError "DWARF5 define_file opcode is unsupported")
    let file ← readV4FileEntry bytes payloadEnd
    return { machine with files := machine.files ++ [file] }
  | kLneSetDiscriminator => do
    let _ ← readLineUleb bytes payloadEnd
    return machine
  | _ => return machine

def extendedInstruction (machine : LineMachine) : Parse LineMachine := do
  let payloadLength ← readLineUleb bytes header.unitEnd
  let cursor ← get
  if payloadLength = 0 ∨ header.unitEnd - cursor < payloadLength.toNat then
    throw (.runtimeError "invalid DWARF extended line opcode length")
  let payloadEnd := cursor + payloadLength.toNat
  let opcode ← readLineScalar bytes payloadEnd 1 "DWARF extended line opcode"
  let machine ← extendedOpcode bytes header fileTableIndex payloadEnd opcode machine
  set payloadEnd
  return machine

def standardOpcode (opcode : Nat) (machine : LineMachine) : Parse LineMachine :=
  match opcode with
  | kLnsCopy => return emit header fileTableIndex false machine
  | kLnsAdvancePc => do
    let operand ← readLineUleb bytes header.unitEnd
    return machine.advance (operand * BitVec.ofNat 64 header.minimumInstructionLength)
  | kLnsAdvanceLine => do
    let operand ← readLineSleb bytes header.unitEnd
    return machine.advanceLine operand
  | kLnsSetFile => do
    let file ← readLineUleb bytes header.unitEnd
    return { machine with state := { machine.state with file } }
  | kLnsSetColumn => do
    let column ← readLineUleb bytes header.unitEnd
    return { machine with state := { machine.state with column } }
  | kLnsNegateStmt => return machine
  | kLnsSetBasicBlock => return machine
  | kLnsSetPrologueEnd => return machine
  | kLnsSetEpilogueBegin => return machine
  | kLnsConstAddPc => return machine.advance (addressAdvance header (255 - header.opcodeBase))
  | kLnsFixedAdvancePc => do
    let operand ← readLineScalar bytes header.unitEnd 2 "fixed advance PC operand"
    return machine.advance (BitVec.ofNat 64 operand)
  | kLnsSetIsa => do
    let _ ← readLineUleb bytes header.unitEnd
    return machine
  | _ => do
    let operandCount := header.standardOpcodeLengths.getD (opcode - 1) 0
    let _ ← readTimes (readLineUleb bytes header.unitEnd) operandCount
    return machine

def specialOpcode (opcode : Nat) (machine : LineMachine) : LineMachine :=
  let adjusted := opcode - header.opcodeBase
  emit header fileTableIndex false
    ((machine.advance (addressAdvance header adjusted)).advanceLine
      (header.lineBase + adjusted % header.lineRange))

/-- One pass of the loop over the opcodes. -/
def lineOpcode (machine : LineMachine) : Parse LineMachine := do
  let opcode ← readLineScalar bytes header.unitEnd 1 "DWARF line opcode"
  if opcode = 0 then extendedInstruction bytes header fileTableIndex machine
  else if opcode < header.opcodeBase then
    standardOpcode bytes header fileTableIndex opcode machine
  else return specialOpcode header fileTableIndex opcode machine

/-! ### Passes move forward -/

variable {bytes header fileTableIndex}

theorem moves_readTimes {α : Type} {limit : Nat} {read : Parse α} (hread : Moves limit read)
    (count : Nat) : Moves limit (readTimes read count) := by
  induction count with
  | zero => exact moves_pure _
  | succ count ih => exact moves_bind hread fun _ => moves_bind ih fun _ => moves_pure _

/-- A payload ends within the unit, whatever its opcode reads of it. -/
theorem moves_extendedInstruction {machine : LineMachine} :
    Moves header.unitEnd (extendedInstruction bytes header fileTableIndex machine) := by
  intro cursor result next h hlimit
  obtain ⟨payloadLength, middle, hlength, h⟩ := bind_ok h
  obtain ⟨start, behind, hget, h⟩ := bind_ok h
  cases hget
  obtain ⟨hpayload, h⟩ := ite_throw_ok h
  obtain ⟨opcode, behind, hopcode, h⟩ := bind_ok h
  obtain ⟨machine, behind, hmachine, hdone⟩ := bind_ok h
  cases hdone
  have := moves_readLineUleb hlength hlimit
  omega

theorem moves_standardOpcode {machine : LineMachine} (opcode : Nat) :
    Moves header.unitEnd (standardOpcode bytes header fileTableIndex opcode machine) := by
  unfold standardOpcode
  split
  · exact moves_pure _
  · exact moves_bind moves_readLineUleb fun _ => moves_pure _
  · exact moves_bind moves_readLineSleb fun _ => moves_pure _
  · exact moves_bind moves_readLineUleb fun _ => moves_pure _
  · exact moves_bind moves_readLineUleb fun _ => moves_pure _
  · exact moves_pure _
  · exact moves_pure _
  · exact moves_pure _
  · exact moves_pure _
  · exact moves_pure _
  · exact moves_bind moves_readLineScalar fun _ => moves_pure _
  · exact moves_bind moves_readLineUleb fun _ => moves_pure _
  · exact moves_bind (moves_readTimes moves_readLineUleb _) fun _ => moves_pure _

theorem lineOpcode_within {machine result : LineMachine} {cursor next : Nat}
    (h : lineOpcode bytes header fileTableIndex machine cursor = .ok (result, next)) :
    cursor < next ∧ next ≤ header.unitEnd := by
  obtain ⟨opcode, middle, hopcode, hrest⟩ := bind_ok h
  obtain ⟨hmiddle, hlimit⟩ := readLineScalar_next hopcode
  have hmoves : Moves header.unitEnd (if opcode = 0 then
        extendedInstruction bytes header fileTableIndex machine
      else if opcode < header.opcodeBase then
        standardOpcode bytes header fileTableIndex opcode machine
      else pure (specialOpcode header fileTableIndex opcode machine)) :=
    moves_ite moves_extendedInstruction (moves_ite (moves_standardOpcode opcode) (moves_pure _))
  have := hmoves hrest hlimit
  omega

theorem lineOpcode_next : Loop.Advances (lineOpcode bytes header fileTableIndex) :=
  fun _ _ _ _ h => (lineOpcode_within h).1

variable (bytes header fileTableIndex)

/-- The loop over the opcodes of a unit. -/
def runLineProgram (machine : LineMachine) : Parse LineMachine :=
  Loop.scan header.unitEnd (lineOpcode bytes header fileTableIndex) lineOpcode_next machine

end Program

/-! ## Units -/

section Units

variable (bytes : List Byte) (sectionEnd : Nat) (lineStrings : Option (SectionRange bytes))

/-- One pass of the loop over the units, with the file tables and the ranges before it. -/
def parseUnit (tables : List LineFileTable × List LineRange) :
    Parse (List LineFileTable × List LineRange) := do
  let header ← readLineHeader bytes sectionEnd lineStrings
  let machine ← runLineProgram bytes header tables.1.length
    { files := header.files, ranges := tables.2 }
  let files := machine.files.map (resolvedFilePath · header.directories header.dwarf5)
  return (tables.1 ++ [⟨header.dwarf5, files⟩], machine.ranges)

variable {bytes sectionEnd lineStrings}

/-- A program takes all bytes of its unit. -/
theorem runLineProgram_next {header : LineHeader} {fileTableIndex : Nat}
    {machine final : LineMachine} {cursor stop : Nat} (hlimit : cursor ≤ header.unitEnd)
    (h : runLineProgram bytes header fileTableIndex machine cursor = .ok (final, stop)) :
    stop = header.unitEnd := by
  refine Loop.scan_induction lineOpcode_next
    (motive := fun _ cursor _ stop => cursor ≤ header.unitEnd → stop = header.unitEnd) ?_ ?_ h
    hlimit
  · intro s cursor hend hlimit
    omega
  · intro s cursor s' next final stop _ hpass hrest _
    exact hrest (lineOpcode_within hpass).2

theorem parseUnit_next : Loop.Advances (parseUnit bytes sectionEnd lineStrings) := by
  intro tables cursor result next h
  obtain ⟨header, start, hheader, h⟩ := bind_ok h
  obtain ⟨machine, stop, hmachine, hdone⟩ := bind_ok h
  cases hdone
  obtain ⟨hstart, hlimit, _⟩ := readLineHeader_next hheader
  have := runLineProgram_next hlimit hmachine
  omega

variable (bytes sectionEnd lineStrings)

/-- The loop over the units of the section. -/
def parseUnits (tables : List LineFileTable × List LineRange) :
    Parse (List LineFileTable × List LineRange) :=
  Loop.scan sectionEnd (parseUnit bytes sectionEnd lineStrings) parseUnit_next tables

end Units

/-- `DwarfLineTable::parse` up to the sort, on the bytes that `read_file` returns. -/
def parseLineTable (bytes : List Byte) : Except Exception (List LineFileTable × List LineRange) := do
  match ← findDebugSection bytes ".debug_line" with
  | none => return ([], [])
  | some section_ =>
    let lineStrings ← findDebugSection bytes ".debug_line_str"
    let (tables, _) ← parseUnits bytes section_.stop lineStrings ([], []) section_.offset
    return tables

/-- The tables that `DwarfLineTable::parse` may build: `std::sort` leaves the order of equal ranges
open. -/
def LineTable.ParsedFrom (table : LineTable) (bytes : List Byte) : Prop :=
  ∃ ranges, parseLineTable bytes = .ok (table.fileTables, ranges) ∧ table.ranges.Perm ranges

end MiniDebugger
