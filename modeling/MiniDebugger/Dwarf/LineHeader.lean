import MiniDebugger.Dwarf.DebugSection
import MiniDebugger.Dwarf.LineTable
import MiniDebugger.Dwarf.Operands

/-!
# Headers of line-table units

A unit of `.debug_line` starts with a header: the parameters of the line program and the tables of
directories and files, which version 5 describes by entry formats.
-/

namespace MiniDebugger

def kLnctPath : Word := 0x01
def kLnctDirectoryIndex : Word := 0x02

def kFormData2 : Word := 0x05
def kFormData4 : Word := 0x06
def kFormData8 : Word := 0x07
def kFormString : Word := 0x08
def kFormData1 : Word := 0x0b
def kFormSdata : Word := 0x0d
def kFormUdata : Word := 0x0f
def kFormData16 : Word := 0x1e
def kFormLineStrp : Word := 0x1f

structure FileEntry where
  name : FilePath
  directoryIndex : Word
  deriving DecidableEq, Repr

structure EntryFormat where
  contentType : Word
  form : Word
  deriving DecidableEq, Repr

/-! ## Files and directories -/

def readSectionString (bytes : List Byte) (section_ : Option (SectionRange bytes)) (offset : Nat)
    (what : String) : Except Exception (List Char) :=
  match section_ with
  | none => throw (.runtimeError (what ++ " section is missing"))
  | some range =>
    if range.size ≤ offset then
      throw (.runtimeError (what ++ " offset is outside its string section"))
    else (readCString bytes range.stop what (range.offset + offset)).map (·.1)

def readV4FileEntry (bytes : List Byte) (limit : Nat) : Parse FileEntry := do
  let name ← readCString bytes limit "DWARF file name"
  let directoryIndex ← readLineUleb bytes limit
  let _ ← readLineUleb bytes limit
  let _ ← readLineUleb bytes limit
  return ⟨name, directoryIndex⟩

/-- `count` times the same reader. -/
def readTimes {α : Type} (read : Parse α) : Nat → Parse (List α)
  | 0 => return []
  | count + 1 => do
    let entry ← read
    let entries ← readTimes read count
    return entry :: entries

def readV5EntryFormats (bytes : List Byte) (headerEnd : Nat) (what : String) :
    Parse (List EntryFormat) := do
  let count ← readLineScalar bytes headerEnd 1 what
  readTimes (do
    let contentType ← readLineUleb bytes headerEnd
    let form ← readLineUleb bytes headerEnd
    return ⟨contentType, form⟩) count

def readV5UnsignedForm (bytes : List Byte) (limit : Nat) (form : Word) : Parse Word := do
  if form = kFormUdata then readLineUleb bytes limit
  else if form = kFormData1 then
    return BitVec.ofNat 64 (← readLineScalar bytes limit 1 "DWARF5 data1 form")
  else if form = kFormData2 then
    return BitVec.ofNat 64 (← readLineScalar bytes limit 2 "DWARF5 data2 form")
  else if form = kFormData4 then
    return BitVec.ofNat 64 (← readLineScalar bytes limit 4 "DWARF5 data4 form")
  else if form = kFormData8 then
    return BitVec.ofNat 64 (← readLineScalar bytes limit 8 "DWARF5 data8 form")
  else throw (.runtimeError ("unsupported DWARF5 unsigned line-table form " ++ toString form.toNat))

def readV5PathForm (bytes : List Byte) (limit : Nat) (form : Word)
    (lineStrings : Option (SectionRange bytes)) : Parse (List Char) := do
  if form = kFormString then readCString bytes limit "DWARF5 inline path"
  else if form = kFormLineStrp then
    let offset ← readLineScalar bytes limit 4 "DWARF5 line_strp offset"
    readSectionString bytes lineStrings offset "DWARF5 line string"
  else throw (.runtimeError ("unsupported DWARF5 path line-table form " ++ toString form.toNat))

def skipV5Form (bytes : List Byte) (limit : Nat) (form : Word) : Parse Unit := do
  if form = kFormString then
    let _ ← readCString bytes limit "DWARF5 string form"
  else if form = kFormLineStrp then
    let _ ← readLineScalar bytes limit 4 "DWARF5 line_strp offset"
  else if form = kFormUdata then
    let _ ← readLineUleb bytes limit
  else if form = kFormSdata then
    let _ ← readLineSleb bytes limit
  else if form = kFormData1 then
    let _ ← readLineScalar bytes limit 1 "DWARF5 data1 form"
  else if form = kFormData2 then
    let _ ← readLineScalar bytes limit 2 "DWARF5 data2 form"
  else if form = kFormData4 then
    let _ ← readLineScalar bytes limit 4 "DWARF5 data4 form"
  else if form = kFormData8 then
    let _ ← readLineScalar bytes limit 8 "DWARF5 data8 form"
  else if form = kFormData16 then
    let cursor ← get
    if limit < cursor ∨ limit - cursor < 16 then
      throw (.runtimeError "DWARF5 data16 form extends past header boundary")
    set (cursor + 16)
  else throw (.runtimeError ("unsupported DWARF5 line-table form " ++ toString form.toNat))

/-- One column of an entry; the result is the path and the directory read so far. -/
def readV5Column (bytes : List Byte) (limit : Nat) (lineStrings : Option (SectionRange bytes))
    (entry : Option (List Char) × Word) (format : EntryFormat) :
    Parse (Option (List Char) × Word) := do
  if format.contentType = kLnctPath then
    if entry.1.isSome then throw (.runtimeError "duplicate DWARF5 path column")
    let path ← readV5PathForm bytes limit format.form lineStrings
    return (some path, entry.2)
  else if format.contentType = kLnctDirectoryIndex then
    let directoryIndex ← readV5UnsignedForm bytes limit format.form
    return (entry.1, directoryIndex)
  else
    skipV5Form bytes limit format.form
    return entry

def readV5Entry (bytes : List Byte) (limit : Nat) (formats : List EntryFormat)
    (lineStrings : Option (SectionRange bytes)) : Parse FileEntry := do
  let entry ← formats.foldlM (readV5Column bytes limit lineStrings) (none, 0)
  match entry.1 with
  | none => throw (.runtimeError "DWARF5 line-table entry has no path column")
  | some path => return ⟨path, entry.2⟩

/-- The directories or the files of a version 5 header. -/
def readV5Table (bytes : List Byte) (headerEnd : Nat) (lineStrings : Option (SectionRange bytes))
    (formatCount tooMany : String) : Parse (List FileEntry) := do
  let formats ← readV5EntryFormats bytes headerEnd formatCount
  let count ← readLineUleb bytes headerEnd
  let cursor ← get
  if headerEnd - cursor < count.toNat then throw (.runtimeError tooMany)
  readTimes (readV5Entry bytes headerEnd formats lineStrings) count.toNat

def readV5DirectoryAndFileTables (bytes : List Byte) (headerEnd : Nat)
    (lineStrings : Option (SectionRange bytes)) : Parse (List FilePath × List FileEntry) := do
  let directories ← readV5Table bytes headerEnd lineStrings "directory format count"
    "DWARF5 directory count exceeds header bounds"
  let files ← readV5Table bytes headerEnd lineStrings "file format count"
    "DWARF5 file count exceeds header bounds"
  return (directories.map (·.name), files)

/-- The include directories of a version 4 header, up to an empty one. -/
def readV4Directories (bytes : List Byte) (headerEnd : Nat) : Parse (List FilePath) :=
  fun cursor =>
    if cursor < headerEnd then
      match h : readCString bytes headerEnd "DWARF include directory" cursor with
      | .error e => .error e
      | .ok (directory, next) =>
        have := readCString_next h
        if directory = [] then .ok ([], next)
        else do
          let (directories, stop) ← readV4Directories bytes headerEnd next
          return (directory :: directories, stop)
    else .ok ([], cursor)
termination_by cursor => headerEnd - cursor

theorem readV4FileEntry_next {bytes : List Byte} {limit : Nat} {entry : FileEntry}
    {cursor next : Nat} (h : readV4FileEntry bytes limit cursor = .ok (entry, next)) :
    cursor < next := by
  obtain ⟨name, middle, hname, h⟩ := bind_ok h
  obtain ⟨hmiddle, hlimit⟩ := readCString_next hname
  have hrest := moves_bind moves_readLineUleb (fun _ => moves_bind moves_readLineUleb fun _ =>
    moves_bind moves_readLineUleb fun _ => moves_pure _) h hlimit
  omega

/-- The files of a version 4 header, up to one without a name. -/
def readV4Files (bytes : List Byte) (headerEnd : Nat) : Parse (List FileEntry) :=
  fun cursor =>
    if cursor < headerEnd then
      match readCString bytes headerEnd "DWARF file name" cursor with
      | .error e => .error e
      | .ok (name, next) =>
        if name = [] then .ok ([], next)
        else
          match h : readV4FileEntry bytes headerEnd cursor with
          | .error e => .error e
          | .ok (file, next) =>
            have := readV4FileEntry_next h
            do
              let (files, stop) ← readV4Files bytes headerEnd next
              return (file :: files, stop)
    else .ok ([], cursor)
termination_by cursor => headerEnd - cursor

/-! ## Headers -/

/-- A unit: its version, the size of its addresses, where its program begins and where it ends. -/
structure LineUnit where
  dwarf5 : Bool
  addressSize : Nat
  headerEnd : Nat
  unitEnd : Nat
  deriving DecidableEq, Repr

/-- The parameters of a line program and its tables. -/
structure LineParameters where
  minimumInstructionLength : Nat
  lineBase : Int
  lineRange : Nat
  opcodeBase : Nat
  standardOpcodeLengths : List Nat
  directories : List FilePath
  files : List FileEntry
  deriving DecidableEq, Repr

structure LineHeader extends LineUnit, LineParameters
  deriving DecidableEq, Repr

def readUnitLength (bytes : List Byte) (sectionEnd : Nat) : Parse Nat := do
  let unitLength ← readLineScalar bytes sectionEnd 4 "DWARF unit length"
  if unitLength = 0xffffffff then
    throw (.runtimeError "64-bit DWARF line-table format is unsupported")
  if unitLength = 0 then throw (.runtimeError "zero-length DWARF line-table unit")
  let cursor ← get
  if sectionEnd - cursor < unitLength then
    throw (.runtimeError "DWARF line-table unit extends past .debug_line")
  return cursor + unitLength

def readLineVersion (bytes : List Byte) (unitEnd : Nat) : Parse Bool := do
  let version ← readLineScalar bytes unitEnd 2 "DWARF line-table version"
  if version ≠ 4 ∧ version ≠ 5 then
    throw (.runtimeError ("DWARF line table version " ++ toString version ++
      " is unsupported; versions 4 and 5 are supported"))
  return version = 5

/-- The size of an address, which a version 4 header does not have. -/
def readAddressSize (bytes : List Byte) (unitEnd : Nat) (dwarf5 : Bool) : Parse Nat :=
  if dwarf5 then do
    let addressSize ← readLineScalar bytes unitEnd 1 "DWARF5 address size"
    let segmentSelectorSize ← readLineScalar bytes unitEnd 1 "DWARF5 segment selector size"
    if addressSize ≠ 8 then
      throw (.runtimeError "DWARF5 line table address size does not match ELF64")
    if segmentSelectorSize ≠ 0 then
      throw (.runtimeError "DWARF5 segmented addresses are unsupported")
    return addressSize
  else return 8

def readHeaderLength (bytes : List Byte) (unitEnd : Nat) : Parse Nat := do
  let headerLength ← readLineScalar bytes unitEnd 4 "DWARF line header length"
  let cursor ← get
  if unitEnd - cursor < headerLength then
    throw (.runtimeError "DWARF line-table header extends past unit boundary")
  return cursor + headerLength

def readLineUnit (bytes : List Byte) (sectionEnd : Nat) : Parse LineUnit := do
  let unitEnd ← readUnitLength bytes sectionEnd
  let dwarf5 ← readLineVersion bytes unitEnd
  let addressSize ← readAddressSize bytes unitEnd dwarf5
  let headerEnd ← readHeaderLength bytes unitEnd
  return { dwarf5, addressSize, headerEnd, unitEnd }

/-- The tables of directories and files. -/
def readLineFiles (bytes : List Byte) (unit : LineUnit)
    (lineStrings : Option (SectionRange bytes)) : Parse (List FilePath × List FileEntry) := do
  if unit.dwarf5 then
    let tables ← readV5DirectoryAndFileTables bytes unit.headerEnd lineStrings
    let cursor ← get
    if cursor ≠ unit.headerEnd then
      throw (.runtimeError "DWARF5 line-table header has trailing bytes")
    return tables
  else
    let directories ← readV4Directories bytes unit.headerEnd
    let files ← readV4Files bytes unit.headerEnd
    return (directories, files)

def readLineParameters (bytes : List Byte) (unit : LineUnit)
    (lineStrings : Option (SectionRange bytes)) : Parse LineParameters := do
  let headerEnd := unit.headerEnd
  let minimumInstructionLength ← readLineScalar bytes headerEnd 1 "minimum instruction length"
  let maximumOperations ← readLineScalar bytes headerEnd 1 "maximum operations per instruction"
  if minimumInstructionLength = 0 ∨ maximumOperations ≠ 1 then
    throw (.runtimeError "DWARF line tables with multi-operation instructions are unsupported")
  let _ ← readLineScalar bytes headerEnd 1 "default is_stmt"
  let lineBase := signedField 1 (← readLineScalar bytes headerEnd 1 "line base")
  let lineRange ← readLineScalar bytes headerEnd 1 "line range"
  let opcodeBase ← readLineScalar bytes headerEnd 1 "opcode base"
  if lineRange = 0 ∨ opcodeBase = 0 then
    throw (.runtimeError "invalid DWARF line-table opcode parameters")
  let standardOpcodeLengths ←
    readTimes (readLineScalar bytes headerEnd 1 "standard opcode operand count") (opcodeBase - 1)
  let (directories, files) ← readLineFiles bytes unit lineStrings
  return { minimumInstructionLength, lineBase, lineRange, opcodeBase, standardOpcodeLengths
           directories, files }

/-- The header of a unit; its program begins where the header says that it ends. -/
def readLineHeader (bytes : List Byte) (sectionEnd : Nat)
    (lineStrings : Option (SectionRange bytes)) : Parse LineHeader := do
  let unit ← readLineUnit bytes sectionEnd
  let parameters ← readLineParameters bytes unit lineStrings
  set unit.headerEnd
  return { toLineUnit := unit, toLineParameters := parameters }

theorem readUnitLength_next {bytes : List Byte} {sectionEnd cursor next unitEnd : Nat}
    (h : readUnitLength bytes sectionEnd cursor = .ok (unitEnd, next)) :
    cursor < next ∧ next ≤ unitEnd ∧ unitEnd ≤ sectionEnd := by
  obtain ⟨unitLength, middle, hlength, h⟩ := bind_ok h
  obtain ⟨hmiddle, hlimit⟩ := readLineScalar_next hlength
  obtain ⟨hdwarf32, h⟩ := ite_throw_ok h
  obtain ⟨hzero, h⟩ := ite_throw_ok h
  obtain ⟨start, behind, hget, h⟩ := bind_ok h
  cases hget
  obtain ⟨hfits, hdone⟩ := ite_throw_ok h
  cases hdone
  omega

theorem readHeaderLength_next {bytes : List Byte} {unitEnd cursor next headerEnd : Nat}
    (h : readHeaderLength bytes unitEnd cursor = .ok (headerEnd, next)) :
    cursor ≤ headerEnd ∧ headerEnd ≤ unitEnd := by
  obtain ⟨headerLength, middle, hlength, h⟩ := bind_ok h
  obtain ⟨hmiddle, hlimit⟩ := readLineScalar_next hlength
  obtain ⟨start, behind, hget, h⟩ := bind_ok h
  cases hget
  obtain ⟨hfits, hdone⟩ := ite_throw_ok h
  cases hdone
  omega

theorem moves_readLineVersion {bytes : List Byte} {unitEnd : Nat} :
    Moves unitEnd (readLineVersion bytes unitEnd) := by
  refine moves_bind moves_readLineScalar fun version => ?_
  exact moves_ite (moves_throw _) (moves_pure _)

theorem moves_readAddressSize {bytes : List Byte} {unitEnd : Nat} {dwarf5 : Bool} :
    Moves unitEnd (readAddressSize bytes unitEnd dwarf5) := by
  refine moves_ite ?_ (moves_pure _)
  refine moves_bind moves_readLineScalar fun addressSize => ?_
  refine moves_bind moves_readLineScalar fun segmentSelectorSize => ?_
  refine moves_ite (moves_throw _) ?_
  exact moves_ite (moves_throw _) (moves_pure _)

/-- The program of a unit begins behind the length of the unit, and within it. -/
theorem readLineHeader_next {bytes : List Byte} {sectionEnd cursor next : Nat}
    {lineStrings : Option (SectionRange bytes)} {header : LineHeader}
    (h : readLineHeader bytes sectionEnd lineStrings cursor = .ok (header, next)) :
    cursor < next ∧ next ≤ header.unitEnd ∧ header.unitEnd ≤ sectionEnd := by
  obtain ⟨unit, middle, hunit, h⟩ := bind_ok h
  obtain ⟨parameters, behind, hparameters, hdone⟩ := bind_ok h
  cases hdone
  obtain ⟨unitEnd, start, hunitEnd, h⟩ := bind_ok hunit
  obtain ⟨dwarf5, versionEnd, hversion, h⟩ := bind_ok h
  obtain ⟨addressSize, sizeEnd, hsize, h⟩ := bind_ok h
  obtain ⟨headerEnd, stop, hheader, hunit⟩ := bind_ok h
  cases hunit
  obtain ⟨hstart, hlimit, hsection⟩ := readUnitLength_next hunitEnd
  obtain ⟨_, hlimit⟩ := moves_readLineVersion hversion hlimit
  obtain ⟨_, hlimit⟩ := moves_readAddressSize hsize hlimit
  have := readHeaderLength_next hheader
  dsimp only
  omega

end MiniDebugger
