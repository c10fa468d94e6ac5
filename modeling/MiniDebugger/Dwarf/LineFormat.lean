import MiniDebugger.Dwarf.Code
import MiniDebugger.Dwarf.LineHeader

/-!
# The format of `.debug_line`

What the bytes of a file say about its line tables, read front to back and without a cursor: the
section of a name, the header of a unit with its tables of directories and files, and the program
behind it.
-/

namespace MiniDebugger

namespace LineProgram

/-! ## Sections -/

/-- A terminated string and what follows it. -/
def takeText (code : List Byte) : Option (List Char × List Byte) :=
  match code.dropWhile (· ≠ 0) with
  | [] => none
  | _ :: rest =>
    some ((code.takeWhile (· ≠ 0)).map fun byte => Char.ofNat byte.toNat, rest)

/-- `Elf64_Ehdr::e_shoff`, `e_shnum` and `e_shstrndx` -/
def sectionTable (file : List Byte) : Nat := littleEndian ((file.drop 40).take 8)
def sectionCount (file : List Byte) : Nat := littleEndian ((file.drop 60).take 2)
def namesIndex (file : List Byte) : Nat := littleEndian ((file.drop 62).take 2)

/-- A field of a section header. Its position is a `size_t`. -/
def sectionField (file : List Byte) (index offset size : Nat) : Nat :=
  littleEndian ((file.drop ((sectionTable file + index * 64) % 2 ^ 64 + offset)).take size)

/-- `sh_size` bytes from `sh_offset` on -/
def sectionContent (file : List Byte) (index : Nat) : List Byte :=
  (file.drop (sectionField file index 24 8)).take (sectionField file index 32 8)

/-- `sh_name` is a position in the section of the names. -/
def sectionName (file : List Byte) (index : Nat) : Option (List Char) :=
  let names := sectionContent file (namesIndex file)
  if names.length ≤ sectionField file index 0 4 then none
  else (takeText (names.drop (sectionField file index 0 4))).map (·.1)

/-- The content of the first section of a name, if the sections have names. -/
def sectionNamed (file : List Byte) (name : String) : Option (List Byte) :=
  if namesIndex file = 0 ∨ sectionCount file ≤ namesIndex file then none
  else
    ((List.range (sectionCount file)).find? (sectionName file · = some name.toList)).map
      (sectionContent file)

/-! ## Tables -/

section Tables

variable {α : Type} (take : List Byte → Option (α × List Byte))

/-- `count` things, one after the other. -/
def takeMany : Nat → List Byte → Option (List α × List Byte)
  | 0, code => some ([], code)
  | count + 1, code => do
    let (first, code) ← take code
    let (others, code) ← takeMany count code
    return (first :: others, code)

/-- The things up to a zero byte or to the end, with at most `room` of them. -/
def takeListFrom : Nat → List Byte → Option (List α × List Byte)
  | _, [] => some ([], [])
  | 0, _ => none
  | room + 1, byte :: code =>
    if byte = 0 then some ([], code)
    else do
      let (first, code) ← take (byte :: code)
      let (others, code) ← takeListFrom room code
      return (first :: others, code)

def takeList (code : List Byte) : Option (List α × List Byte) := takeListFrom take code.length code

end Tables

/-- A file of the version 4 tables: its name, its directory, a time and a length. -/
def takeFile (code : List Byte) : Option (FileEntry × List Byte) := do
  let (name, code) ← takeText code
  let (directoryIndex, code) ← takeNumber code
  let (_, code) ← takeNumber code
  let (_, code) ← takeNumber code
  return (⟨name, BitVec.ofNat 64 directoryIndex⟩, code)

/-- A value in an entry of the version 5 tables; a text may stand in the section of strings. -/
inductive Value where
  | text (text : List Char)
  | textAt (offset : Nat)
  | number (number : Nat)
  | other

/-- The value of a form. -/
def takeValue (form : Nat) (code : List Byte) : Option (Value × List Byte) :=
  match form with
  | 0x05 => (takeField 2 code).map fun (number, code) => (.number number, code)
  | 0x06 => (takeField 4 code).map fun (number, code) => (.number number, code)
  | 0x07 => (takeField 8 code).map fun (number, code) => (.number number, code)
  | 0x08 => (takeText code).map fun (text, code) => (.text text, code)
  | 0x0b => (takeField 1 code).map fun (number, code) => (.number number, code)
  | 0x0d => (takeSigned code).map fun (_, code) => (.other, code)
  | 0x0f => (takeNumber code).map fun (number, code) => (.number number, code)
  | 0x1e => (takeField 16 code).map fun (_, code) => (.other, code)
  | 0x1f => (takeField 4 code).map fun (offset, code) => (.textAt offset, code)
  | _ => none

def Value.path (strings : Option (List Byte)) : Value → Option (List Char)
  | .text path => some path
  | .textAt offset => strings.bind fun strings => (takeText (strings.drop offset)).map (·.1)
  | _ => none

def Value.index : Value → Option Nat
  | .number index => some index
  | _ => none

/-- The values of an entry with the types of their content, which the formats give. -/
def takeColumns : List (Nat × Nat) → List Byte → Option (List (Nat × Value) × List Byte)
  | [], code => some ([], code)
  | (content, form) :: formats, code => do
    let (value, code) ← takeValue form code
    let (columns, code) ← takeColumns formats code
    return ((content, value) :: columns, code)

/-- The path of an entry, `DW_LNCT_path`. -/
def pathOf (strings : Option (List Byte)) (columns : List (Nat × Value)) : Option (List Char) :=
  (columns.lookup 1).bind (Value.path strings)

/-- The directory of an entry, `DW_LNCT_directory_index`; one of its columns overrides those before,
and without any it is `directory`. -/
def directoryOf (directory : Nat) (columns : List (Nat × Value)) : Nat :=
  columns.foldl (fun directory (content, value) =>
    if content = 2 then value.index.getD directory else directory) directory

/-- A directory or a file of the version 5 tables. -/
def takeEntry (strings : Option (List Byte)) (formats : List (Nat × Nat)) (code : List Byte) :
    Option (FileEntry × List Byte) := do
  let (columns, code) ← takeColumns formats code
  let path ← pathOf strings columns
  return (⟨path, BitVec.ofNat 64 (directoryOf 0 columns)⟩, code)

def takeFormat (code : List Byte) : Option ((Nat × Nat) × List Byte) := do
  let (content, code) ← takeNumber code
  let (form, code) ← takeNumber code
  return ((content, form), code)

/-- A table of version 5: the formats of its entries and the entries. -/
def takeTable (strings : Option (List Byte)) (code : List Byte) :
    Option (List FileEntry × List Byte) := do
  let (count, code) ← takeField 1 code
  let (formats, code) ← takeMany takeFormat count code
  let (count, code) ← takeNumber code
  takeMany (takeEntry strings formats) count code

/-- The directories and the files of a header. -/
def takeTables (dwarf5 : Bool) (strings : Option (List Byte)) (code : List Byte) :
    Option (List FilePath × List FileEntry) :=
  if dwarf5 then do
    let (directories, code) ← takeTable strings code
    let (files, _) ← takeTable strings code
    return (directories.map (·.name), files)
  else do
    let (directories, code) ← takeList takeText code
    let (files, _) ← takeList takeFile code
    return (directories, files)

/-! ## Units -/

/-- What the header of a unit says about its program. -/
structure Header extends LineParameters where
  dwarf5 : Bool
  deriving DecidableEq

/-- The part of a header behind its length. -/
def takeParameters (dwarf5 : Bool) (strings : Option (List Byte)) (code : List Byte) :
    Option LineParameters := do
  let (minimumInstructionLength, code) ← takeField 1 code
  let (_, code) ← takeField 1 code
  let (_, code) ← takeField 1 code
  let (lineBase, code) ← takeField 1 code
  let (lineRange, code) ← takeField 1 code
  let (opcodeBase, code) ← takeField 1 code
  let (standardOpcodeLengths, code) ← takeMany (takeField 1) (opcodeBase - 1) code
  let (directories, files) ← takeTables dwarf5 strings code
  return { minimumInstructionLength, lineBase := (BitVec.ofNat 8 lineBase).toInt, lineRange
           opcodeBase, standardOpcodeLengths, directories, files }

/-- The bytes that a length announces, and what follows them. -/
def takeBlock (code : List Byte) : Option (List Byte × List Byte) := do
  let (length, code) ← takeField 4 code
  if code.length < length then none else some (code.take length, code.drop length)

/-- The sizes of an address and of a segment selector, which version 4 does not have. -/
def skipSizes (version : Nat) (code : List Byte) : Option (List Byte) :=
  if version = 5 then (takeField 2 code).map (·.2) else some code

/-- A unit: its header, its program and what follows it. -/
def takeUnit (strings : Option (List Byte)) (code : List Byte) :
    Option (Header × List Byte × List Byte) := do
  let (unit, rest) ← takeBlock code
  let (version, unit) ← takeField 2 unit
  if version ≠ 4 ∧ version ≠ 5 then none
  let unit ← skipSizes version unit
  let (header, program) ← takeBlock unit
  let parameters ← takeParameters (version = 5) strings header
  return (⟨parameters, version = 5⟩, program, rest)

end LineProgram

end MiniDebugger
