import MiniDebugger.Intervals
import MiniDebugger.Paths
import MiniDebugger.Process

/-!
# Line tables

A line table maps ranges of addresses to source lines. `DwarfLineTable::parse` fills it with the
ranges of all sequences of all units and sorts them; `find_virtual_address` looks an address up in
the sorted ranges, and `find_virtual_file` and `find_virtual_source` scan them.
-/

namespace MiniDebugger

/-- `SourceLocation`, as the line table has it -/
structure LineLocation where
  file : FilePath
  line : Word
  column : Word
  deriving DecidableEq, Repr

structure LineRange where
  first : Word
  last : Word
  location : LineLocation
  fileTableIndex : Nat
  deriving DecidableEq, Repr

/-- The files of a unit, in the order of its header. -/
structure LineFileTable where
  dwarf5 : Bool
  files : List FilePath
  deriving DecidableEq, Repr

namespace LineRange

def Contains (range : LineRange) (address : Word) : Prop :=
  range.first ≤ address ∧ address < range.last

instance (range : LineRange) (address : Word) : Decidable (range.Contains address) := by
  unfold Contains
  exact inferInstance

/-- The order of the table: by the first address, then by the last. -/
def Before (left right : LineRange) : Prop :=
  left.first < right.first ∨ (left.first = right.first ∧ left.last ≤ right.last)

instance (left right : LineRange) : Decidable (Before left right) := by
  unfold Before
  exact inferInstance

end LineRange

/-- `DwarfLineTable`, with what `parse` establishes. -/
structure LineTable where
  fileTables : List LineFileTable
  ranges : List LineRange
  nonempty : ∀ range ∈ ranges, range.first < range.last
  sorted : ranges.Pairwise LineRange.Before
  owned : ∀ range ∈ ranges, range.fileTableIndex < fileTables.length

/-- `file_entry_offset` -/
def fileEntryOffset (fileIndex : Word) (fileCount : Nat) (dwarf5 : Bool) : Option Nat :=
  if dwarf5 then
    if fileCount ≤ fileIndex.toNat then none else some fileIndex.toNat
  else if fileIndex = 0 ∨ fileCount < fileIndex.toNat then none
  else some (fileIndex.toNat - 1)

namespace LineTable

variable (table : LineTable)

/-- `find_virtual_address`. `std::upper_bound` is the end of the ranges that begin at the address or
before it. -/
def findVirtualAddress (address : Word) : Option LineLocation :=
  match (table.ranges.takeWhile fun range => ¬address < range.first).getLast? with
  | none => none
  | some range =>
    if address < range.first ∨ range.last ≤ address then none else some range.location

/-- The loop of `find_virtual_file` -/
def ownerFrom (address : Word) : Option Nat → List LineRange → Except Exception (Option Nat)
  | owner, [] => return owner
  | owner, range :: ranges =>
    if address < range.first ∨ range.last ≤ address then ownerFrom address owner ranges
    else
      match owner with
      | none => ownerFrom address (some range.fileTableIndex) ranges
      | some index =>
        if index ≠ range.fileTableIndex then
          throw (.runtimeError "virtual address is owned by multiple DWARF line-table units")
        else ownerFrom address owner ranges

def findVirtualFile (address fileIndex : Word) : Except Exception (Option FilePath) := do
  match ← ownerFrom address none table.ranges with
  | none => return none
  | some owner =>
    match table.fileTables[owner]? with
    | none => throw (.logicError "DWARF line range lost its owning file table")
    | some files =>
      match fileEntryOffset fileIndex files.files.length files.dwarf5 with
      | none => return none
      | some offset => return files.files[offset]?

/-- The file of a range is the one asked for, by its whole path or by its name. -/
def matchesFile (file candidate : FilePath) : Bool :=
  let normalizedQuery := file.lexicallyNormal
  if file.isAbsolute || file.hasParentPath then candidate.lexicallyNormal = normalizedQuery
  else candidate.filename = normalizedQuery.filename

/-- The loop of `find_virtual_source` over the ranges, with the lowest address and the file matched
so far. -/
def sourceFrom (file : FilePath) (line : Word) :
    Option Word → Option FilePath → List LineRange → Except Exception (Option Word)
  | best, _, [] => return best
  | best, matched, range :: ranges =>
    if range.location.line ≠ line then sourceFrom file line best matched ranges
    else if !matchesFile file range.location.file then sourceFrom file line best matched ranges
    else
      let identity := range.location.file.lexicallyNormal
      let lower := match best with
        | none => range.first
        | some address => if range.first < address then range.first else address
      if file.isAbsolute || file.hasParentPath then
        sourceFrom file line (some lower) matched ranges
      else if matched.any (· ≠ identity) then
        throw (.runtimeError ("ambiguous source file for line lookup: " ++ String.ofList file))
      else sourceFrom file line (some lower) (some identity) ranges

def findVirtualSource (file : FilePath) (line : Word) : Except Exception (Option Word) :=
  if file = [] ∨ line = 0 then return none
  else sourceFrom file line none none table.ranges

/-- `find_runtime_source`; `loadBias` is what `load_bias` returns for the module. -/
def findRuntimeSource (loadBias : Except Exception Word) (file : FilePath) (line : Word) :
    Except Exception (Option Word) := do
  match ← table.findVirtualSource file line with
  | none => return none
  | some address =>
    let bias ← loadBias
    if 2 ^ 64 - 1 - bias.toNat < address.toNat then
      throw (.runtimeError "source address overflows runtime address space")
    return some (address + bias)

/-- `find_runtime_address` -/
def findRuntimeAddress (loadBias : Except Exception Word) (address : Word) :
    Except Exception (Option LineLocation) := do
  let bias ← loadBias
  if address < bias then return none
  return table.findVirtualAddress (address - bias)

end LineTable

/-- `ModuleResolvedSourceAddress` -/
structure ModuleResolvedSourceAddress where
  modulePath : String
  file : FilePath
  line : Word
  address : Word
  deriving DecidableEq, Repr

/-- `source_address_in_module`, past the opening of the module and its line table: `lines` is the
table, unless one of them failed. -/
def sourceAddressInModule (lines : Option LineTable) (loadBias : Except Exception Word)
    (path : String) (file : FilePath) (line : Word) :
    Except Exception (Option ModuleResolvedSourceAddress) := do
  match lines with
  | none => return none
  | some table =>
    if table.ranges = [] then return none
    match ← table.findRuntimeSource loadBias file line with
    | none => return none
    | some address =>
      match ← table.findRuntimeAddress loadBias address with
      | none =>
        throw (.runtimeError "reverse source lookup resolved an unmapped line-table address")
      | some source => return some ⟨path, source.file, source.line, address⟩

end MiniDebugger
