import Mathlib.Data.String.Basic
import MiniDebugger.Loader.ModuleSymbols
import MiniDebugger.Core.Parse
import MiniDebugger.Representatives

/-!
# Symbols of an ELF file

`ElfFile::parse` collects the named and defined symbols of every symbol table, sorts them by value,
name and type, and keeps one of those with the same value and name. The sort is not stable: of
several symbols with the same value, name and type any may be the one that is kept, so
`MergedSymbols` is a relation.

The two lookups scan what is kept. `find_symbol` may have lost the function among the symbols of a
name to another symbol at the same address; `find_symbol_by_virtual_address` may have lost a symbol
that covers the address to one that does not.
-/

namespace MiniDebugger

open Representatives (Merged)

def sttNotype : Nat := 0
def sttObject : Nat := 1
def sttSection : Nat := 3
def sttFile : Nat := 4
def stbLocal : Nat := 0
def shnUndef : Nat := 0

structure Elf64Sym where
  /-- `st_name` -/
  name : Nat
  /-- `st_info` -/
  info : Nat
  /-- `st_shndx` -/
  shndx : Nat
  /-- `st_value` -/
  value : Word
  /-- `st_size` -/
  size : Word

/-- A symbol table with the string table it is linked to. -/
structure SymbolTable where
  symbols : List Elf64Sym
  strings : List Byte

/-- `read_string`; a name that is not terminated is no name. -/
def readString (strings : List Byte) (offset : Nat) : String :=
  let tail := strings.drop offset
  if tail.contains 0 then textOfBytes (untilNull tail) else ""

/-- What `parse` keeps of an entry. -/
def SymbolTable.entry (table : SymbolTable) (symbol : Elf64Sym) : Option ElfSymbol :=
  if symbol.name = 0 ∨ symbol.shndx = shnUndef then none
  else
    let type := symbol.info % 16
    if type = sttSection ∨ type = sttFile then none
    else
      let name := readString table.strings symbol.name
      if name = "" then none
      else some ⟨name, symbol.value, symbol.size, type, symbol.info / 16⟩

def symbolEntries (tables : List SymbolTable) : List ElfSymbol :=
  tables.flatMap fun table => table.symbols.filterMap table.entry

namespace ElfSymbol

/-- The order `parse` sorts by. -/
def less (left right : ElfSymbol) : Bool :=
  if left.value ≠ right.value then left.value < right.value
  else if left.name ≠ right.name then left.name < right.name
  else left.type < right.type

/-- The test `parse` drops the later of two symbols by. -/
def same (left right : ElfSymbol) : Bool :=
  left.value = right.value && left.name = right.name

/-- The symbols with one value and name. -/
def group (symbol : ElfSymbol) : Nat ×ₗ String := toLex (symbol.value.toNat, symbol.name)

theorem group_eq_iff {left right : ElfSymbol} :
    left.group = right.group ↔ left.value = right.value ∧ left.name = right.name := by
  simp [group, BitVec.toNat_inj]

theorem group_lt_iff {left right : ElfSymbol} : left.group < right.group ↔
    left.value.toNat < right.value.toNat ∨
      left.value = right.value ∧ left.name < right.name := by
  simp [group, Prod.Lex.toLex_lt_toLex, BitVec.toNat_inj]

theorem less_eq_false_iff {left right : ElfSymbol} : right.less left = false ↔
    left.group < right.group ∨ left.group = right.group ∧ left.type ≤ right.type := by
  rw [group_eq_iff, group_lt_iff]
  unfold less
  by_cases hvalue : right.value = left.value
  · by_cases hname : right.name = left.name
    · simp [hvalue, hname]
    · have hflip : ¬right.name < left.name ↔ left.name < right.name :=
        not_lt.trans (lt_iff_le_and_ne.trans (and_iff_left (Ne.symm hname))).symm
      rw [if_neg (by simpa using hvalue), if_pos hname, decide_eq_false_iff_not, hflip]
      simp [hvalue, Ne.symm hname]
  · have hne : right.value.toNat ≠ left.value.toNat := fun h => hvalue (BitVec.eq_of_toNat_eq h)
    rw [if_pos hvalue, decide_eq_false_iff_not, BitVec.lt_def]
    simp only [Ne.symm hvalue, false_and, or_false]
    omega

end ElfSymbol

/-- `symbols_` after `parse` has collected `entries`. -/
def MergedSymbols (entries symbols : List ElfSymbol) : Prop :=
  ∃ sorted : List ElfSymbol, sorted.Perm entries ∧
    (sorted.Pairwise fun left right => right.less left = false) ∧
    symbols = Representatives.unique ElfSymbol.same sorted

theorem mergedSymbols_iff {entries symbols : List ElfSymbol} :
    MergedSymbols entries symbols ↔ Merged ElfSymbol.group ElfSymbol.type entries symbols := by
  have hsame : ElfSymbol.same = fun left right => decide (left.group = right.group) := by
    funext left right
    simp [ElfSymbol.same, ElfSymbol.group_eq_iff]
  unfold MergedSymbols Merged Representatives.Sorted
  simp only [ElfSymbol.less_eq_false_iff, hsame]

end MiniDebugger
