import MiniDebugger.Unwind.Cfi

/-!
# Symbols of the loaded modules

`find_module_symbol_by_name` asks every file that `/proc/<pid>/maps` names for the symbol. A mapping
whose file has been replaced or unlinked shows as deleted there and is passed over, although its
memory is still mapped.
-/

namespace MiniDebugger

structure ElfSymbol where
  name : String
  value : Word
  size : Word
  type : Nat
  binding : Nat
  deriving DecidableEq

/-- `STT_FUNC` -/
def sttFunc : Nat := 2

/-- `STB_GLOBAL` -/
def stbGlobal : Nat := 1

/-- `ElfFile::find_symbol`: a function or a global symbol displaces an earlier one that is not. -/
def findSymbol (symbols : List ElfSymbol) (name : String) : Option ElfSymbol :=
  symbols.foldl
    (fun best symbol =>
      if symbol.name ≠ name then best
      else match best with
        | none => some symbol
        | some known =>
          if (symbol.type = sttFunc ∧ known.type ≠ sttFunc) ∨
              (symbol.binding = stbGlobal ∧ known.binding ≠ stbGlobal) then some symbol
          else some known)
    none

/-- The files the lookup opens, as `ElfFile` reads them. -/
structure SymbolFiles where
  sameFile : String → String → Bool
  elf : String → Except Exception (ElfFile × List ElfSymbol)

/-- One pass of the loop in `mapped_module_paths`. -/
def addModulePath (files : SymbolFiles) (paths : List String) (line : MapsLine) : List String :=
  if !isModulePath line.path || paths.any (files.sameFile · line.path) then paths
  else paths ++ [line.path]

def Tracee.mappedModulePaths (tracee : Tracee) (files : SymbolFiles) :
    Except Exception (List String) :=
  match tracee.maps with
  | none => throw (.runtimeError "failed to open tracee memory map for source lookup")
  | some lines => return lines.foldl (addModulePath files) []

/-- `symbol_address_in_module`; a module that cannot be read has no symbols. -/
def Tracee.symbolAddressInModule (tracee : Tracee) (files : SymbolFiles)
    (preferred : ElfFile × List ElfSymbol) (name path : String) : Option Addr := do
  let (elf, symbols) ←
    if files.sameFile path preferred.1.path then some preferred else (files.elf path).toOption
  let symbol ← findSymbol symbols name
  let bias ← (tracee.loadBias elf).toOption
  return symbol.value + bias

/-- The address a second module would make ambiguous. -/
def uniqueAddress (name : String) : List Addr → Except Exception (Option Addr)
  | [] => return none
  | [address] => return some address
  | _ => throw (.runtimeError ("ambiguous symbol across loaded modules: " ++ name))

def Tracee.findModuleSymbolByName (tracee : Tracee) (files : SymbolFiles)
    (preferred : ElfFile × List ElfSymbol) (name : String) : Except Exception (Option Addr) := do
  if name.isEmpty then return none
  let paths ← tracee.mappedModulePaths files
  uniqueAddress name (paths.filterMap (tracee.symbolAddressInModule files preferred name))

end MiniDebugger
