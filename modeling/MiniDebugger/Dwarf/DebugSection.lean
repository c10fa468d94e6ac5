import MiniDebugger.Dwarf.LineReader

/-!
# Sections of an ELF file

`find_debug_section` goes through the section headers of a file for a section of a given name. A
`SectionRange` is what it has checked with `require_range`: a part of the file.
-/

namespace MiniDebugger

/-- Where a section lies in the file. -/
structure SectionRange (bytes : List Byte) where
  offset : Nat
  size : Nat
  within : offset + size ≤ bytes.length
  deriving DecidableEq

variable {bytes : List Byte}

def SectionRange.stop (range : SectionRange bytes) : Nat := range.offset + range.size

/-- `require_range` of the line table -/
def requireLineRange (bytes : List Byte) (offset size : Nat) (what : String) :
    Except Exception (SectionRange bytes) :=
  if h : bytes.length < offset ∨ bytes.length - offset < size then
    throw (.runtimeError (what ++ " extends past end of file"))
  else return ⟨offset, size, by omega⟩

/-- A field of a structure in the file. -/
def fileField (bytes : List Byte) (offset size : Nat) : Nat :=
  littleEndian ((bytes.drop offset).take size)

/-- `Elf64_Shdr` -/
structure SectionHeader where
  name : Nat
  flags : Nat
  offset : Nat
  size : Nat
  deriving DecidableEq, Repr

/-- `read_at` of a section header. The sum of its offset is a `size_t`. -/
def readSectionHeader (bytes : List Byte) (tableOffset index : Nat) :
    Except Exception SectionHeader := do
  let offset := (tableOffset + index * 64) % 2 ^ 64
  let _ ← readLineAt bytes offset 64 "ELF section header"
  return { name := fileField bytes offset 4, flags := fileField bytes (offset + 8) 8
           offset := fileField bytes (offset + 24) 8, size := fileField bytes (offset + 32) 8 }

def kShfCompressed : Nat := 0x800
def kShnUndef : Nat := 0
def kShnXindex : Nat := 0xffff

/-- The loop of `find_debug_section` over the section headers. -/
def findSectionIn (bytes : List Byte) (names : SectionRange bytes) (wantedName : String) :
    List SectionHeader → Except Exception (Option (SectionRange bytes))
  | [] => return none
  | header :: headers => do
    if names.size ≤ header.name then findSectionIn bytes names wantedName headers
    else
      let (name, _) ← readCString bytes names.stop "ELF section name" (names.offset + header.name)
      if name ≠ wantedName.toList then findSectionIn bytes names wantedName headers
      else if header.flags &&& kShfCompressed ≠ 0 then
        throw (.runtimeError ("compressed " ++ wantedName ++ " sections are unsupported"))
      else return some (← requireLineRange bytes header.offset header.size wantedName)

def findDebugSection (bytes : List Byte) (wantedName : String) :
    Except Exception (Option (SectionRange bytes)) := do
  let _ ← readLineAt bytes 0 64 "ELF header"
  if bytes.take 4 ≠ [0x7f, 0x45, 0x4c, 0x46] then throw (.runtimeError "file is not ELF")
  if fileField bytes 4 1 ≠ 2 ∨ fileField bytes 5 1 ≠ 1 then
    throw (.runtimeError "DWARF line parsing requires little-endian ELF64")
  if fileField bytes 18 2 ≠ 62 then
    throw (.runtimeError "DWARF line parsing currently supports x86-64 ELF only")
  let sectionCount := fileField bytes 60 2
  let namesIndex := fileField bytes 62 2
  if sectionCount = 0 then return none
  if fileField bytes 58 2 ≠ 64 then
    throw (.runtimeError "unsupported ELF section-header entry size")
  if namesIndex = kShnXindex then
    throw (.runtimeError "ELF extended section numbering is unsupported")
  if namesIndex = kShnUndef ∨ sectionCount ≤ namesIndex then return none
  let headers ← (List.range sectionCount).mapM (readSectionHeader bytes (fileField bytes 40 8))
  match headers[namesIndex]? with
  | none => return none
  | some names =>
    let names ← requireLineRange bytes names.offset names.size "ELF section-name table"
    findSectionIn bytes names wantedName headers

end MiniDebugger
