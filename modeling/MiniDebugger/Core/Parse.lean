import MiniDebugger.Unwind.Snapshot

/-!
# Parsing a core file

`CoreSnapshot::parse` reads the program headers of a core, keeps its captured segments and goes
through the notes of every `PT_NOTE` segment. `read_core_floating_point_state` and
`read_core_startup_info` read the same file again, each with a loop over the notes of its own.

The three loops are written out as the source has them. What a loop does with a note once its
cursor stands behind it is the parameter `visit`, so that the notes a loop visits are what it
hands to a visitor that records them.
-/

namespace MiniDebugger

/-- The bytes of a structure, or the error of the reader that does not find them. -/
def readStruct (bytes : List Byte) (offset size : Nat) (error : String) :
    Except Exception (List Byte) :=
  if bytes.length < offset ∨ bytes.length - offset < size then throw (.runtimeError error)
  else return (bytes.drop offset).take size

/-- An unsigned field of a structure. -/
def field (data : List Byte) (offset size : Nat) : Nat :=
  littleEndian ((data.drop offset).take size)

/-- A signed field of a structure. -/
def intField (data : List Byte) (offset size : Nat) : Int :=
  signedField size (field data offset size)

def wordField (data : List Byte) (offset : Nat) : Word := BitVec.ofNat 64 (field data offset 8)

def textOfBytes (bytes : List Byte) : String :=
  String.ofList (bytes.map fun byte => Char.ofNat byte.toNat)

structure Elf64Ehdr where
  ident : List Byte
  type : Nat
  machine : Nat
  version : Nat
  phoff : Nat
  phentsize : Nat
  phnum : Nat

def Elf64Ehdr.size : Nat := 64

def Elf64Ehdr.decode (data : List Byte) : Elf64Ehdr where
  ident := data.take 16
  type := field data 16 2
  machine := field data 18 2
  version := field data 20 4
  phoff := field data 32 8
  phentsize := field data 54 2
  phnum := field data 56 2

structure Elf64Phdr where
  type : Nat
  offset : Nat
  vaddr : Nat
  filesz : Nat
  memsz : Nat

def Elf64Phdr.size : Nat := 56

def Elf64Phdr.decode (data : List Byte) : Elf64Phdr where
  type := field data 0 4
  offset := field data 8 8
  vaddr := field data 16 8
  filesz := field data 32 8
  memsz := field data 40 8

structure Elf64Nhdr where
  namesz : Nat
  descsz : Nat
  type : Nat

def Elf64Nhdr.size : Nat := 12

def Elf64Nhdr.decode (data : List Byte) : Elf64Nhdr where
  namesz := field data 0 4
  descsz := field data 4 4
  type := field data 8 4

def elfMagic : List Byte := [0x7f, 0x45, 0x4c, 0x46]
def etCore : Nat := 4
def emX86_64 : Nat := 62
def pnXnum : Nat := 0xffff
def ptLoad : Nat := 1
def ptNote : Nat := 4
def ntPrstatus : Nat := 1
def ntFpregset : Nat := 2
def ntPrpsinfo : Nat := 3
def ntAuxv : Nat := 6
def ntSiginfo : Nat := 0x53494749
def ntFile : Nat := 0x46494c45

/-- The owner `"CORE"` -/
def coreOwner : List Byte := [0x43, 0x4f, 0x52, 0x45]

/-- A note of a core: its owner, its type and where its descriptor stands in the file. -/
structure CoreNote where
  owner : List Byte
  type : Nat
  descOffset : Nat
  descSize : Nat
  deriving DecidableEq, Repr

def CoreNote.descriptor (bytes : List Byte) (note : CoreNote) : List Byte :=
  (bytes.drop note.descOffset).take note.descSize

/-- What a loop over notes does with one of them. -/
abbrev NoteVisitor (σ : Type) := σ → CoreNote → Except Exception σ

def elfStructureError : String := "ELF structure extends past end of file"

def requireRange (bytes : List Byte) (offset size : Nat) (what : String) :
    Except Exception Unit :=
  if bytes.length < offset ∨ bytes.length - offset < size then
    throw (.runtimeError (what ++ " extends past end of file"))
  else return ()

/-- `checked_add` on file offsets -/
def checkedSum (left right : Nat) (what : String) : Except Exception Nat :=
  if 2 ^ 64 - 1 - left < right then throw (.runtimeError (what ++ " overflows"))
  else return left + right

def checkedMul (left right : Nat) (what : String) : Except Exception Nat :=
  if left ≠ 0 ∧ (2 ^ 64 - 1) / left < right then throw (.runtimeError (what ++ " overflows"))
  else return left * right

def align4 (value : Nat) (what : String) : Except Exception Nat := do
  let sum ← checkedSum value 3 what
  return sum / 4 * 4

/-- `read_u64` -/
def readNoteU64 (bytes : List Byte) (offset limit : Nat) (what : String) :
    Except Exception Word := do
  if limit < offset ∨ limit - offset < 8 then
    throw (.runtimeError (what ++ " extends past note payload"))
  requireRange bytes offset 8 what
  return wordField bytes offset

/-- The bytes in front of the first null character. -/
def untilNull (bytes : List Byte) : List Byte := bytes.takeWhile (· ≠ 0)

def noteOwner (bytes : List Byte) (offset size : Nat) : Except Exception (List Byte) := do
  requireRange bytes offset size "ELF note name"
  return untilNull ((bytes.drop offset).take size)

/-- The loop of `parse_notes` -/
def parseNotesFrom {σ : Type} (bytes : List Byte) (visit : NoteVisitor σ) (stop cursor : Nat)
    (state : σ) : Except Exception σ :=
  if cursor < stop then do
    if stop - cursor < Elf64Nhdr.size then
      throw (.runtimeError "truncated ELF core note header")
    let note ← Elf64Nhdr.decode <$> readStruct bytes cursor Elf64Nhdr.size elfStructureError
    let nameOffset := cursor + Elf64Nhdr.size
    let namePadded ← align4 note.namesz "ELF core note name"
    if stop - nameOffset < namePadded then
      throw (.runtimeError "truncated ELF core note name")
    let owner ← noteOwner bytes nameOffset note.namesz
    let descOffset := nameOffset + namePadded
    let descPadded ← align4 note.descsz "ELF core note payload"
    if stop - descOffset < descPadded then
      throw (.runtimeError "truncated ELF core note payload")
    let state ← visit state ⟨owner, note.type, descOffset, note.descsz⟩
    parseNotesFrom bytes visit stop (descOffset + descPadded) state
  else return state
termination_by stop - cursor
decreasing_by simp only [Elf64Nhdr.size] at *; omega

/-- `parse_notes`, up to the sorting of the mappings -/
def parseNotes {σ : Type} (bytes : List Byte) (visit : NoteVisitor σ) (offset size : Nat)
    (state : σ) : Except Exception σ := do
  let stop ← checkedSum offset size "ELF core PT_NOTE range"
  parseNotesFrom bytes visit stop offset state

/-- The checks `parse` makes on the header. -/
def parseHeader (bytes : List Byte) : Except Exception Elf64Ehdr := do
  let header ← Elf64Ehdr.decode <$> readStruct bytes 0 Elf64Ehdr.size elfStructureError
  if header.ident.take 4 ≠ elfMagic then throw (.runtimeError "core file is not ELF")
  else if header.ident[4]? ≠ some 2 ∨ header.ident[5]? ≠ some 1 ∨ header.ident[6]? ≠ some 1 ∨
      header.version ≠ 1 then
    throw (.runtimeError "only current little-endian ELF64 core files are supported")
  else if header.type ≠ etCore then throw (.runtimeError "ELF file is not ET_CORE")
  else if header.machine ≠ emX86_64 then
    throw (.runtimeError "only x86-64 ELF core files are supported")
  else if header.phnum = 0 ∨ header.phnum = pnXnum ∨ header.phentsize ≠ Elf64Phdr.size then
    throw (.runtimeError "unsupported ELF core program-header table")
  else
    let phdrBytes ← checkedMul header.phnum Elf64Phdr.size "ELF core program-header table"
    requireRange bytes header.phoff phdrBytes "ELF core program-header table"
    return header

/-- What `parse` does with the program header of an index. -/
def parseSegment {σ : Type} (bytes : List Byte) (header : Elf64Ehdr)
    (onLoad : σ → Elf64Phdr → Except Exception σ) (visit : NoteVisitor σ) (sort : σ → σ)
    (state : σ) (index : Nat) : Except Exception σ := do
  let phdr ← Elf64Phdr.decode <$> readStruct bytes
    ((header.phoff + index * Elf64Phdr.size) % 2 ^ 64) Elf64Phdr.size elfStructureError
  if phdr.type = ptLoad then onLoad state phdr
  else if phdr.type = ptNote then
    requireRange bytes phdr.offset phdr.filesz "ELF core PT_NOTE"
    let state ← parseNotes bytes visit phdr.offset phdr.filesz state
    return sort state
  else return state

/-- The loop of `parse` over the program headers. -/
def parseSegments {σ : Type} (bytes : List Byte) (header : Elf64Ehdr)
    (onLoad : σ → Elf64Phdr → Except Exception σ) (visit : NoteVisitor σ) (sort : σ → σ)
    (state : σ) : Except Exception σ :=
  (List.range header.phnum).foldlM (parseSegment bytes header onLoad visit sort) state

structure CoreCrashInfo where
  signalNumber : Int
  signalCode : Int
  faultAddress : Option Word
  deriving DecidableEq

structure CoreProcessInfo where
  pid : Pid
  parentPid : Pid
  processGroupId : Pid
  sessionId : Pid
  fileName : String
  command : String
  deriving DecidableEq

/-- A `CoreSnapshot` with the fields only its parser and its session use. -/
structure ParsedCore extends CoreSnapshot where
  crashInfo : Option CoreCrashInfo
  processInfo : Option CoreProcessInfo
  registers : UserRegs
  crashedTid : Pid
  signalNumber : Int
  hasRegisters : Bool

/-- The members of a `CoreSnapshot` before `parse` has found anything. -/
def ParsedCore.initial (bytes : List Byte) : ParsedCore where
  bytes := bytes
  loadSegments := []
  fileMappings := []
  threads := []
  crashInfo := none
  processInfo := none
  registers := {}
  crashedTid := -1
  signalNumber := 0
  hasRegisters := false

def elfPrstatusSize : Nat := 336
def elfPrpsinfoSize : Nat := 136
def siginfoSize : Nat := 128

/-- The general registers of an `elf_prstatus`, in the order of `user_regs_struct`. -/
def prstatusRegisters (status : List Byte) : UserRegs :=
  let reg (index : Nat) : Word := wordField status (112 + 8 * index)
  { r15 := reg 0, r14 := reg 1, r13 := reg 2, r12 := reg 3, rbp := reg 4, rbx := reg 5
    r11 := reg 6, r10 := reg 7, r9 := reg 8, r8 := reg 9, rax := reg 10, rcx := reg 11
    rdx := reg 12, rsi := reg 13, rdi := reg 14, rip := reg 16, rsp := reg 19 }

/-- `pr_pid` -/
def prstatusPid (status : List Byte) : Pid := intField status 32 4

/-- `pr_cursig`, or `pr_info.si_signo` where it is zero -/
def prstatusSignal (status : List Byte) : Int :=
  if intField status 12 2 ≠ 0 then intField status 12 2 else intField status 0 4

/-- `bounded_process_text` -/
def boundedProcessText (data : List Byte) : String :=
  textOfBytes ((untilNull data).reverse.dropWhile (· = 0x20)).reverse

/-- `fault_address_for_siginfo` -/
def faultAddressForSiginfo (info : List Byte) : Option Word :=
  -- SIGILL, SIGFPE, SIGSEGV, SIGBUS and SIGTRAP
  if intField info 0 4 ∈ ([4, 8, 11, 7, 5] : List Int) then some (wordField info 16) else none

structure RawMapping where
  start : Word
  stop : Word
  pageOffset : Word

/-- The loop over the triples of an `NT_FILE` note. -/
def readRawMappings (bytes : List Byte) (triplesOffset descEnd count : Nat) :
    Except Exception (List RawMapping) :=
  (List.range count).foldlM (fun raw index => do
    let entry := triplesOffset + index * 24
    let start ← readNoteU64 bytes entry descEnd "NT_FILE mapping start"
    let stop ← readNoteU64 bytes (entry + 8) descEnd "NT_FILE mapping end"
    let pageOffset ← readNoteU64 bytes (entry + 16) descEnd "NT_FILE mapping file offset"
    if stop ≤ start then throw (.runtimeError "invalid NT_FILE mapping range")
    return raw ++ [⟨start, stop, pageOffset⟩]) []

/-- The loop over the paths of an `NT_FILE` note; `strings` are the bytes in front of its end. -/
def readMappingPaths (pageSize : Word) : List RawMapping → List Byte →
    Except Exception (List CoreFileMapping)
  | [], _ => return []
  | mapping :: rest, strings => do
    if strings = [] then throw (.runtimeError "missing NT_FILE path")
    let path := untilNull strings
    if path.length = strings.length ∨ path = [] then
      throw (.runtimeError "invalid NT_FILE path")
    let fileOffset ← checkedMul mapping.pageOffset.toNat pageSize.toNat "NT_FILE file offset"
    let mappings ← readMappingPaths pageSize rest (strings.drop (path.length + 1))
    return ⟨mapping.start, mapping.stop, BitVec.ofNat 64 fileOffset, textOfBytes path⟩ :: mappings

def readFileMappings (bytes : List Byte) (note : CoreNote) :
    Except Exception (List CoreFileMapping) := do
  if note.descSize < 16 then throw (.runtimeError "truncated NT_FILE header")
  let descEnd ← checkedSum note.descOffset note.descSize "NT_FILE payload"
  let count ← readNoteU64 bytes note.descOffset descEnd "NT_FILE mapping count"
  let pageSize ← readNoteU64 bytes (note.descOffset + 8) descEnd "NT_FILE page size"
  if pageSize = 0 then throw (.runtimeError "NT_FILE page size is zero")
  let triplesSize ← checkedMul count.toNat 24 "NT_FILE mapping table"
  let triplesOffset := note.descOffset + 16
  let stringsOffset ← checkedSum triplesOffset triplesSize "NT_FILE mapping table"
  if descEnd < stringsOffset then throw (.runtimeError "truncated NT_FILE mapping table")
  let raw ← readRawMappings bytes triplesOffset descEnd count.toNat
  readMappingPaths pageSize raw ((bytes.drop stringsOffset).take (descEnd - stringsOffset))

/-- The `NT_PRSTATUS` branch of `parse_notes` -/
def parsePrstatus (bytes : List Byte) : NoteVisitor ParsedCore := fun core note =>
  if note.descSize ≠ elfPrstatusSize then
    throw (.runtimeError "unsupported x86-64 NT_PRSTATUS size")
  else do
    let status ← readStruct bytes note.descOffset elfPrstatusSize elfStructureError
    let tid := prstatusPid status
    let thread : CoreThreadSnapshot := ⟨tid, prstatusSignal status, prstatusRegisters status⟩
    if tid ≤ 0 then throw (.runtimeError "NT_PRSTATUS has invalid TID")
    else if core.threads.any fun thread => thread.tid = tid then
      throw (.runtimeError "ELF core contains duplicate NT_PRSTATUS TID")
    else if core.threads = [] then
      return { core with threads := [thread], registers := thread.registers, crashedTid := tid
                         signalNumber := thread.signalNumber, hasRegisters := true }
    else return { core with threads := core.threads ++ [thread] }

/-- The `NT_PRPSINFO` branch of `parse_notes` -/
def parsePrpsinfo (bytes : List Byte) : NoteVisitor ParsedCore := fun core note => do
  if core.processInfo.isSome then throw (.runtimeError "duplicate NT_PRPSINFO note")
  if note.descSize ≠ elfPrpsinfoSize then
    throw (.runtimeError "unsupported x86-64 NT_PRPSINFO size")
  let process ← readStruct bytes note.descOffset elfPrpsinfoSize elfStructureError
  return { core with
    processInfo := some ⟨intField process 24 4, intField process 28 4, intField process 32 4,
      intField process 36 4, boundedProcessText ((process.drop 40).take 16),
      boundedProcessText ((process.drop 56).take 80)⟩ }

/-- The `NT_SIGINFO` branch of `parse_notes` -/
def parseSiginfo (bytes : List Byte) : NoteVisitor ParsedCore := fun core note => do
  if core.crashInfo.isSome then throw (.runtimeError "duplicate NT_SIGINFO note")
  if note.descSize ≠ siginfoSize then
    throw (.runtimeError "unsupported x86-64 NT_SIGINFO size")
  let info ← readStruct bytes note.descOffset siginfoSize elfStructureError
  if intField info 0 4 ≤ 0 then throw (.runtimeError "NT_SIGINFO has invalid signal number")
  return { core with
    crashInfo := some ⟨intField info 0 4, intField info 8 4, faultAddressForSiginfo info⟩ }

/-- What `parse_notes` does with a note. -/
def parseNote (bytes : List Byte) : NoteVisitor ParsedCore := fun core note =>
  if note.owner ≠ coreOwner then return core
  else if note.type = ntPrstatus then parsePrstatus bytes core note
  else if note.type = ntPrpsinfo then parsePrpsinfo bytes core note
  else if note.type = ntSiginfo then parseSiginfo bytes core note
  else if note.type ≠ ntFile then return core
  else if core.fileMappings ≠ [] then throw (.runtimeError "duplicate NT_FILE note")
  else do
    let fileMappings ← readFileMappings bytes note
    return { core with fileMappings }

/-- What `parse` does with a `PT_LOAD` header. -/
def parseLoad (bytes : List Byte) (core : ParsedCore) (phdr : Elf64Phdr) :
    Except Exception ParsedCore := do
  if phdr.memsz < phdr.filesz then
    throw (.runtimeError "ELF core PT_LOAD file size exceeds memory size")
  let _ ← checkedSum phdr.vaddr phdr.memsz "ELF core PT_LOAD address range"
  requireRange bytes phdr.offset phdr.filesz "ELF core PT_LOAD bytes"
  return { core with
    loadSegments := core.loadSegments ++ [⟨BitVec.ofNat 64 phdr.vaddr, BitVec.ofNat 64 phdr.memsz,
      BitVec.ofNat 64 phdr.offset, BitVec.ofNat 64 phdr.filesz⟩] }

/-- The order of the mappings. The order `std::sort` gives mappings of one range is left open by
the standard; here it is the order of the note. -/
def sortMappings (core : ParsedCore) : ParsedCore :=
  { core with fileMappings := core.fileMappings.mergeSort fun left right =>
      if left.start ≠ right.start then left.start < right.start else left.stop ≤ right.stop }

/-- The checks `parse` makes once it has read every segment. -/
def checkParsed (core : ParsedCore) : Except Exception Unit := do
  if !core.hasRegisters ∨ core.threads = [] then
    throw (.runtimeError "ELF core lacks NT_PRSTATUS registers")
  if core.crashInfo.any fun info => info.signalNumber ≠ core.signalNumber then
    throw (.runtimeError "NT_SIGINFO and crashed NT_PRSTATUS disagree on signal identity")
  if core.processInfo.any fun info => info.pid ≤ 0 then
    throw (.runtimeError "NT_PRPSINFO has invalid process PID")
  if core.processInfo.any fun info => core.threads.all fun thread => thread.tid ≠ info.pid then
    throw (.runtimeError "NT_PRPSINFO PID is not present in NT_PRSTATUS thread catalogue")
  if core.loadSegments = [] then throw (.runtimeError "ELF core lacks PT_LOAD memory")
  if core.fileMappings = [] then throw (.runtimeError "ELF core lacks NT_FILE mappings")
  if core.mappingForAddress core.registers.rip = none then
    throw (.runtimeError "ELF core crash RIP is not covered by NT_FILE mapping")

/-- `CoreSnapshot::parse` on the bytes of the file -/
def CoreSnapshot.parse (bytes : List Byte) : Except Exception ParsedCore := do
  let header ← parseHeader bytes
  let core ← parseSegments bytes header (parseLoad bytes) (parseNote bytes) sortMappings
    (.initial bytes)
  checkParsed core
  return core

end MiniDebugger
