import MiniDebugger.Core.Parse

/-!
# The two other readers of core notes

`read_core_floating_point_state` looks for the `NT_FPREGSET` note of one thread and
`read_core_startup_info` for the `NT_AUXV` note.
-/

namespace MiniDebugger

/-! ## `read_core_floating_point_state` -/

structure CoreFloatingPointState where
  mxcsr : Nat
  mxcsrMask : Nat
  xmm : List (List Byte)
  deriving DecidableEq, Repr

def coreAlign4 (value : Nat) : Except Exception Nat :=
  if 2 ^ 64 - 1 - 3 < value then throw (.runtimeError "ELF core note alignment overflows")
  else return (value + 3) / 4 * 4

def coreReadStruct (bytes : List Byte) (offset size : Nat) (what : String) :
    Except Exception (List Byte) :=
  readStruct bytes offset size (what ++ " extends past end of core file")

def coreNoteOwner (bytes : List Byte) (offset size : Nat) : Except Exception (List Byte) :=
  if bytes.length < offset ∨ bytes.length - offset < size then
    throw (.runtimeError "ELF core note owner extends past end of file")
  else return untilNull ((bytes.drop offset).take size)

/-- `decode_core_fpregset` -/
def decodeCoreFpregset (registers : List Byte) : CoreFloatingPointState where
  mxcsr := field registers 24 4
  mxcsrMask := field registers 28 4
  xmm := (List.range 16).map fun index => (registers.drop (160 + 16 * index)).take 16

def userFpregsSize : Nat := 512

/-- The loop of `read_core_floating_point_state` over the notes of a segment. -/
def floatingPointNotesFrom {σ : Type} (bytes : List Byte) (visit : NoteVisitor σ)
    (stop cursor : Nat) (state : σ) : Except Exception σ :=
  if cursor < stop then do
    if stop - cursor < Elf64Nhdr.size then
      throw (.runtimeError "truncated ELF core note header")
    let note ← Elf64Nhdr.decode <$> coreReadStruct bytes cursor Elf64Nhdr.size "ELF core note"
    let nameOffset := cursor + Elf64Nhdr.size
    let nameSize ← coreAlign4 note.namesz
    if stop - nameOffset < nameSize then throw (.runtimeError "truncated ELF core note name")
    let owner ← coreNoteOwner bytes nameOffset note.namesz
    let descOffset := nameOffset + nameSize
    let descSize ← coreAlign4 note.descsz
    if stop - descOffset < descSize then
      throw (.runtimeError "truncated ELF core note payload")
    let state ← visit state ⟨owner, note.type, descOffset, note.descsz⟩
    floatingPointNotesFrom bytes visit stop (descOffset + descSize) state
  else return state
termination_by stop - cursor
decreasing_by simp only [Elf64Nhdr.size] at *; omega

/-- The checks `read_core_floating_point_state` makes on the header. -/
def floatingPointHeader (bytes : List Byte) : Except Exception Elf64Ehdr :=
  if bytes.length < Elf64Ehdr.size then throw (.runtimeError "core is smaller than ELF header")
  else do
    let header ← Elf64Ehdr.decode <$> coreReadStruct bytes 0 Elf64Ehdr.size "ELF core header"
    if header.ident.take 4 ≠ elfMagic ∨ header.ident[4]? ≠ some 2 ∨ header.ident[5]? ≠ some 1 ∨
        header.type ≠ etCore ∨ header.machine ≠ emX86_64 then
      throw (.runtimeError "floating-point state requires little-endian x86-64 ET_CORE")
    else if header.phnum = 0 ∨ header.phnum = pnXnum ∨ header.phentsize ≠ Elf64Phdr.size then
      throw (.runtimeError "unsupported ELF core program-header table")
    else return header

/-- What `read_core_floating_point_state` does with the program header of an index. -/
def floatingPointSegment {σ : Type} (bytes : List Byte) (header : Elf64Ehdr)
    (visit : NoteVisitor σ) (state : σ) (index : Nat) : Except Exception σ := do
  let phdr ← Elf64Phdr.decode <$> coreReadStruct bytes
    ((header.phoff + index * Elf64Phdr.size) % 2 ^ 64) Elf64Phdr.size "ELF core program header"
  if phdr.type ≠ ptNote then return state
  if bytes.length < phdr.offset ∨ bytes.length - phdr.offset < phdr.filesz then
    throw (.runtimeError "ELF core PT_NOTE extends past end of file")
  floatingPointNotesFrom bytes visit (phdr.offset + phdr.filesz) phdr.offset state

/-- The loop of `read_core_floating_point_state` over the program headers. -/
def floatingPointSegments {σ : Type} (bytes : List Byte) (header : Elf64Ehdr)
    (visit : NoteVisitor σ) (state : σ) : Except Exception σ :=
  (List.range header.phnum).foldlM (floatingPointSegment bytes header visit) state

/-- The variables of `read_core_floating_point_state`. -/
structure FpregsetSearch where
  currentTid : Option Pid := none
  targetState : Option CoreFloatingPointState := none
  fpregsetTids : List Pid := []

/-- What `read_core_floating_point_state` does with a note. -/
def floatingPointNote (bytes : List Byte) (targetTid : Pid) : NoteVisitor FpregsetSearch :=
    fun search note =>
  if note.owner ≠ coreOwner then return search
  else if note.type = ntPrstatus then
    if note.descSize ≠ elfPrstatusSize then
      throw (.runtimeError "unsupported x86-64 NT_PRSTATUS size while associating FPREGSET")
    else do
      let status ← coreReadStruct bytes note.descOffset elfPrstatusSize
        "NT_PRSTATUS while associating FPREGSET"
      if prstatusPid status ≤ 0 then throw (.runtimeError "NT_PRSTATUS has invalid TID")
      else return { search with currentTid := some (prstatusPid status) }
  else if note.type ≠ ntFpregset then return search
  else match search.currentTid with
  | none =>
    throw (.runtimeError "NT_FPREGSET appeared before any NT_PRSTATUS thread context")
  | some currentTid =>
    if note.descSize ≠ userFpregsSize then
      throw (.runtimeError "unsupported x86-64 NT_FPREGSET size")
    else if currentTid ∈ search.fpregsetTids then
      throw (.runtimeError "duplicate NT_FPREGSET for one core thread")
    else do
      let registers ← coreReadStruct bytes note.descOffset userFpregsSize "NT_FPREGSET"
      return { search with
        fpregsetTids := currentTid :: search.fpregsetTids
        targetState :=
          if currentTid = targetTid then some (decodeCoreFpregset registers)
          else search.targetState }

/-- `read_core_floating_point_state` on the bytes of the file -/
def readCoreFloatingPointState (bytes : List Byte) (targetTid : Pid) :
    Except Exception (Option CoreFloatingPointState) := do
  if targetTid ≤ 0 then
    throw (.invalidArgument "core floating-point TID must be positive")
  let header ← floatingPointHeader bytes
  let search ← floatingPointSegments bytes header (floatingPointNote bytes targetTid) {}
  return search.targetState

structure CoreAuxvEntry where
  type : Word
  value : Word
  deriving DecidableEq, Repr

structure CoreStartupInfo where
  entryPoint : Option Word := none
  programHeaders : Option Word := none
  programHeaderCount : Option Word := none
  pageSize : Option Word := none
  interpreterBase : Option Word := none
  entries : List CoreAuxvEntry := []
  deriving DecidableEq, Repr

def startupAlign4 (value : Nat) : Except Exception Nat :=
  if 2 ^ 64 - 1 - 3 < value then throw (.runtimeError "core startup note alignment overflow")
  else return (value + 3) / 4 * 4

/-- `startup_detail::owner` -/
def startupOwner (bytes : List Byte) (offset size : Nat) : Except Exception (List Byte) :=
  if bytes.length < offset ∨ bytes.length - offset < size then
    throw (.runtimeError "core startup note owner extends past file")
  else return untilNull ((bytes.drop offset).take size)

/-- The loop of `read_core_startup_info` over the notes of a segment; the header of a note is
copied without a check of its own. -/
def startupNotesFrom {σ : Type} (bytes : List Byte) (visit : NoteVisitor σ) (stop cursor : Nat)
    (state : σ) : Except Exception σ :=
  if cursor < stop then do
    if stop - cursor < Elf64Nhdr.size then
      throw (.runtimeError "truncated core startup note header")
    let note := Elf64Nhdr.decode ((bytes.drop cursor).take Elf64Nhdr.size)
    let nameOffset := cursor + Elf64Nhdr.size
    let namePadded ← startupAlign4 note.namesz
    if stop - nameOffset < namePadded then
      throw (.runtimeError "truncated core startup note name")
    let owner ← startupOwner bytes nameOffset note.namesz
    let descOffset := nameOffset + namePadded
    let descPadded ← startupAlign4 note.descsz
    if stop - descOffset < descPadded then
      throw (.runtimeError "truncated core startup note payload")
    let state ← visit state ⟨owner, note.type, descOffset, note.descsz⟩
    startupNotesFrom bytes visit stop (descOffset + descPadded) state
  else return state
termination_by stop - cursor
decreasing_by simp only [Elf64Nhdr.size] at *; omega

/-- The checks `read_core_startup_info` makes on the header. -/
def startupHeader (bytes : List Byte) : Except Exception Elf64Ehdr :=
  if bytes.length < Elf64Ehdr.size then
    throw (.runtimeError "core startup metadata lacks ELF header")
  else
    let header := Elf64Ehdr.decode (bytes.take Elf64Ehdr.size)
    if header.phentsize ≠ Elf64Phdr.size then
      throw (.runtimeError "unsupported core startup program-header size")
    else return header

/-- What `read_core_startup_info` does with the program header of an index. -/
def startupSegment {σ : Type} (bytes : List Byte) (header : Elf64Ehdr)
    (visit : NoteVisitor σ) (state : σ) (index : Nat) : Except Exception σ :=
  let phOffset := (header.phoff + index * Elf64Phdr.size) % 2 ^ 64
  if bytes.length < phOffset ∨ bytes.length - phOffset < Elf64Phdr.size then
    throw (.runtimeError "core startup program header extends past file")
  else
    let phdr := Elf64Phdr.decode ((bytes.drop phOffset).take Elf64Phdr.size)
    if phdr.type ≠ ptNote then return state
    else if bytes.length < phdr.offset ∨ bytes.length - phdr.offset < phdr.filesz then
      throw (.runtimeError "core startup PT_NOTE extends past file")
    else startupNotesFrom bytes visit (phdr.offset + phdr.filesz) phdr.offset state

/-- The loop of `read_core_startup_info` over the program headers. -/
def startupSegments {σ : Type} (bytes : List Byte) (header : Elf64Ehdr)
    (visit : NoteVisitor σ) (state : σ) : Except Exception σ :=
  (List.range header.phnum).foldlM (startupSegment bytes header visit) state

def assignOnce (target : Option Word) (value : Word) (label : String) :
    Except Exception (Option Word) :=
  if target.isSome then throw (.runtimeError ("duplicate NT_AUXV " ++ label))
  else return some value

/-- The `switch` over the type of an auxiliary vector entry. -/
def assignAuxv (info : CoreStartupInfo) (type value : Word) :
    Except Exception CoreStartupInfo := do
  if type = 9 then
    return { info with entryPoint := ← assignOnce info.entryPoint value "AT_ENTRY" }
  else if type = 3 then
    return { info with programHeaders := ← assignOnce info.programHeaders value "AT_PHDR" }
  else if type = 5 then
    return { info with
      programHeaderCount := ← assignOnce info.programHeaderCount value "AT_PHNUM" }
  else if type = 6 then
    return { info with pageSize := ← assignOnce info.pageSize value "AT_PAGESZ" }
  else if type = 7 then
    return { info with interpreterBase := ← assignOnce info.interpreterBase value "AT_BASE" }
  else return info

/-- The loop over the auxiliary vector; it ends at `AT_NULL` or at the end of the note. -/
def readAuxv : List (List Byte) → CoreStartupInfo → Except Exception CoreStartupInfo
  | [], _ => throw (.runtimeError "NT_AUXV lacks AT_NULL terminator")
  | entry :: rest, info =>
    let type := wordField entry 0
    let value := wordField entry 8
    if type = 0 then return info
    else do
      let info ← assignAuxv { info with entries := info.entries ++ [⟨type, value⟩] } type value
      readAuxv rest info

/-- The checks on what the auxiliary vector says. -/
def checkAuxv (snapshot : CoreSnapshot) (info : CoreStartupInfo) : Except Exception Unit :=
  if info.pageSize.any fun size => size = 0 ∨ size &&& (size - 1) ≠ 0 then
    throw (.runtimeError "NT_AUXV AT_PAGESZ is not a power of two")
  else if info.programHeaderCount = some 0 then
    throw (.runtimeError "NT_AUXV AT_PHNUM is zero")
  else if info.entryPoint.any fun entry =>
      entry = 0 ∨ snapshot.mappingForAddress entry = none then
    throw (.runtimeError "NT_AUXV AT_ENTRY is outside NT_FILE ownership")
  else if info.programHeaders.any fun phdr =>
      phdr = 0 ∨ snapshot.mappingForAddress phdr = none then
    throw (.runtimeError "NT_AUXV AT_PHDR is outside NT_FILE ownership")
  else if info.interpreterBase.any fun base =>
      base ≠ 0 ∧ snapshot.mappingForAddress base = none then
    throw (.runtimeError "NT_AUXV AT_BASE is outside NT_FILE ownership")
  else return ()

def kMaxAuxvBytes : Nat := 4096

/-- What `read_core_startup_info` does with a note. -/
def startupNote (bytes : List Byte) (snapshot : CoreSnapshot) :
    NoteVisitor (Option CoreStartupInfo) := fun result note =>
  if note.owner ≠ coreOwner ∨ note.type ≠ ntAuxv then return result
  else if result.isSome then throw (.runtimeError "duplicate NT_AUXV note")
  else if note.descSize = 0 ∨ kMaxAuxvBytes < note.descSize ∨ note.descSize % 16 ≠ 0 then
    throw (.runtimeError "unsupported bounded x86-64 NT_AUXV payload")
  else if bytes.length < note.descOffset ∨ bytes.length - note.descOffset < note.descSize then
    throw (.runtimeError "NT_AUXV payload extends past core file")
  else do
    let entries := (List.range (note.descSize / 16)).map fun index =>
      (bytes.drop (note.descOffset + 16 * index)).take 16
    let info ← readAuxv entries {}
    checkAuxv snapshot info
    return some info

/-- `read_core_startup_info` on the bytes of the file of a snapshot -/
def readCoreStartupInfo (bytes : List Byte) (snapshot : CoreSnapshot) :
    Except Exception (Option CoreStartupInfo) := do
  let header ← startupHeader bytes
  startupSegments bytes header (startupNote bytes snapshot) none

end MiniDebugger
