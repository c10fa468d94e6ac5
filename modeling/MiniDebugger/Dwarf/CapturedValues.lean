import Mathlib.Data.List.Find
import MiniDebugger.Core.Selected
import MiniDebugger.Dwarf.FrameZero
import MiniDebugger.Elf.SymbolAddresses

/-!
# A tracee and its core

`inspect_local_value` exists twice, for a stopped tracee and for a core. Where the core has captured
the tracee and both are looked at with the same files, the two find one value for a local of the
innermost frame.
-/

namespace MiniDebugger

open Checks

/-! ## Live lookups -/

/-- A tracee, with the files of its modules. -/
structure LiveView where
  tracee : Tracee
  debugger : Debugger
  /-- The module that the caller has loaded already -/
  preferred : ElfFile × List ElfSymbol
  files : SymbolFiles
  ehFrame : String → Except Exception EhFrame
  /-- The debug file of the module at a path -/
  debug : String → Except Exception ModuleDebug

namespace LiveView

variable (v : LiveView)

/-- The module of the tracee at a path. -/
def module (elf : ElfFile) : LiveModule := ⟨v.tracee, elf, v.ehFrame elf.path, v.debugger⟩

/-- `inspect_local_value` -/
def inspectLocalValue (name : String) : Except Exception LocalScalarValue := do
  if name = "" then throw (.invalidArgument "local variable name must not be empty")
  if v.tracee.state ≠ .stopped then
    throw (.logicError "local-value inspection requires a stopped tracee")
  let runtimePc := v.tracee.registers.rip
  match ← v.tracee.findModuleSymbolByRuntimeAddress v.files v.preferred runtimePc with
  | none => throw (.runtimeError "current PC is not owned by a file-backed symbol module")
  | some owner =>
    let (elf, _) ← v.files.elf owner.modulePath
    let bias ← v.tracee.loadBias elf
    if runtimePc < bias then throw (.runtimeError "current PC is below module load bias")
    let debug ← v.debug elf.path
    inspectUnits "current PC is not covered by a supported DWARF4/5 subprogram"
      ((LocalPath.current (v.module elf)).inspectUnit debug.sections (runtimePc - bias) name)
      debug.info

end LiveView

/-! ## Capturing -/

/-- A line of the maps as a mapping of a core. -/
def MapsLine.mapping (line : MapsLine) : CoreFileMapping where
  start := line.start
  stop := line.stop
  fileOffset := line.offset
  path := line.path

/-- The core has the registers of the thread, the mappings of files and every byte that can be read
of the tracee. The maps, from which its mappings come, are in the order of the addresses. -/
structure Captures (tracee : Tracee) (snapshot : CoreSnapshot)
    (thread : Fin snapshot.threads.length) : Prop where
  tid : (snapshot.threads.get thread).tid = tracee.activeTid
  registers : (snapshot.threads.get thread).registers = tracee.registers
  sorted : ∀ lines ∈ tracee.maps, lines.Pairwise fun left right => left.start ≤ right.start
  mappings : ∀ lines ∈ tracee.maps, ∃ backed : MapsLine → Bool,
    (∀ line ∈ lines, isModulePath line.path → backed line) ∧
      snapshot.fileMappings = (lines.filter backed).map (·.mapping)
  memory : ∀ address length bytes, tracee.readMemory address length = .ok bytes →
    ∀ index byte, bytes[index]? = some byte →
      snapshot.capturedByte (address + BitVec.ofNat 64 index) = .ok (some byte)

/-- Both sides use the same module and debug files. The maps name a file by its canonical path. -/
structure SharesFiles (live : LiveView) (core : CoreView) : Prop where
  canonical : ∀ lines ∈ live.tracee.maps, ∀ line ∈ lines, isModulePath line.path →
    ∀ elf symbols, live.files.elf line.path = .ok (elf, symbols) → elf.mappedPath = line.path
  elf : ∀ path, Coincide
    (fun liveElf coreElf => liveElf.1.elfType = coreElf.elfType ∧
      liveElf.1.loadVirtualBase = coreElf.loadVirtualBase)
    (live.files.elf path) (do core.files.elf (← core.files.resolve path))
  ehFrame : ∀ path elf symbols, live.files.elf path = .ok (elf, symbols) →
    Coincide Eq (live.ehFrame elf.path) (do core.files.ehFrame (← core.files.resolve path))
  debug : ∀ path elf symbols, live.files.elf path = .ok (elf, symbols) →
    Coincide Eq (live.debug elf.path) (core.debug path)

/-! ## Modules -/

section Modules

variable {lines : List MapsLine} {line : MapsLine} {backed : MapsLine → Bool}
  {snapshot : CoreSnapshot} {address : Word}

/-- The line of the maps that holds an address is the mapping of the core that does. -/
theorem mappingForAddress_of_find
    (hsorted : lines.Pairwise fun left right => left.start ≤ right.start)
    (hmappings : snapshot.fileMappings = (lines.filter backed).map (·.mapping))
    (hline : lines.find? (fun line => line.start ≤ address && address < line.stop) = some line)
    (hbacked : backed line) : snapshot.mappingForAddress address = some line.mapping := by
  suffices h : ((lines.filter backed).takeWhile fun line => line.start ≤ address).find?
      (fun line => line.start ≤ address && address < line.stop) = some line by
    unfold CoreSnapshot.mappingForAddress
    rw [hmappings, List.takeWhile_map, List.find?_map]
    exact congrArg (Option.map MapsLine.mapping) h
  clear hmappings
  induction lines with
  | nil => cases hline
  | cons first rest ih =>
    obtain ⟨hfirst, hsorted⟩ := List.pairwise_cons.mp hsorted
    by_cases hholds : first.start ≤ address ∧ address < first.stop
    · rw [List.find?_cons_of_pos (by simpa using hholds)] at hline
      obtain rfl := Option.some.inj hline
      rw [List.filter_cons_of_pos hbacked, List.takeWhile_cons_of_pos (by simpa using hholds.1)]
      exact List.find?_cons_of_pos (by simpa using hholds)
    · rw [List.find?_cons_of_neg (by simpa using hholds)] at hline
      have hstart : first.start ≤ address := by
        have hfound := List.find?_some hline
        rw [Bool.and_eq_true, decide_eq_true_eq] at hfound
        exact BitVec.le_trans (hfirst line (List.mem_of_find?_eq_some hline)) hfound.1
      cases hkept : backed first with
      | false =>
        rw [List.filter_cons_of_neg (by simp [hkept])]
        exact ih hsorted hline
      | true =>
        rw [List.filter_cons_of_pos hkept, List.takeWhile_cons_of_pos (by simpa using hstart),
          List.find?_cons_of_neg (by simpa using hholds)]
        exact ih hsorted hline

/-- A search for a line with the path of a module finds its mapping in the core. -/
theorem find?_mappings {path : String}
    (hbacked : ∀ line ∈ lines, isModulePath line.path → backed line)
    (hmappings : snapshot.fileMappings = (lines.filter backed).map (·.mapping))
    (hpath : isModulePath path) :
    snapshot.fileMappings.find? (fun mapping => mapping.path = path && mapping.fileOffset = 0) =
      (lines.find? fun line => line.path = path && line.offset = 0).map (·.mapping) := by
  rw [hmappings, List.find?_map, List.find?_filter]
  refine congrArg _ (List.find?_congr fun line hline => ?_)
  by_cases hsame : line.path = path
  · simp [MapsLine.mapping, hbacked line hline (by rwa [hsame])]
  · simp [MapsLine.mapping, hsame]

end Modules

section Lookups

variable {live : LiveView} {core : CoreView} {thread : Fin core.snapshot.threads.length}

theorem line_of_mappedModulePath {tracee : Tracee} {address : Word} {path : String}
    (h : tracee.mappedModulePath address = .ok (some path)) :
    ∃ lines ∈ tracee.maps, ∃ line,
      lines.find? (fun line => line.start ≤ address && address < line.stop) = some line ∧
        line.path = path ∧ isModulePath path := by
  unfold Tracee.mappedModulePath at h
  split at h
  · cases h
  next lines hlines =>
    split at h
    · cases h
    next line hline =>
      have hpath := pure_eq_ok.mp h
      split at hpath
      next hmodule =>
        obtain rfl := Option.some.inj hpath
        exact ⟨lines, hlines, line, hline, rfl, hmodule⟩
      next => cases hpath

/-- The module of an address, and the distance to where it was linked. -/
theorem moduleAddress_eq (hcaptures : Captures live.tracee core.snapshot thread)
    (hfiles : SharesFiles live core) {address bias : Word} {path : String} {elf : ElfFile}
    {symbols : List ElfSymbol} {owner : SnapshotModuleAddress}
    (hpath : live.tracee.mappedModulePath address = .ok (some path))
    (helf : live.files.elf path = .ok (elf, symbols)) (hbias : live.tracee.loadBias elf = .ok bias)
    (howner : resolveSnapshotModuleAddress core.snapshot core.files address = .ok owner) :
    owner.modulePath = path ∧ core.files.resolve path = .ok owner.moduleFilePath ∧
      owner.virtualAddress = address - bias := by
  obtain ⟨lines, hlines, line, hline, rfl, hmodule⟩ := line_of_mappedModulePath hpath
  obtain ⟨backed, hbacked, hmappings⟩ := hcaptures.mappings lines hlines
  have hmem := List.mem_of_find?_eq_some hline
  have hmapping := mappingForAddress_of_find (hcaptures.sorted lines hlines) hmappings hline
    (hbacked line hmem hmodule)
  have hcanonical := hfiles.canonical lines hlines line hmem hmodule elf symbols helf
  unfold resolveSnapshotModuleAddress at howner
  rw [hmapping] at howner
  obtain ⟨-, howner⟩ := ite_throw_eq_ok.mp howner
  obtain ⟨file, hfile, howner⟩ := bind_eq_ok.mp howner
  obtain ⟨coreElf, hcoreElf, howner⟩ := bind_eq_ok.mp howner
  obtain ⟨htype, hbase⟩ :=
    hfiles.elf line.path _ coreElf helf (bind_eq_ok.mpr ⟨file, hfile, hcoreElf⟩)
  dsimp only at htype hbase howner
  unfold Tracee.loadBias at hbias
  split at hbias
  next hexec =>
    obtain rfl := pure_eq_ok.mp hbias
    rw [if_pos (by simp [ElfFile.isPie, ← htype, hexec])] at howner
    obtain rfl := pure_eq_ok.mp howner
    exact ⟨rfl, hfile, (BitVec.sub_zero address).symm⟩
  next => cases hbias
  next hdyn =>
    rw [if_neg (by simp [ElfFile.isPie, ← htype, hdyn]),
      show line.mapping.path = line.path from rfl, find?_mappings hbacked hmappings hmodule]
      at howner
    rw [show live.tracee.maps = some lines from hlines, hcanonical] at hbias
    dsimp only at hbias
    split at hbias
    · cases hbias
    next first hfirst =>
      obtain rfl := pure_eq_ok.mp (ite_throw_eq_ok.mp hbias).2
      rw [hfirst] at howner
      obtain ⟨-, howner⟩ := ite_throw_eq_ok.mp howner
      obtain ⟨-, howner⟩ := ite_throw_eq_ok.mp howner
      obtain rfl := pure_eq_ok.mp howner
      exact ⟨rfl, hfile, by rw [hbase]; rfl⟩

/-- The first frame of a core has the registers that a caller recovers, and those alone. -/
theorem sameFrame_of_front (hcaptures : Captures live.tracee core.snapshot thread)
    (hfiles : SharesFiles live core) {bias : Word} {path : String} {elf : ElfFile}
    {symbols : List ElfSymbol} {owner : SnapshotModuleAddress}
    (hfront : makeSnapshotInspectionFrame core.snapshot thread 0
      { cursor := (core.snapshot.threads.get thread).registers.cursor
        pcOwnership := .exactInstruction } = .ok core.frame)
    (helf : live.files.elf path = .ok (elf, symbols)) (hbias : live.tracee.loadBias elf = .ok bias)
    (hresolve : core.files.resolve path = .ok owner.moduleFilePath)
    (hvirtual : owner.virtualAddress = live.tracee.registers.rip - bias) :
    (live.module elf).SameFrame ⟨core.snapshot, core.frame, core.files, core.artifact, owner⟩ := by
  obtain ⟨_, -, hfront⟩ := bind_eq_ok.mp hfront
  obtain ⟨modulePath, -, hfront⟩ := bind_eq_ok.mp hfront
  rw [hcaptures.registers] at hfront
  have hframe := (pure_eq_ok.mp hfront).symm
  refine ⟨by rw [hframe], by rw [hframe], by rw [hframe]; rfl, by rw [hframe]; rfl,
    by rw [hframe]; rfl, fun cfi cfi' hcfi hcfi' => ?_, fun bias' hbias' => ?_, hcaptures.memory⟩
  · exact hfiles.ehFrame path elf symbols helf cfi cfi' hcfi
      (bind_eq_ok.mpr ⟨owner.moduleFilePath, hresolve, hcfi'⟩)
  · rw [Except.ok.inj (hbias'.symm.trans hbias)]
    exact hvirtual

theorem coincide_inspectUnits {r : LocalScalarValue → LocalScalarValue → Prop}
    {uncovered uncovered' : String}
    {inspect inspect' : DieUnit → Except Exception (Option LocalScalarValue)}
    (h : ∀ u, Coincide (Option.Rel r) (inspect u) (inspect' u)) (info : DebugInfo) :
    Coincide r (inspectUnits uncovered inspect info) (inspectUnits uncovered' inspect' info) := by
  induction info with
  | nil => exact coincide_throw_left _ _
  | cons parsed rest ih =>
    refine (coincide_self parsed).bind ?_
    rintro u _ rfl
    refine (h u).bind fun found found' hfound => ?_
    cases hfound with
    | none => exact ih
    | some hvalue => exact coincide_pure hvalue

theorem modulePath_of_symbol {tracee : Tracee} {files : SymbolFiles}
    {preferred : ElfFile × List ElfSymbol} {address : Word} {owner : ModuleResolvedSymbol}
    (h : tracee.findModuleSymbolByRuntimeAddress files preferred address = .ok (some owner)) :
    tracee.mappedModulePath address = .ok (some owner.modulePath) := by
  obtain ⟨path, hpath, h⟩ := bind_eq_ok.mp h
  cases path with
  | none => cases h
  | some path =>
    dsimp only at h
    split at h
    all_goals
      obtain ⟨elf, -, h⟩ := bind_eq_ok.mp h
      obtain ⟨symbol, -, h⟩ := bind_eq_ok.mp h
      cases symbol with
      | none => cases h
      | some symbol =>
        obtain rfl := Option.some.inj (pure_eq_ok.mp h)
        exact hpath

/-- A local of the innermost frame has one value in a tracee and in a core that has captured it. -/
theorem inspectLocalValue_same {maxFrames : Nat} {trace : SnapshotInspectionTrace}
    (hcaptures : Captures live.tracee core.snapshot thread) (hfiles : SharesFiles live core)
    (htrace : buildSnapshotInspectionFrames core.snapshot core.files thread maxFrames = .ok trace)
    (hframe : trace.frames.head? = some core.frame) (name : String) :
    Coincide LocalScalarValue.SameValue (live.inspectLocalValue name)
      (core.inspectLocalValue name) := by
  intro left right hleft hright
  obtain ⟨-, front, callers, hframes, hfront, -⟩ := trace_front htrace
  rw [hframes, List.head?_cons] at hframe
  obtain rfl := Option.some.inj hframe
  -- the core
  obtain ⟨-, hright⟩ := ite_throw_eq_ok.mp hright
  obtain ⟨owned, howned, hright⟩ := bind_eq_ok.mp hright
  obtain ⟨⟨⟩, -, howned⟩ := bind_eq_ok.mp howned
  obtain ⟨⟨⟩, -, howned⟩ := bind_eq_ok.mp howned
  obtain ⟨pc, hpc, howned⟩ := bind_eq_ok.mp howned
  obtain ⟨owner, howner, howned⟩ := bind_eq_ok.mp howned
  obtain rfl := pure_eq_ok.mp (ite_throw_eq_ok.mp howned).2
  obtain ⟨debug', hdebug', hright⟩ := bind_eq_ok.mp hright
  have hpc : pc = live.tracee.registers.rip := by
    obtain ⟨hcursor, hownership, -⟩ := makeSnapshotInspectionFrame_eq hfront
    unfold snapshotFrameLookupPc at hpc
    rw [if_pos hownership] at hpc
    rw [← pure_eq_ok.mp hpc, ← hcaptures.registers]
    exact congrArg EhFrameCursor.instructionPointer hcursor
  subst hpc
  -- the tracee
  obtain ⟨-, hleft⟩ := ite_throw_eq_ok.mp hleft
  obtain ⟨-, hleft⟩ := ite_throw_eq_ok.mp hleft
  obtain ⟨symbol, hsymbol, hleft⟩ := bind_eq_ok.mp hleft
  cases symbol with
  | none => cases hleft
  | some symbol =>
    obtain ⟨⟨elf, symbols⟩, helf, hleft⟩ := bind_eq_ok.mp hleft
    obtain ⟨bias, hbias, hleft⟩ := bind_eq_ok.mp hleft
    obtain ⟨-, hleft⟩ := ite_throw_eq_ok.mp hleft
    obtain ⟨debug, hdebug, hleft⟩ := bind_eq_ok.mp hleft
    obtain ⟨hpath, hresolve, hvirtual⟩ :=
      moduleAddress_eq hcaptures hfiles (modulePath_of_symbol hsymbol) helf hbias howner
    rw [show (CoreFrame.mk _ _ _ _ owner).owner.modulePath = owner.modulePath from rfl, hpath]
      at hdebug'
    obtain rfl := hfiles.debug _ elf symbols helf _ _ hdebug hdebug'
    have hsame := sameFrame_of_front hcaptures hfiles hfront helf hbias hresolve hvirtual
    rw [show (CoreFrame.mk _ _ _ _ owner).owner.virtualAddress = owner.virtualAddress from rfl,
      hvirtual] at hright
    exact coincide_inspectUnits (fun u => hsame.coincide_inspectUnit u _ _ name) _ _ _ hleft hright

end Lookups

/-- A function with a variable `x`, an integer on the stack. -/
def stackUnit : DieUnit where
  dies := [⟨0x0b, 0x11, none, []⟩,
    ⟨0x10, kDwTagSubprogram, some 0, [
      { name := kDwAtLowPc, form := kDwFormAddr, number := 0x1000 },
      { name := kDwAtHighPc, form := kDwFormData4, number := 0x100 },
      { name := kDwAtFrameBase, form := kDwFormExprloc, expression := [kDwOpReg7] }]⟩,
    ⟨0x20, kDwTagVariable, some 1, [
      { name := kDwAtName, form := 0x08, text := "x" },
      { name := kDwAtType, form := kDwFormRef4, number := 0x30 },
      { name := kDwAtLocation, form := kDwFormExprloc, expression := [kDwOpFbreg, 8] }]⟩,
    ⟨0x30, kDwTagBaseType, some 0, [
      { name := kDwAtByteSize, form := kDwFormData1, number := 4 },
      { name := kDwAtEncoding, form := kDwFormData1, number := kDwAteSigned }]⟩]
  ascending := by decide
  rooted := by decide

/-- The bytes from `0x8000` on. -/
def stackBytes : List Byte := [1, 2, 3, 4, 5, 6, 7, 8, 0x2a, 0, 0, 0, 9, 10, 11, 12]

/-- A stop in that function. -/
def stackLive : LiveView where
  tracee := {
    state := .stopped
    pid := 10
    activeTid := 10
    stopSequence := 1
    registers := { rip := 0x6010, rsp := 0x8000 }
    readMemory := fun address length =>
      if 0x8000 ≤ address.toNat ∧ address.toNat + length ≤ 0x8010 then
        .ok ((stackBytes.drop (address.toNat - 0x8000)).take length)
      else .error (.ptraceError "PTRACE_PEEKDATA" eio)
    maps := some [⟨0x5000, 0x7000, 0, "/bin/stack"⟩, ⟨0x8000, 0x9000, 0, "[stack]"⟩] }
  debugger := {
    process := ⟨10, 10, .stopped, .launched, ∅, none, none⟩
    stopInfo := { reason := .breakpoint }
    executablePath := "/bin/stack" }
  preferred :=
    (⟨"/bin/stack", "/bin/stack", .dyn, 0⟩, [⟨"main", 0x1000, 0x100, sttFunc, stbGlobal⟩])
  files := {
    sameFile := fun left right => left = right
    elf := fun path =>
      .ok (⟨path, path, .dyn, 0⟩, [⟨"main", 0x1000, 0x100, sttFunc, stbGlobal⟩]) }
  ehFrame := fun _ => .error (.runtimeError "no .eh_frame")
  debug := fun _ => .ok ⟨[.ok stackUnit], {}, .error (.runtimeError "no ranges")⟩

/-- A core of that stop. -/
def stackCore : CoreView where
  snapshot := {
    bytes := stackBytes
    loadSegments := [⟨0x8000, 0x10, 0, 0x10⟩]
    fileMappings := [⟨0x5000, 0x7000, 0, "/bin/stack"⟩]
    threads := [⟨10, 11, { rip := 0x6010, rsp := 0x8000 }⟩] }
  frame := {
    index := 0
    threadTid := 10
    threadSignalNumber := 11
    originRuntimePc := 0x6010
    originStackPointer := 0x8000
    originFramePointer := some 0
    runtimePc := 0x6010
    stackPointer := 0x8000
    framePointer := some 0
    pcOwnership := .exactInstruction
    modulePath := "/bin/stack"
    registers := { rbx := some 0, rbp := some 0, rsp := some 0x8000 } }
  files := {
    sameFile := fun left right => left = right
    elf := fun path => .ok ⟨path, path, .dyn, 0⟩
    ehFrame := fun _ => .error (.runtimeError "no .eh_frame")
    signalIndex := fun _ => .error (.runtimeError "no .eh_frame")
    resolve := .ok }
  artifact := fun _ => none
  debug := fun _ => .ok ⟨[.ok stackUnit], {}, .error (.runtimeError "no ranges")⟩

theorem captures_stack : Captures stackLive.tracee stackCore.snapshot ⟨0, by decide⟩ where
  tid := rfl
  registers := rfl
  sorted := by
    rintro lines ⟨⟩
    decide
  mappings := by
    rintro lines ⟨⟩
    exact ⟨fun line => isModulePath line.path, fun _ _ h => h, rfl⟩
  memory := by
    intro address length bytes hread index byte hbyte
    have hcaptured : ∀ k < 16, stackCore.snapshot.capturedByte (BitVec.ofNat 64 (0x8000 + k)) =
        .ok stackBytes[k]? := by decide +kernel
    simp only [stackLive] at hread
    split at hread
    next hrange =>
      obtain rfl := Except.ok.inj hread
      obtain ⟨hindex, hposition⟩ := List.getElem?_eq_some_iff.mp hbyte
      simp only [List.length_take, List.length_drop] at hindex
      have haddress : address + BitVec.ofNat 64 index =
          BitVec.ofNat 64 (0x8000 + (address.toNat - 0x8000 + index)) := by
        rw [← Nat.add_assoc, Nat.add_sub_cancel' hrange.1, BitVec.ofNat_add, BitVec.ofNat_toNat,
          BitVec.setWidth_eq]
      rw [haddress, hcaptured _ (by omega), ← List.getElem?_drop]
      rw [List.getElem?_take_of_lt (by omega)] at hbyte
      rw [hbyte]
    next => cases hread

theorem sharesFiles_stack : SharesFiles stackLive stackCore where
  canonical := by
    rintro lines - line - - elf symbols ⟨⟩
    rfl
  elf := by
    rintro path ⟨elf, symbols⟩ elf' ⟨⟩ ⟨⟩
    exact ⟨rfl, rfl⟩
  ehFrame := by
    rintro path elf symbols - cfi cfi' ⟨⟩
  debug := by
    rintro path elf symbols - debug debug' ⟨⟩ ⟨⟩
    rfl

/-- The variable has its value in the tracee and in the core. -/
theorem inspectLocalValue_same_stack : ∃ left right, stackLive.inspectLocalValue "x" = .ok left ∧
    stackCore.inspectLocalValue "x" = .ok right ∧ left.rawValue = 0x2a ∧ left.SameValue right := by
  have hlive : (stackLive.inspectLocalValue "x").toOption.map (·.rawValue) = some 0x2a := by
    decide +kernel
  have hcore : (stackCore.inspectLocalValue "x").toOption.isSome := by decide +kernel
  obtain ⟨left, hleft, hraw⟩ := Option.map_eq_some_iff.mp hlive
  obtain ⟨right, hright⟩ := Option.isSome_iff_exists.mp hcore
  have htrace : buildSnapshotInspectionFrames stackCore.snapshot stackCore.files ⟨0, by decide⟩ 1 =
      .ok ⟨[stackCore.frame], .frameLimit⟩ := rfl
  exact ⟨left, right, eq_ok_of_toOption hleft, eq_ok_of_toOption hright, hraw,
    inspectLocalValue_same captures_stack sharesFiles_stack htrace rfl "x" left right
      (eq_ok_of_toOption hleft) (eq_ok_of_toOption hright)⟩

end MiniDebugger
