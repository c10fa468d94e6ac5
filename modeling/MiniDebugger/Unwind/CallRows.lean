import MiniDebugger.Unwind.FrameBase

/-!
# Rows that span the call

A frame that owns a return address is unwound with the row of that address. It is also the row of the
call, so that the frame base of the frame is the stack pointer of its caller, exactly when the row
begins before the return address, no other FDE ends there, the call lies in the same module and the
frame is no signal trampoline.
-/

namespace MiniDebugger

/-! ## The frames of a trace -/

/-- `next` is the caller recovered for `frame`. -/
def Recovered (snapshot : CoreSnapshot) (files : Files)
    (frame next : SnapshotInspectionFrameContext) : Prop :=
  ∃ caller, snapshotCaller snapshot files frame.cursor = .ok (some caller) ∧
    next.cursor = caller.cursor ∧ next.pcOwnership = caller.pcOwnership

/-- A frame has the module path of its pc, and a return address is not zero. -/
structure FrameMade (snapshot : CoreSnapshot) (frame : SnapshotInspectionFrameContext) : Prop where
  path : snapshotFrameModulePath snapshot frame.runtimePc = .ok frame.modulePath
  nonzero : frame.pcOwnership = .returnAddress → frame.runtimePc ≠ 0

section Trace

variable {snapshot : CoreSnapshot} {files : Files} {thread : Fin snapshot.threads.length}

/-- An interrupted frame owns the instruction at its pc. -/
theorem pcOwnership_of_signalFrame {ucontextAddress : Word} {signal : SnapshotCaller}
    (h : recoverLinuxX86SignalFrame snapshot ucontextAddress = .ok signal) :
    signal.pcOwnership = .exactInstruction := by
  obtain ⟨r12, -, h⟩ := except_bind_ok h
  obtain ⟨rdi, -, h⟩ := except_bind_ok h
  obtain ⟨rsi, -, h⟩ := except_bind_ok h
  obtain ⟨rip, -, h⟩ := except_bind_ok h
  obtain ⟨rsp, -, h⟩ := except_bind_ok h
  obtain ⟨rbp, -, h⟩ := except_bind_ok h
  obtain ⟨rbx, -, h⟩ := except_bind_ok h
  dsimp only at h
  split at h
  case isTrue => cases h
  case isFalse =>
    split at h
    case isTrue => cases h
    case isFalse =>
      obtain ⟨xmm0, -, h⟩ := except_bind_ok h
      cases h
      rfl

/-- A recovered caller comes from a signal frame or from a row. -/
theorem snapshotCaller_ok {current : EhFrameCursor} {caller : SnapshotCaller}
    (h : snapshotCaller snapshot files current = .ok (some caller)) :
    ∃ module cfi index, resolveSnapshotModuleAddress snapshot files current.instructionPointer =
        .ok module ∧ files.ehFrame module.moduleFilePath = .ok cfi ∧ cfi.available = true ∧
      files.signalIndex module.moduleFilePath = .ok index ∧
      ((index.isSignalFrame module.virtualAddress = .ok true ∧
          caller.pcOwnership = .exactInstruction) ∨
        (index.isSignalFrame module.virtualAddress = .ok false ∧
          caller.pcOwnership = .returnAddress ∧
          ∃ row, findRow cfi.section_ cfi.sectionVirtualAddress module.virtualAddress =
              .ok (some row) ∧
            callerOfRow snapshot.readMemory current row = .ok caller.cursor)) := by
  obtain ⟨module, hmodule, h⟩ := except_bind_ok h
  obtain ⟨cfi, hcfi, h⟩ := except_bind_ok h
  split at h
  case isTrue => cases h
  case isFalse havailable =>
    have havailable : cfi.available = true := by simpa using havailable
    obtain ⟨index, hindex, h⟩ := except_bind_ok h
    obtain ⟨isSignal, hsignal, h⟩ := except_bind_ok h
    refine ⟨module, cfi, index, hmodule, hcfi, havailable, hindex, ?_⟩
    cases isSignal with
    | true =>
      rw [if_pos rfl] at h
      obtain ⟨signal, hrecover, h⟩ := except_bind_ok h
      cases h
      exact .inl ⟨hsignal, pcOwnership_of_signalFrame hrecover⟩
    | false =>
      rw [if_neg (by simp)] at h
      obtain ⟨found, hcall, h⟩ := except_bind_ok h
      cases found with
      | none => cases h
      | some cursor =>
        cases h
        refine .inr ⟨hsignal, rfl, ?_⟩
        rw [callerFrame_eq havailable] at hcall
        obtain ⟨found, hrow, hcall⟩ := except_bind_ok hcall
        cases found with
        | none => cases hcall
        | some row =>
          obtain ⟨caller, hcaller, hcall⟩ := except_bind_ok hcall
          cases hcall
          exact ⟨row, hrow, hcaller⟩

theorem makeSnapshotInspectionFrame_eq {index : Nat} {caller : SnapshotCaller}
    {frame : SnapshotInspectionFrameContext}
    (h : makeSnapshotInspectionFrame snapshot thread index caller = .ok frame) :
    frame.cursor = caller.cursor ∧ frame.pcOwnership = caller.pcOwnership ∧
      snapshotFrameModulePath snapshot frame.runtimePc = .ok frame.modulePath := by
  obtain ⟨_, -, h⟩ := except_bind_ok h
  obtain ⟨path, hpath, h⟩ := except_bind_ok h
  cases h
  exact ⟨rfl, rfl, hpath⟩

/-- The caller of a row has a return address. -/
theorem frameMade_of_caller {current : EhFrameCursor} {caller : SnapshotCaller} {index : Nat}
    {frame : SnapshotInspectionFrameContext}
    (hcall : snapshotCaller snapshot files current = .ok (some caller))
    (h : makeSnapshotInspectionFrame snapshot thread index caller = .ok frame) :
    FrameMade snapshot frame := by
  obtain ⟨hcursor, hownership, hpath⟩ := makeSnapshotInspectionFrame_eq h
  refine ⟨hpath, fun howned => ?_⟩
  obtain ⟨module, cfi, signalIndex, -, -, -, -, hcases⟩ := snapshotCaller_ok hcall
  obtain ⟨-, hexact⟩ | ⟨-, -, row, -, hcaller⟩ := hcases
  · rw [hownership, hexact] at howned
    cases howned
  · obtain ⟨evaluated, hframe, -, -, -, hip⟩ := callerOfRow_ok hcaller
    obtain ⟨-, -, -, slot, -, -, hzero⟩ := frameOfRow_ok_iff.mp hframe
    have hpc : frame.runtimePc = evaluated.returnAddress := by
      rw [← hip, ← hcursor]
      rfl
    rw [hpc]
    exact hzero

/-- The loop adds callers of the last frame. -/
theorem snapshotFramesFrom_recovered {trace : SnapshotInspectionTrace} (room : Nat)
    (frames : List SnapshotInspectionFrameContext) (last : SnapshotInspectionFrameContext)
    (hchain : (frames ++ [last]).IsChain (Recovered snapshot files))
    (hmade : ∀ frame ∈ frames ++ [last], FrameMade snapshot frame)
    (h : snapshotFramesFrom snapshot files thread room last.cursor (frames ++ [last]) =
      .ok trace) :
    trace.frames.IsChain (Recovered snapshot files) ∧
      ∀ frame ∈ trace.frames, FrameMade snapshot frame := by
  induction room generalizing frames last with
  | zero =>
    cases h
    exact ⟨hchain, hmade⟩
  | succ room ih =>
    unfold snapshotFramesFrom at h
    split at h
    case h_1 =>
      cases h
      exact ⟨hchain, hmade⟩
    case h_2 =>
      cases h
      exact ⟨hchain, hmade⟩
    case h_3 caller hcall =>
      split at h
      case isTrue =>
        cases h
        exact ⟨hchain, hmade⟩
      case isFalse =>
        split at h
        case h_1 =>
          cases h
          exact ⟨hchain, hmade⟩
        case h_2 =>
          obtain ⟨frame, hframe, h⟩ := except_bind_ok h
          obtain ⟨hcursor, hownership, -⟩ := makeSnapshotInspectionFrame_eq hframe
          have hrecovered : Recovered snapshot files last frame := ⟨caller, hcall, hcursor, hownership⟩
          rw [← hcursor] at h
          refine ih (frames ++ [last]) frame ?_ ?_ h
          · rw [List.append_assoc]
            exact List.isChain_append_cons_cons.mpr ⟨hchain, hrecovered, .singleton frame⟩
          · intro other hother
            rw [List.mem_append, List.mem_singleton] at hother
            obtain hother | rfl := hother
            · exact hmade other hother
            · exact frameMade_of_caller hcall hframe

theorem trace_recovered {maxFrames : Nat} {trace : SnapshotInspectionTrace}
    (h : buildSnapshotInspectionFrames snapshot files thread maxFrames = .ok trace) :
    trace.frames.IsChain (Recovered snapshot files) ∧
      ∀ frame ∈ trace.frames, FrameMade snapshot frame := by
  unfold buildSnapshotInspectionFrames at h
  dsimp only at h
  split at h
  case isTrue => cases h
  case isFalse =>
    obtain ⟨_, -, h⟩ := except_bind_ok h
    obtain ⟨frame, hframe, h⟩ := except_bind_ok h
    obtain ⟨hcursor, hownership, hpath⟩ := makeSnapshotInspectionFrame_eq hframe
    have hmade : ∀ other ∈ [frame], FrameMade snapshot other := by
      intro other hother
      rw [List.mem_singleton] at hother
      subst hother
      exact ⟨hpath, fun howned => by rw [hownership] at howned; cases howned⟩
    split at h
    case isTrue =>
      cases h
      exact ⟨.singleton frame, hmade⟩
    case isFalse =>
      dsimp only at hcursor
      rw [← hcursor] at h
      exact snapshotFramesFrom_recovered _ [] frame (.singleton frame) hmade h

end Trace

/-! ## The address before a return address -/

section Modules

variable {snapshot : CoreSnapshot} {files : Files} {pc : Word}
  {module module' : SnapshotModuleAddress}

/-- The addresses of a module are shifted by a bias, and those below it do not resolve. -/
def ModuleBias (snapshot : CoreSnapshot) (files : Files) (path file : String) (bias : Word) : Prop :=
  ∀ pc mapping, snapshot.mappingForAddress pc = some mapping → mapping.path = path →
    (bias ≤ pc → resolveSnapshotModuleAddress snapshot files pc = .ok ⟨path, file, pc - bias⟩) ∧
    (¬bias ≤ pc → ∃ e, resolveSnapshotModuleAddress snapshot files pc = .error e)

/-- What a resolved address is made of. -/
theorem resolveSnapshotModuleAddress_ok
    (h : resolveSnapshotModuleAddress snapshot files pc = .ok module) :
    (snapshot.mappingForAddress pc).map (·.path) = some module.modulePath ∧
      snapshotFrameModulePath snapshot pc = .ok module.modulePath ∧
      ∃ bias, ModuleBias snapshot files module.modulePath module.moduleFilePath bias ∧
        bias ≤ pc ∧ module.virtualAddress = pc - bias := by
  unfold resolveSnapshotModuleAddress at h
  cases hmapping : snapshot.mappingForAddress pc with
  | none =>
    rw [hmapping] at h
    cases h
  | some mapping =>
    rw [hmapping] at h
    dsimp only at h
    split at h
    case isTrue => cases h
    case isFalse hpath =>
      obtain ⟨file, hfile, h⟩ := except_bind_ok h
      obtain ⟨elf, helf, h⟩ := except_bind_ok h
      have hname : snapshotFrameModulePath snapshot pc = .ok mapping.path := by
        unfold snapshotFrameModulePath
        rw [hmapping]
        dsimp only
        rw [if_neg hpath]
        rfl
      split at h
      case isTrue hpie =>
        cases h
        have hzero (address : Word) : 0 ≤ address := BitVec.le_def.mpr (Nat.zero_le _)
        refine ⟨rfl, hname, 0, ?_, hzero pc, by simp⟩
        intro pc' mapping' hmapping' hpath'
        dsimp only at hpath'
        refine ⟨fun _ => ?_, fun hbelow => absurd (hzero pc') hbelow⟩
        unfold resolveSnapshotModuleAddress
        rw [hmapping']
        dsimp only [Bind.bind, Except.bind]
        rw [hpath', if_neg hpath, hfile]
        dsimp only
        rw [helf]
        dsimp only
        rw [if_pos hpie]
        simp [pure, Except.pure]
      case isFalse hpie =>
        cases hbase : snapshot.fileMappings.find? fun candidate =>
            candidate.path = mapping.path && candidate.fileOffset = 0 with
        | none =>
          rw [hbase] at h
          cases h
        | some base =>
          rw [hbase] at h
          dsimp only at h
          split at h
          case isTrue => cases h
          case isFalse hvirtual =>
            split at h
            case isTrue => cases h
            case isFalse hbias =>
              cases h
              refine ⟨rfl, hname, base.start - elf.loadVirtualBase, ?_, BitVec.not_lt.mp hbias,
                rfl⟩
              intro pc' mapping' hmapping' hpath'
              dsimp only at hpath'
              have hstep : resolveSnapshotModuleAddress snapshot files pc' =
                  if pc' < base.start - elf.loadVirtualBase then
                    .error (.runtimeError "snapshot runtime address is below module load bias")
                  else .ok ⟨mapping.path, file, pc' - (base.start - elf.loadVirtualBase)⟩ := by
                unfold resolveSnapshotModuleAddress
                rw [hmapping']
                dsimp only [Bind.bind, Except.bind]
                rw [hpath', if_neg hpath, hfile]
                dsimp only
                rw [helf]
                dsimp only
                rw [if_neg hpie, hbase]
                dsimp only
                rw [if_neg hvirtual]
                split <;> rfl
              rw [hstep]
              refine ⟨fun hle => by rw [if_neg (BitVec.not_lt.mpr hle)], fun hbelow => ?_⟩
              rw [if_pos (BitVec.not_le.mp hbelow)]
              exact ⟨_, rfl⟩

/-- The address before resolves to the same module exactly when the mapping there has its path and
this is not the first address of the module. -/
theorem resolve_pred_iff (hpc : pc ≠ 0)
    (h : resolveSnapshotModuleAddress snapshot files pc = .ok module) :
    (∃ other, resolveSnapshotModuleAddress snapshot files (pc - 1) = .ok other ∧
        other.modulePath = module.modulePath) ↔
      (snapshot.mappingForAddress (pc - 1)).map (·.path) = some module.modulePath ∧
        module.virtualAddress ≠ 0 := by
  obtain ⟨-, -, bias, hmodule, hle, hvirtual⟩ := resolveSnapshotModuleAddress_ok h
  have hsub := toNat_sub_one hpc
  have hbelow : bias ≤ pc - 1 ↔ module.virtualAddress ≠ 0 := by
    rw [hvirtual, Ne, ← BitVec.toNat_inj, BitVec.toNat_sub_of_le hle]
    rw [BitVec.le_def] at hle ⊢
    have hzero : (0 : Word).toNat = 0 := rfl
    omega
  constructor
  · intro hother
    obtain ⟨other, hother, hpath⟩ := hother
    obtain ⟨hmapping, -⟩ := resolveSnapshotModuleAddress_ok hother
    rw [hpath] at hmapping
    refine ⟨hmapping, hbelow.mp ?_⟩
    by_contra hnot
    obtain ⟨mapping, hmapping, hpath'⟩ := Option.map_eq_some_iff.mp hmapping
    obtain ⟨e, herror⟩ := (hmodule _ mapping hmapping hpath').2 hnot
    rw [herror] at hother
    cases hother
  · intro hcond
    obtain ⟨hmapping, hnonzero⟩ := hcond
    obtain ⟨mapping, hmapping, hpath⟩ := Option.map_eq_some_iff.mp hmapping
    exact ⟨_, (hmodule _ mapping hmapping hpath).1 (hbelow.mpr hnonzero), rfl⟩

theorem resolve_pred_eq (h : resolveSnapshotModuleAddress snapshot files pc = .ok module)
    (h' : resolveSnapshotModuleAddress snapshot files (pc - 1) = .ok module')
    (hpath : module'.modulePath = module.modulePath) :
    module' = { module with virtualAddress := module.virtualAddress - 1 } := by
  obtain ⟨-, -, bias, hmodule, hle, hvirtual⟩ := resolveSnapshotModuleAddress_ok h
  obtain ⟨hmapping, -⟩ := resolveSnapshotModuleAddress_ok h'
  rw [hpath] at hmapping
  obtain ⟨mapping, hmapping, hpath'⟩ := Option.map_eq_some_iff.mp hmapping
  have hbias : bias ≤ pc - 1 := by
    by_contra hnot
    obtain ⟨e, herror⟩ := (hmodule _ mapping hmapping hpath').2 hnot
    rw [herror] at h'
    cases h'
  rw [(hmodule _ mapping hmapping hpath').1 hbias] at h'
  cases h'
  rw [hvirtual]
  have hshift : pc - 1 - bias = pc - bias - 1 := by
    rw [BitVec.sub_eq_add_neg, BitVec.sub_eq_add_neg, BitVec.sub_eq_add_neg, BitVec.sub_eq_add_neg,
      BitVec.add_assoc, BitVec.add_assoc, BitVec.add_comm (-1)]
  rw [hshift]

end Modules

/-! ## Rows -/

/-- The row of a return address spans the call before it. -/
structure RowSpansCall (snapshot : CoreSnapshot) (files : Files) (pc : Word)
    (module : SnapshotModuleAddress) (cfi : EhFrame) (row : CfiRow) : Prop where
  resolves : resolveSnapshotModuleAddress snapshot files pc = .ok module
  loads : files.ehFrame module.moduleFilePath = .ok cfi
  covers : findRow cfi.section_ cfi.sectionVirtualAddress module.virtualAddress = .ok (some row)
  /-- The pc is in no signal trampoline. -/
  plain : (files.signalIndex module.moduleFilePath >>= fun index =>
    index.isSignalFrame module.virtualAddress) = .ok false
  /-- The call lies in the same module. -/
  mapped : (snapshot.mappingForAddress (pc - 1)).map (·.path) = some module.modulePath
  /-- The row begins before the return address. -/
  begun : row.location < module.virtualAddress
  /-- No FDE that is searched before ends at the return address. -/
  apart : ∃ ranges, fdesBefore cfi.section_ cfi.sectionVirtualAddress row.fde.entry ∅ 0 =
    .ok ranges ∧ ∀ range ∈ ranges, ¬EndsAt range module.virtualAddress

section Rows

variable {snapshot : CoreSnapshot} {files : Files} {pc : Word}
  {module : SnapshotModuleAddress} {cfi : EhFrame} {row : CfiRow}

theorem coveringRow_pred_iff (hpc : pc ≠ 0)
    (hmodule : resolveSnapshotModuleAddress snapshot files pc = .ok module)
    (hcfi : files.ehFrame module.moduleFilePath = .ok cfi) (havailable : cfi.available = true)
    (hrow : findRow cfi.section_ cfi.sectionVirtualAddress module.virtualAddress =
      .ok (some row)) :
    coveringRow snapshot files (pc - 1) = .ok (some (module.modulePath, row)) ↔
      (snapshot.mappingForAddress (pc - 1)).map (·.path) = some module.modulePath ∧
        row.location < module.virtualAddress ∧
        ∃ ranges, fdesBefore cfi.section_ cfi.sectionVirtualAddress row.fde.entry ∅ 0 =
          .ok ranges ∧ ∀ range ∈ ranges, ¬EndsAt range module.virtualAddress := by
  constructor
  · intro h
    obtain ⟨other, hother, h⟩ := except_bind_ok h
    obtain ⟨cfi', hcfi', h⟩ := except_bind_ok h
    split at h
    case isTrue => cases h
    case isFalse =>
      obtain ⟨found, hfound, h⟩ := except_bind_ok h
      obtain ⟨row', hrow', hpair⟩ := Option.map_eq_some_iff.mp (Except.ok.inj h)
      have hpath : other.modulePath = module.modulePath := congrArg Prod.fst hpair
      have hsame : row' = row := congrArg Prod.snd hpair
      subst hrow'
      rw [hsame] at hfound
      obtain ⟨hmapped, hnonzero⟩ := (resolve_pred_iff hpc hmodule).mp ⟨other, hother, hpath⟩
      have hpred := resolve_pred_eq hmodule hother hpath
      subst hpred
      dsimp only at hcfi' hfound
      rw [hcfi] at hcfi'
      cases hcfi'
      obtain ⟨ranges, hranges, hiff⟩ := findRow_pred_iff hnonzero hrow
      obtain ⟨hbegun, hapart⟩ := hiff.mp hfound
      exact ⟨hmapped, hbegun, ranges, hranges, hapart⟩
  · intro h
    obtain ⟨hmapped, hbegun, ranges, hranges, hapart⟩ := h
    have hnonzero : module.virtualAddress ≠ 0 := by
      intro hzero
      rw [hzero, BitVec.lt_def] at hbegun
      exact absurd hbegun (Nat.not_lt_zero _)
    obtain ⟨other, hother, hpath⟩ := (resolve_pred_iff hpc hmodule).mpr ⟨hmapped, hnonzero⟩
    have hpred := resolve_pred_eq hmodule hother hpath
    subst hpred
    obtain ⟨ranges', hranges', hiff⟩ := findRow_pred_iff hnonzero hrow
    rw [hranges] at hranges'
    cases hranges'
    unfold coveringRow
    rw [hother]
    dsimp only [Bind.bind, Except.bind]
    rw [hcfi]
    dsimp only
    rw [havailable, if_neg (by simp), hiff.mpr ⟨hbegun, hapart⟩]
    rfl

end Rows

/-! ## Memory that was captured -/

/-- The address lies in the segment. -/
def CoreLoadSegment.Contains (segment : CoreLoadSegment) (address : Nat) : Prop :=
  segment.virtualAddress.toNat ≤ address ∧
    address < segment.virtualAddress.toNat + segment.memorySize.toNat

/-- No address lies in two segments, and offsets into the file do not wrap around. -/
structure CoreSnapshot.Regular (snapshot : CoreSnapshot) : Prop where
  apart : snapshot.loadSegments.Pairwise fun left right =>
    ∀ address, ¬(left.Contains address ∧ right.Contains address)
  small : snapshot.bytes.length ≤ 2 ^ 64

section Captured

variable {snapshot : CoreSnapshot} {files : Files} {artifact : String → Option (List Byte)}
  {start stop : Word} {length : Nat} {bytes : List Byte} {segments : List CoreLoadSegment}

theorem checkedAdd_ok {left right sum : Word} {what : String}
    (h : checkedAdd left right what = .ok sum) : sum.toNat = left.toNat + right.toNat := by
  unfold checkedAdd at h
  split at h
  case isTrue => cases h
  case isFalse hroom =>
    cases h
    rw [BitVec.toNat_add]
    omega

/-- A read that succeeds comes from one segment. -/
theorem readSegments_ok (h : snapshot.readSegments start stop length segments = .ok bytes) :
    ∃ segment ∈ segments, segment.virtualAddress ≤ start ∧
      stop.toNat ≤ segment.virtualAddress.toNat + segment.memorySize.toNat := by
  induction segments with
  | nil => cases h
  | cons segment rest ih =>
    obtain ⟨memoryEnd, hend, h⟩ := except_bind_ok h
    have hend := checkedAdd_ok hend
    dsimp only at h
    split at h
    case isTrue =>
      obtain ⟨other, hother, hbounds⟩ := ih h
      exact ⟨other, List.mem_cons_of_mem _ hother, hbounds⟩
    case isFalse hinside =>
      split at h
      case isTrue => cases h
      case isFalse hstop =>
        refine ⟨segment, List.mem_cons_self, ?_, ?_⟩
        · exact BitVec.not_lt.mp fun hlt => hinside (.inl hlt)
        · rw [BitVec.lt_def] at hstop
          omega

/-- Where segments do not overlap, each byte of a read can be read by itself. -/
theorem readSegments_byte
    (hapart : segments.Pairwise fun left right =>
      ∀ address, ¬(left.Contains address ∧ right.Contains address))
    (hsmall : snapshot.bytes.length ≤ 2 ^ 64) (hstop : stop.toNat = start.toNat + length)
    {address next : Word} {k : Nat} (hk : k < length) (haddress : address.toNat = start.toNat + k)
    (hnext : next.toNat = start.toNat + k + 1)
    (h : snapshot.readSegments start stop length segments = .ok bytes) :
    ∃ byte, bytes[k]? = some byte ∧
      snapshot.readSegments address next 1 segments = .ok [byte] := by
  induction segments with
  | nil => cases h
  | cons segment rest ih =>
    obtain ⟨hsegment, hrest⟩ := List.pairwise_cons.mp hapart
    obtain ⟨memoryEnd, hend, h⟩ := except_bind_ok h
    have hmemoryEnd := checkedAdd_ok hend
    unfold CoreSnapshot.readSegments
    rw [hend]
    dsimp only [Bind.bind, Except.bind]
    dsimp only at h
    split at h
    case isTrue houtside =>
      -- the segment that is read contains the byte, so this one does not
      obtain ⟨other, hother, hstart, hwithin⟩ := readSegments_ok h
      have hskip : address < segment.virtualAddress ∨ memoryEnd ≤ address := by
        by_contra hinside
        rw [BitVec.lt_def, BitVec.le_def] at hinside
        rw [BitVec.le_def] at hstart
        refine hsegment other hother address.toNat ⟨⟨?_, ?_⟩, ?_, ?_⟩
        all_goals omega
      rw [if_pos hskip]
      exact ih hrest h
    case isFalse hinside =>
      split at h
      case isTrue => cases h
      case isFalse hfits =>
        obtain ⟨capturedEnd, hcaptured, h⟩ := except_bind_ok h
        split at h
        case isTrue => cases h
        case isFalse hcapturedEnd =>
          obtain ⟨fileOffset, hoffset, h⟩ := except_bind_ok h
          have hfileOffset := checkedAdd_ok hoffset
          split at h
          case isTrue => cases h
          case isFalse hlength =>
            cases h
            rw [BitVec.lt_def, BitVec.le_def] at hinside
            rw [BitVec.lt_def] at hfits hcapturedEnd
            have hbelow : segment.virtualAddress ≤ start := by
              rw [BitVec.le_def]
              omega
            have hbelow' : segment.virtualAddress ≤ address := by
              rw [BitVec.le_def]
              omega
            rw [BitVec.toNat_sub_of_le hbelow] at hfileOffset
            have hbyte : fileOffset.toNat + k < snapshot.bytes.length := by omega
            have hadd : checkedAdd segment.fileOffset (address - segment.virtualAddress)
                "core memory file offset" = .ok (fileOffset + BitVec.ofNat 64 k) := by
              unfold checkedAdd
              rw [BitVec.toNat_sub_of_le hbelow', if_neg (by omega)]
              refine congrArg Except.ok (BitVec.eq_of_toNat_eq ?_)
              rw [BitVec.toNat_add, BitVec.toNat_add, BitVec.toNat_sub_of_le hbelow',
                BitVec.toNat_ofNat]
              omega
            have hvalue : (fileOffset + BitVec.ofNat 64 k).toNat = fileOffset.toNat + k := by
              rw [BitVec.toNat_add, BitVec.toNat_ofNat]
              omega
            refine ⟨snapshot.bytes[fileOffset.toNat + k], ?_, ?_⟩
            · rw [List.getElem?_take_of_lt hk, List.getElem?_drop,
                List.getElem?_eq_getElem hbyte]
            · rw [if_neg (by rw [BitVec.lt_def, BitVec.le_def]; omega),
                if_neg (by rw [BitVec.lt_def]; omega), hcaptured]
              dsimp only
              rw [if_neg (by rw [BitVec.lt_def]; omega), hadd]
              dsimp only
              rw [if_neg (by omega), hvalue, List.drop_eq_getElem_cons hbyte]
              rfl

theorem length_of_readSegments (h : snapshot.readSegments start stop length segments = .ok bytes) :
    bytes.length = length := by
  induction segments with
  | nil => cases h
  | cons segment rest ih =>
    obtain ⟨memoryEnd, -, h⟩ := except_bind_ok h
    dsimp only at h
    split at h
    case isTrue => exact ih h
    case isFalse =>
      split at h
      case isTrue => cases h
      case isFalse =>
        obtain ⟨capturedEnd, -, h⟩ := except_bind_ok h
        split at h
        case isTrue => cases h
        case isFalse =>
          obtain ⟨fileOffset, -, h⟩ := except_bind_ok h
          split at h
          case isTrue => cases h
          case isFalse hlength =>
            cases h
            rw [List.length_take, List.length_drop]
            omega

theorem readMemory_ok (hpositive : length ≠ 0) (hlength : length ≤ 4096)
    (h : snapshot.readMemory start length = .ok bytes) :
    ∃ stop, stop.toNat = start.toNat + length ∧
      snapshot.readSegments start stop length snapshot.loadSegments = .ok bytes := by
  unfold CoreSnapshot.readMemory at h
  rw [if_neg hpositive] at h
  obtain ⟨stop, hstop, h⟩ := except_bind_ok h
  refine ⟨stop, ?_, h⟩
  rw [checkedAdd_ok hstop, BitVec.toNat_ofNat]
  omega

/-- What `read_memory` reads in one piece was captured byte by byte. -/
theorem capturedByte_of_readMemory (hregular : snapshot.Regular) (hlength : length ≤ 4096)
    (h : snapshot.readMemory start length = .ok bytes) {k : Nat} (hk : k < length) :
    snapshot.capturedByte (start + BitVec.ofNat 64 k) = .ok (some (bytes.getD k 0)) := by
  obtain ⟨stop, hstop, h⟩ := readMemory_ok (by omega) hlength h
  have hbound := stop.isLt
  have haddress : (start + BitVec.ofNat 64 k).toNat = start.toNat + k := by
    rw [BitVec.toNat_add, BitVec.toNat_ofNat]
    omega
  have hone : (BitVec.ofNat 64 1).toNat = 1 := rfl
  have hnext : checkedAdd (start + BitVec.ofNat 64 k) (BitVec.ofNat 64 1)
      "core memory read range" = .ok (start + BitVec.ofNat 64 k + BitVec.ofNat 64 1) := by
    unfold checkedAdd
    rw [haddress, hone, if_neg (by omega)]
    rfl
  have hnextValue := checkedAdd_ok hnext
  rw [haddress, hone] at hnextValue
  obtain ⟨byte, hbyte, hread⟩ := readSegments_byte hregular.apart hregular.small hstop hk haddress
    hnextValue h
  have hone : snapshot.readMemory (start + BitVec.ofNat 64 k) 1 = .ok [byte] := by
    unfold CoreSnapshot.readMemory
    rw [if_neg (by omega)]
    dsimp only [Bind.bind, Except.bind]
    rw [hnext]
    exact hread
  unfold CoreSnapshot.capturedByte
  rw [hone, List.getD_eq_getElem?_getD, hbyte]
  rfl

theorem mapM_eq_ok {α β : Type} {f : α → Except Exception β} {g : α → β} {l : List α}
    (h : ∀ a ∈ l, f a = .ok (g a)) : l.mapM f = .ok (l.map g) := by
  induction l with
  | nil => rfl
  | cons a l ih =>
    rw [List.mapM_cons, h a List.mem_cons_self, ih fun b hb => h b (List.mem_cons_of_mem _ hb)]
    rfl

/-- A read that succeeds reads the same through `read_snapshot_memory`. -/
theorem frameBaseMemory_of_readMemory (hregular : snapshot.Regular) (hpositive : length ≠ 0)
    (hlength : length ≤ 4096) (h : snapshot.readMemory start length = .ok bytes) :
    frameBaseMemory snapshot files artifact start length = .ok bytes := by
  obtain ⟨stop, hstop, hsegments⟩ := readMemory_ok hpositive hlength h
  have hbound := stop.isLt
  have hcount := length_of_readSegments hsegments
  have hbytes : (List.range length).mapM (fun index =>
      snapshot.capturedByte (start + BitVec.ofNat 64 index)) =
        .ok ((List.range length).map fun index => some (bytes.getD index 0)) :=
    mapM_eq_ok fun index hindex =>
      capturedByte_of_readMemory hregular hlength h (List.mem_range.mp hindex)
  have hall : ((List.range length).map fun index => some (bytes.getD index 0)).all
      (·.isSome) = true := by simp
  have hsame : ((List.range length).map fun index => some (bytes.getD index 0)).map
      (·.getD 0) = bytes := by
    refine List.ext_getElem (by simp [hcount]) fun k hk hk' => ?_
    simp [List.getD_eq_getElem?_getD, List.getElem?_eq_getElem hk']
  unfold frameBaseMemory readSnapshotMemory
  rw [if_neg hpositive, if_neg (by omega), if_neg (by omega), hbytes]
  dsimp only [Bind.bind, Except.bind]
  rw [if_pos hall]
  exact congrArg Except.ok hsame

/-- In a regular core the slots that were unwound can be read again. -/
theorem slotsReadable_frameBaseMemory {row : CfiRow} {cfa : Word} (hregular : snapshot.Regular)
    (h : SlotsReadable snapshot.readMemory row cfa) :
    SlotsReadable (frameBaseMemory snapshot files artifact) row cfa := by
  have hslot {slot value : Word} (hread : (snapshot.readMemory slot 8 >>= readU64) = .ok value) :
      (frameBaseMemory snapshot files artifact slot 8 >>= readU64) = .ok value := by
    obtain ⟨bytes, hbytes, hvalue⟩ := except_bind_ok hread
    rw [frameBaseMemory_of_readMemory hregular (by decide) (by decide) hbytes]
    exact hvalue
  refine ⟨fun slot hfound => ?_, fun slot hfound => ?_, fun slot hfound => ?_⟩
  · obtain ⟨value, hread, hzero⟩ := h.returnAddress slot hfound
    exact ⟨value, hslot hread, hzero⟩
  · obtain ⟨value, hread⟩ := h.framePointer slot hfound
    exact ⟨value, hslot hread⟩
  · obtain ⟨value, hread⟩ := h.rbx slot hfound
    exact ⟨value, hslot hread⟩

end Captured

/-! ## Frames and their callers -/

/-- The frame is unwound with the row of its call, and its frame base is the stack pointer of the
caller. -/
structure OwnedByCall (snapshot : CoreSnapshot) (files : Files)
    (artifact : String → Option (List Byte)) (frame caller : SnapshotInspectionFrameContext) :
    Prop where
  row : ∃ row, unwindRow snapshot files frame.runtimePc = .ok (some row) ∧
    coveringRow snapshot files (frame.runtimePc - 1) = .ok (some row)
  frameBase : ∀ subprogram frameBase, Die.attribute subprogram kDwAtFrameBase = some frameBase →
    frameBase.form = kDwFormExprloc → frameBase.expression = [kDwOpCallFrameCfa] →
    localFrameBase subprogram snapshot frame files artifact = .ok caller.stackPointer

section Frames

variable {snapshot : CoreSnapshot} {files : Files} {artifact : String → Option (List Byte)}
  {frame caller : SnapshotInspectionFrameContext}

/-- What a frame with a return address and its caller have in common. -/
structure UnwoundBy (snapshot : CoreSnapshot) (files : Files)
    (frame caller : SnapshotInspectionFrameContext) (module : SnapshotModuleAddress)
    (cfi : EhFrame) (row : CfiRow) : Prop where
  resolves : resolveSnapshotModuleAddress snapshot files frame.runtimePc = .ok module
  loads : files.ehFrame module.moduleFilePath = .ok cfi
  available : cfi.available = true
  plain : (files.signalIndex module.moduleFilePath >>= fun index =>
    index.isSignalFrame module.virtualAddress) = .ok false
  covers : findRow cfi.section_ cfi.sectionVirtualAddress module.virtualAddress = .ok (some row)
  called : callerOfRow snapshot.readMemory frame.cursor row = .ok caller.cursor

/-- A frame is unwound with a row or lies in a signal trampoline. -/
theorem Recovered.cases (h : Recovered snapshot files frame caller) :
    (∃ module cfi row, UnwoundBy snapshot files frame caller module cfi row) ∨
      ∃ module, resolveSnapshotModuleAddress snapshot files frame.runtimePc = .ok module ∧
        (files.signalIndex module.moduleFilePath >>= fun index =>
          index.isSignalFrame module.virtualAddress) = .ok true := by
  obtain ⟨recovered, hcall, hcursor, -⟩ := h
  obtain ⟨module, cfi, index, hmodule, hcfi, havailable, hindex, hcases⟩ := snapshotCaller_ok hcall
  obtain ⟨hsignal, -⟩ | ⟨hsignal, -, row, hrow, hcaller⟩ := hcases
  · refine .inr ⟨module, hmodule, ?_⟩
    rw [hindex]
    exact hsignal
  · refine .inl ⟨module, cfi, row, hmodule, hcfi, havailable, ?_, hrow, ?_⟩
    · rw [hindex]
      exact hsignal
    · rw [hcursor]
      exact hcaller

theorem unwindRow_of_signal {pc : Word} {module : SnapshotModuleAddress}
    (hmodule : resolveSnapshotModuleAddress snapshot files pc = .ok module)
    (hsignal : (files.signalIndex module.moduleFilePath >>= fun index =>
      index.isSignalFrame module.virtualAddress) = .ok true) :
    unwindRow snapshot files pc = .ok none := by
  obtain ⟨index, hindex, hsignal⟩ := except_bind_ok hsignal
  unfold unwindRow
  rw [hmodule]
  dsimp only [Bind.bind, Except.bind]
  rw [hindex]
  dsimp only
  rw [hsignal]
  rfl

variable {module : SnapshotModuleAddress} {cfi : EhFrame} {row : CfiRow}

theorem UnwoundBy.unwindRow (h : UnwoundBy snapshot files frame caller module cfi row) :
    unwindRow snapshot files frame.runtimePc = .ok (some (module.modulePath, row)) := by
  obtain ⟨index, hindex, hsignal⟩ := except_bind_ok h.plain
  unfold MiniDebugger.unwindRow coveringRow
  rw [h.resolves]
  dsimp only [Bind.bind, Except.bind]
  rw [hindex]
  dsimp only
  rw [hsignal]
  dsimp only
  rw [if_neg (by simp), h.loads]
  dsimp only
  rw [h.available, if_neg (by simp), h.covers]
  rfl

/-- The CFA of the row is the stack pointer of the caller. -/
theorem UnwoundBy.cfa (h : UnwoundBy snapshot files frame caller module cfi row) :
    row.cfa (cursorRegister frame.cursor) = .ok caller.stackPointer := by
  obtain ⟨evaluated, hframe, -, -, hcfa, -⟩ := callerOfRow_ok h.called
  obtain ⟨-, hrow, -⟩ := frameOfRow_ok_iff.mp hframe
  rw [hrow, ← hcfa]
  rfl

/-- Where the row covers the call, the frame base is the CFA exactly when its slots can be read. -/
theorem UnwoundBy.frameBase_iff (h : UnwoundBy snapshot files frame caller module cfi row)
    (hmade : FrameMade snapshot frame) (howned : frame.pcOwnership = .returnAddress)
    (hrow : coveringRow snapshot files (frame.runtimePc - 1) =
      .ok (some (module.modulePath, row))) {subprogram : Die} {frameBase : AttributeValue}
    (hattribute : subprogram.attribute kDwAtFrameBase = some frameBase)
    (hform : frameBase.form = kDwFormExprloc)
    (hexpression : frameBase.expression = [kDwOpCallFrameCfa]) :
    localFrameBase subprogram snapshot frame files artifact = .ok caller.stackPointer ↔
      SlotsReadable (frameBaseMemory snapshot files artifact) row caller.stackPointer := by
  obtain ⟨other, hother, hrow⟩ := except_bind_ok hrow
  obtain ⟨cfi', hcfi', hrow⟩ := except_bind_ok hrow
  split at hrow
  case isTrue => cases hrow
  case isFalse havailable =>
    have havailable : cfi'.available = true := by simpa using havailable
    obtain ⟨found, hfound, hrow⟩ := except_bind_ok hrow
    obtain ⟨row', hrow', hpair⟩ := Option.map_eq_some_iff.mp (Except.ok.inj hrow)
    have hpath : other.modulePath = module.modulePath := congrArg Prod.fst hpair
    have hsame : row' = row := congrArg Prod.snd hpair
    subst hrow' hsame
    obtain ⟨-, hname, -⟩ := resolveSnapshotModuleAddress_ok h.resolves
    have hframePath : other.modulePath = frame.modulePath := by
      rw [hpath]
      exact Except.ok.inj (hname.symm.trans hmade.path)
    have hlocal : localFrameBase subprogram snapshot frame files artifact = (do
        let caller ← callerOfRow (frameBaseMemory snapshot files artifact) frame.cursor row'
        return caller.stackPointer) := by
      unfold localFrameBase snapshotFrameLookupPc snapshotFrameBase
      rw [if_neg (by rw [howned]; simp), if_neg (hmade.nonzero howned)]
      dsimp only [Bind.bind, Except.bind, pure, Except.pure]
      rw [hother]
      dsimp only
      rw [if_neg (by simp [hframePath]), hattribute]
      dsimp only
      rw [hexpression]
      dsimp only
      rw [if_neg (by simp [hform]), if_neg (by decide), if_neg (by simp), hcfi']
      dsimp only
      rw [havailable, if_neg (by simp), callerFrame_eq havailable, hfound]
      dsimp only [Bind.bind, Except.bind, pure, Except.pure]
      cases callerOfRow (frameBaseMemory snapshot files artifact) frame.cursor row' with
      | error e => rfl
      | ok caller => rfl
    have hcfa : caller.cursor.stackPointer = caller.stackPointer := rfl
    rw [hlocal, ← hcfa, ← callerOfRow_ok_iff h.called]
    constructor
    · intro hbase
      obtain ⟨caller', hcaller', hbase⟩ := except_bind_ok hbase
      exact ⟨caller', hcaller', Except.ok.inj hbase⟩
    · intro hbase
      obtain ⟨caller', hcaller', hbase⟩ := hbase
      rw [hcaller']
      exact congrArg Except.ok hbase

/-- A frame with a return address that the trace goes on from belongs to its call exactly when its
row spans the call and the slots of the row can be read again. -/
theorem ownedByCall_iff (hrecovered : Recovered snapshot files frame caller)
    (hmade : FrameMade snapshot frame) (howned : frame.pcOwnership = .returnAddress) :
    OwnedByCall snapshot files artifact frame caller ↔
      ∃ module cfi row, RowSpansCall snapshot files frame.runtimePc module cfi row ∧
        ∀ cfa, row.cfa (cursorRegister frame.cursor) = .ok cfa →
          SlotsReadable (frameBaseMemory snapshot files artifact) row cfa := by
  have hpc := hmade.nonzero howned
  obtain ⟨module, cfi, row, hunwound⟩ | ⟨module, hmodule, hsignal⟩ := hrecovered.cases
  · have hcovers := coveringRow_pred_iff hpc hunwound.resolves hunwound.loads hunwound.available
      hunwound.covers
    constructor
    · intro h
      obtain ⟨row', hused, hcall⟩ := h.row
      rw [hunwound.unwindRow] at hused
      cases hused
      obtain ⟨hmapped, hbegun, hapart⟩ := hcovers.mp hcall
      refine ⟨module, cfi, row, ⟨hunwound.resolves, hunwound.loads, hunwound.covers,
        hunwound.plain, hmapped, hbegun, hapart⟩, ?_⟩
      intro cfa hcfa
      rw [hunwound.cfa] at hcfa
      cases hcfa
      let frameBase : AttributeValue :=
        { name := kDwAtFrameBase, form := kDwFormExprloc, expression := [kDwOpCallFrameCfa] }
      let subprogram : Die := { offset := 0, tag := kDwTagSubprogram, attributes := [frameBase] }
      have hattribute : subprogram.attribute kDwAtFrameBase = some frameBase := by decide
      exact (hunwound.frameBase_iff hmade howned hcall hattribute rfl rfl).mp
        (h.frameBase subprogram frameBase hattribute rfl rfl)
    · intro h
      obtain ⟨module', cfi', row', hspans, hslots⟩ := h
      obtain rfl : module' = module :=
        Except.ok.inj (hspans.resolves.symm.trans hunwound.resolves)
      obtain rfl : cfi' = cfi := Except.ok.inj (hspans.loads.symm.trans hunwound.loads)
      obtain rfl : row' = row :=
        Option.some.inj (Except.ok.inj (hspans.covers.symm.trans hunwound.covers))
      have hcall := hcovers.mpr ⟨hspans.mapped, hspans.begun, hspans.apart⟩
      refine ⟨⟨_, hunwound.unwindRow, hcall⟩, ?_⟩
      intro subprogram frameBase hattribute hform hexpression
      exact (hunwound.frameBase_iff hmade howned hcall hattribute hform hexpression).mpr
        (hslots _ hunwound.cfa)
  · constructor
    · intro h
      obtain ⟨row, hused, -⟩ := h.row
      rw [unwindRow_of_signal hmodule hsignal] at hused
      cases hused
    · intro h
      obtain ⟨module', cfi', row', hspans, -⟩ := h
      obtain rfl : module' = module := Except.ok.inj (hspans.resolves.symm.trans hmodule)
      rw [hspans.plain] at hsignal
      cases hsignal

theorem slotsReadable_of_recovered (hregular : snapshot.Regular)
    (hrecovered : Recovered snapshot files frame caller)
    (hspans : RowSpansCall snapshot files frame.runtimePc module cfi row) {cfa : Word}
    (hcfa : row.cfa (cursorRegister frame.cursor) = .ok cfa) :
    SlotsReadable (frameBaseMemory snapshot files artifact) row cfa := by
  obtain ⟨module', cfi', row', hunwound⟩ | ⟨module', hmodule, hsignal⟩ := hrecovered.cases
  · obtain rfl : module' = module :=
      Except.ok.inj (hunwound.resolves.symm.trans hspans.resolves)
    obtain rfl : cfi' = cfi := Except.ok.inj (hunwound.loads.symm.trans hspans.loads)
    obtain rfl : row' = row :=
      Option.some.inj (Except.ok.inj (hunwound.covers.symm.trans hspans.covers))
    obtain rfl : caller.stackPointer = cfa := Except.ok.inj (hunwound.cfa.symm.trans hcfa)
    exact slotsReadable_frameBaseMemory hregular
      ((callerOfRow_ok_iff hunwound.called).mp ⟨_, hunwound.called, rfl⟩)
  · obtain rfl : module' = module := Except.ok.inj (hmodule.symm.trans hspans.resolves)
    rw [hspans.plain] at hsignal
    cases hsignal

/-- In every trace, a frame that owns a return address is unwound with the row of its call, and its
frame base is the stack pointer of the next frame, exactly when the row of the return address spans
the call; where segments overlap, its slots must also be readable byte by byte. -/
theorem return_address_rows {thread : Fin snapshot.threads.length} {maxFrames : Nat}
    {trace : SnapshotInspectionTrace}
    (h : buildSnapshotInspectionFrames snapshot files thread maxFrames = .ok trace) :
    ∀ i frame caller, trace.frames[i]? = some frame → trace.frames[i + 1]? = some caller →
      frame.pcOwnership = .returnAddress →
      (OwnedByCall snapshot files artifact frame caller ↔
        ∃ module cfi row, RowSpansCall snapshot files frame.runtimePc module cfi row ∧
          ∀ cfa, row.cfa (cursorRegister frame.cursor) = .ok cfa →
            SlotsReadable (frameBaseMemory snapshot files artifact) row cfa) ∧
      (snapshot.Regular →
        (OwnedByCall snapshot files artifact frame caller ↔
          ∃ module cfi row, RowSpansCall snapshot files frame.runtimePc module cfi row)) := by
  intro i frame caller hframe hcaller howned
  obtain ⟨hchain, hmade⟩ := trace_recovered h
  have hrecovered : Recovered snapshot files frame caller := by
    obtain ⟨hi, rfl⟩ := List.getElem?_eq_some_iff.mp hframe
    obtain ⟨hi', rfl⟩ := List.getElem?_eq_some_iff.mp hcaller
    exact List.isChain_iff_getElem.mp hchain i hi'
  have hiff : OwnedByCall snapshot files artifact frame caller ↔ _ :=
    ownedByCall_iff hrecovered (hmade frame (List.mem_of_getElem? hframe)) howned
  refine ⟨hiff, fun hregular => hiff.trans ?_⟩
  constructor
  · intro hspans
    obtain ⟨module, cfi, row, hspans, -⟩ := hspans
    exact ⟨module, cfi, row, hspans⟩
  · intro hspans
    obtain ⟨module, cfi, row, hspans⟩ := hspans
    exact ⟨module, cfi, row, hspans, fun cfa hcfa =>
      slotsReadable_of_recovered hregular hrecovered hspans hcfa⟩

end Frames

/-! ## A function with two rows

From `0x1000` to `0x1020` the CFA is `RSP + 16`, and `RSP + 32` behind it. The thread is at `0x1010`, so
that frame 1 has its stack pointer at `0x7010` and the pc that was saved at `0x7008`.
-/

def rowsCfi : EhFrame where
  section_ := [0x14, 0, 0, 0, 0, 0, 0, 0, 1, 0x7a, 0x52, 0, 1, 0x78, 0x10, 1, 0x1b, 0x0c, 7, 0x10,
    0x90, 1, 0, 0, 0x10, 0, 0, 0, 0x1c, 0, 0, 0, 0xe0, 0xef, 0xff, 0xff, 0, 1, 0, 0, 0, 0x60, 0x0e,
    0x20]
  sectionVirtualAddress := 0x2000
  available := true

def rowsElf : ElfFile := ⟨"/bin/rows", "/bin/rows", .exec, 0⟩

def rowsFiles : Files where
  sameFile left right := decide (left = right)
  elf _ := .ok rowsElf
  ehFrame _ := .ok rowsCfi
  signalIndex _ := .ok ⟨rowsCfi.section_, rowsCfi.sectionVirtualAddress, true⟩
  resolve path := .ok path

/-- The return addresses are at `0x7008`, `0x7018` and `0x7028`. -/
def rowsSnapshot (returnAddress : Byte) : CoreSnapshot where
  bytes := [0, 0, 0, 0, 0, 0, 0, 0, returnAddress, 0x10, 0, 0, 0, 0, 0, 0,
    0, 0, 0, 0, 0, 0, 0, 0, 0x18, 0x10, 0, 0, 0, 0, 0, 0,
    0, 0, 0, 0, 0, 0, 0, 0, 0x40, 0x10, 0, 0, 0, 0, 0, 0]
  loadSegments := [⟨0x7000, 0x30, 0, 0x30⟩]
  fileMappings := [⟨0x1000, 0x2000, 0, "/bin/rows"⟩]
  threads := [⟨10, 11, { rip := 0x1010, rsp := 0x7000 }⟩]

def rowsFrame (index : Nat) (pc stackPointer : Word) : SnapshotInspectionFrameContext where
  index := index
  threadTid := 10
  threadSignalNumber := 11
  originRuntimePc := 0x1010
  originStackPointer := 0x7000
  originFramePointer := some 0
  runtimePc := pc
  stackPointer := stackPointer
  framePointer := if index = 0 then some 0 else none
  pcOwnership := if index = 0 then .exactInstruction else .returnAddress
  modulePath := "/bin/rows"
  registers := { rbx := if index = 0 then some 0 else none
                 rbp := if index = 0 then some 0 else none, rsp := some stackPointer }

def rowsSubprogram : Die where
  offset := 0
  tag := kDwTagSubprogram
  attributes := [{ name := kDwAtFrameBase, form := kDwFormExprloc
                   expression := [kDwOpCallFrameCfa] }]

theorem rows_trace {returnAddress : Byte} (h : returnAddress = 0x20 ∨ returnAddress = 0x30) :
    ∃ trace, buildSnapshotInspectionFrames (rowsSnapshot returnAddress) rowsFiles
        ⟨0, Nat.one_pos⟩ 64 = .ok trace ∧
      trace.frames = [rowsFrame 0 0x1010 0x7000,
        rowsFrame 1 (0x1000 + returnAddress.setWidth 64) 0x7010, rowsFrame 2 0x1040 0x7030] := by
  have hframes : (buildSnapshotInspectionFrames (rowsSnapshot returnAddress) rowsFiles
      ⟨0, Nat.one_pos⟩ 64).toOption.map (·.frames) = some [rowsFrame 0 0x1010 0x7000,
        rowsFrame 1 (0x1000 + returnAddress.setWidth 64) 0x7010, rowsFrame 2 0x1040 0x7030] := by
    obtain rfl | rfl := h
    · decide +kernel
    · decide +kernel
  obtain ⟨trace, htrace, hframes⟩ := Option.map_eq_some_iff.mp hframes
  refine ⟨trace, ?_, hframes⟩
  generalize buildSnapshotInspectionFrames _ _ _ _ = result at htrace
  cases result with
  | error e => cases htrace
  | ok other =>
    cases htrace
    rfl

theorem rows_regular (returnAddress : Byte) : (rowsSnapshot returnAddress).Regular where
  apart := List.pairwise_singleton _ _
  small := by simp only [rowsSnapshot, List.length_cons, List.length_nil]; omega

/-- The second row begins at `0x1020`, in the only FDE. -/
theorem rows_second {target : Word} (h : target = 0x1020 ∨ target = 0x1030) :
    ∃ row, findRow rowsCfi.section_ rowsCfi.sectionVirtualAddress target = .ok (some row) ∧
      row.location = 0x1020 ∧ row.fde.entry = 0x18 := by
  have hrow : (findRow rowsCfi.section_ rowsCfi.sectionVirtualAddress target).toOption.join.map
      (fun row => (row.location, row.fde.entry)) = some (0x1020, 0x18) := by
    obtain rfl | rfl := h
    · decide +kernel
    · decide +kernel
  obtain ⟨row, hfound, hpair⟩ := Option.map_eq_some_iff.mp hrow
  obtain ⟨hlocation, hentry⟩ := Prod.mk.inj hpair
  generalize findRow _ _ _ = result at hfound
  match result, hfound with
  | .ok (some _), rfl => exact ⟨row, rfl, hlocation, hentry⟩

/-- A return address inside the second row. -/
theorem return_address_rows_inside :
    ∃ trace, buildSnapshotInspectionFrames (rowsSnapshot 0x30) rowsFiles ⟨0, Nat.one_pos⟩ 64 =
        .ok trace ∧
      OwnedByCall (rowsSnapshot 0x30) rowsFiles (fun _ => none) (rowsFrame 1 0x1030 0x7010)
        (rowsFrame 2 0x1040 0x7030) := by
  obtain ⟨trace, htrace, hframes⟩ := rows_trace (.inr rfl)
  obtain ⟨row, hrow, hlocation, hentry⟩ := rows_second (.inr rfl)
  refine ⟨trace, htrace, ?_⟩
  refine ((return_address_rows htrace 1 _ _ (by rw [hframes]; rfl) (by rw [hframes]; rfl) rfl).2
    (rows_regular 0x30)).mpr ⟨⟨"/bin/rows", "/bin/rows", 0x1030⟩, rowsCfi, row, ?_⟩
  have hranges : fdesBefore rowsCfi.section_ rowsCfi.sectionVirtualAddress row.fde.entry ∅ 0 =
      .ok [] := by
    rw [hentry]
    decide +kernel
  refine ⟨by decide +kernel, rfl, hrow, by decide +kernel, by decide +kernel, ?_, [], hranges, ?_⟩
  · rw [hlocation]
    decide
  · simp

/-- A return address at which the second row begins: the frame is unwound with that row, and the
frame base is the CFA of the row before. -/
theorem return_address_row_begins_there :
    ∃ trace frame caller, buildSnapshotInspectionFrames (rowsSnapshot 0x20) rowsFiles
        ⟨0, Nat.one_pos⟩ 64 = .ok trace ∧
      trace.frames[1]? = some frame ∧ trace.frames[2]? = some caller ∧
      frame.pcOwnership = .returnAddress ∧ caller.stackPointer = 0x7030 ∧
      localFrameBase rowsSubprogram (rowsSnapshot 0x20) frame rowsFiles (fun _ => none) =
        .ok 0x7020 ∧
      ¬OwnedByCall (rowsSnapshot 0x20) rowsFiles (fun _ => none) frame caller := by
  obtain ⟨trace, htrace, hframes⟩ := rows_trace (.inl rfl)
  have hbase : localFrameBase rowsSubprogram (rowsSnapshot 0x20) (rowsFrame 1 0x1020 0x7010)
      rowsFiles (fun _ => none) = .ok 0x7020 := by decide +kernel
  refine ⟨trace, rowsFrame 1 0x1020 0x7010, rowsFrame 2 0x1040 0x7030, htrace,
    by rw [hframes]; rfl, by rw [hframes]; rfl, rfl, rfl, hbase, fun howned => ?_⟩
  have hcfa := howned.frameBase rowsSubprogram _ rfl rfl rfl
  rw [hbase] at hcfa
  exact absurd (Except.ok.inj hcfa) (by decide)

end MiniDebugger
