import MiniDebugger.Unwind.Snapshot

/-!
# How far the unwinders get

A chain of cursors is what repeated caller recovery yields: it starts with the registers of the
stopped thread, its stack pointers grow, its callers lie in file-backed modules and no caller is
recovered for its last cursor. The three unwinders return such a chain up to their frame limit
exactly when no two neighbouring cursors they would return have the same instruction pointer.
Direct recursion has such neighbours.
-/

namespace MiniDebugger

/-- The stack grows from each cursor to its caller. -/
def Growing (cursors : List EhFrameCursor) : Prop :=
  cursors.IsChain fun current caller => current.stackPointer < caller.stackPointer

/-- No cursor has the instruction pointer of its caller. -/
def Moving (cursors : List EhFrameCursor) : Prop :=
  cursors.IsChain fun current caller => current.instructionPointer ≠ caller.instructionPointer

/-- Caller recovery in a stopped tracee leads through `callers` and then ends. -/
structure LiveChain (tracee : Tracee) (files : Files) (preferred : Preferred)
    (callers : List (EhFrameCursor × ModuleCache)) : Prop where
  stopped : tracee.state = .stopped
  chain : Chain (liveStep tracee files preferred) (tracee.registers.cursor, []) callers
  growing : Growing (tracee.registers.cursor :: callers.map (·.1))
  backed : ∀ caller ∈ callers, tracee.Backed caller.1.instructionPointer

/-- Caller recovery in a thread of a core leads through `callers` and then ends. -/
structure CoreChain (snapshot : CoreSnapshot) (files : Files)
    (thread : Fin snapshot.threads.length) (callers : List EhFrameCursor) : Prop where
  owned : snapshot.checkOwner thread = .ok ()
  chain : Chain (snapshotStep snapshot files) (snapshot.threads.get thread).registers.cursor
    callers
  growing : Growing ((snapshot.threads.get thread).registers.cursor :: callers)
  backed : ∀ caller ∈ callers, snapshot.Backed files caller.instructionPointer

section Live

variable {tracee : Tracee} {files : Files} {preferred : Preferred} {maxFrames : Nat}
  {callers : List (EhFrameCursor × ModuleCache)}

/-- The frames of `unwindEhFrame` are the start and a walk along its callers. -/
theorem unwindEhFrame_frames (files : Files) (preferred : Preferred) (n : Nat)
    (hstopped : tracee.state = .stopped) :
    ∃ trace, unwindEhFrame tracee files preferred (n + 1) = .ok trace ∧
      trace.frames = .ofCursor tracee.registers.cursor ::
        (walk (liveStep tracee files preferred) (fun s t => s.1.Precedes t.1) n
          (tracee.registers.cursor, [])).map fun s => .ofCursor s.1 := by
  unfold unwindEhFrame
  rw [if_neg n.succ_ne_zero, if_neg (by simp [hstopped])]
  split
  · rename_i hone
    obtain rfl : n = 0 := by omega
    exact ⟨_, rfl, by simp [walk]⟩
  · exact ⟨_, rfl, unwindFrom_frames n (tracee.registers.cursor, []) _⟩

/-- The frames of `buildInspectionFrames` are the start and a walk along its callers. -/
theorem buildInspectionFrames_cursors (files : Files) (preferred : Preferred) (n : Nat)
    (hstopped : tracee.state = .stopped) (hbacked : tracee.Backed tracee.registers.rip) :
    ∃ frames, buildInspectionFrames tracee files preferred (n + 1) = .ok frames ∧
      frames.map (·.cursor) = tracee.registers.cursor ::
        (walk (liveStep tracee files preferred)
          (fun s t => s.1.Precedes t.1 ∧ tracee.Backed t.1.instructionPointer) n
          (tracee.registers.cursor, [])).map (·.1) := by
  cases hmodule : tracee.mappedModulePath tracee.registers.rip with
  | error e => simp [Tracee.Backed, hmodule, Except.toOption] at hbacked
  | ok module =>
    cases module with
    | none => simp [Tracee.Backed, hmodule, Except.toOption] at hbacked
    | some path =>
      have hmaps : tracee.maps.isSome = true := by
        unfold Tracee.mappedModulePath at hmodule
        cases hmaps : tracee.maps with
        | none => rw [hmaps] at hmodule; cases hmodule
        | some lines => rfl
      unfold buildInspectionFrames currentInspectionFrame
      simp only [hmodule, hstopped, n.succ_ne_zero, bind, Except.bind, pure, Except.pure, ne_eq,
        not_true_eq_false, if_false]
      split
      · rename_i hone
        obtain rfl : n = 0 := by omega
        exact ⟨_, rfl, by simp [walk]; rfl⟩
      · obtain ⟨frames, hframes, hcursors⟩ := inspectionFramesFrom_cursors _ hmaps n
          (tracee.registers.cursor, []) _
        refine ⟨frames, hframes, ?_⟩
        rw [hcursors]
        rfl

/-- Frame 0 cannot be made outside a file-backed module. -/
theorem backed_of_buildInspectionFrames {frames : List InspectionFrameContext}
    (h : buildInspectionFrames tracee files preferred maxFrames = .ok frames) :
    tracee.Backed tracee.registers.rip := by
  have hcurrent : ∃ context, currentInspectionFrame tracee = .ok context := by
    cases hcurrent : currentInspectionFrame tracee with
    | ok context => exact ⟨context, rfl⟩
    | error e =>
      simp only [buildInspectionFrames, hcurrent, bind, Except.bind] at h
      split at h <;> cases h
  obtain ⟨context, hcurrent⟩ := hcurrent
  cases hmodule : tracee.mappedModulePath tracee.registers.rip with
  | error e =>
    simp only [currentInspectionFrame, hmodule, bind, Except.bind] at hcurrent
    split at hcurrent <;> cases hcurrent
  | ok module =>
    cases module with
    | some path => simp [Tracee.Backed, hmodule, Except.toOption]
    | none =>
      simp only [currentInspectionFrame, hmodule, bind, Except.bind] at hcurrent
      split at hcurrent <;> cases hcurrent

/-- On a live chain a recovered caller passes the checks exactly when its instruction pointer
differs. -/
theorem LiveChain.precedes_iff (h : LiveChain tracee files preferred callers) :
    ((tracee.registers.cursor, ([] : ModuleCache)) :: callers).IsChain fun s t =>
      s.1.Precedes t.1 ↔ s.1.instructionPointer ≠ t.1.instructionPointer := by
  have hgrowing : ((tracee.registers.cursor, ([] : ModuleCache)) :: callers).IsChain fun s t =>
      s.1.stackPointer < t.1.stackPointer :=
    (List.isChain_cons_map Prod.fst (b := (tracee.registers.cursor, ([] : ModuleCache)))).mp
      h.growing
  exact hgrowing.imp fun s t hst => ⟨fun hprec => hprec.1, fun hne => ⟨hne, hst⟩⟩

theorem LiveChain.accepted_iff (h : LiveChain tracee files preferred callers) :
    ((tracee.registers.cursor, ([] : ModuleCache)) :: callers).IsChain fun s t =>
      (s.1.Precedes t.1 ∧ tracee.Backed t.1.instructionPointer) ↔
        s.1.instructionPointer ≠ t.1.instructionPointer := by
  refine h.precedes_iff.imp_of_mem_tail_imp fun s t _ ht hst => ?_
  have hbacked := h.backed t ht
  rw [and_iff_left hbacked, hst]

/-- The cursors up to the frame limit, as states of the walk. -/
theorem moving_take_iff (n : Nat) (cursor : EhFrameCursor) :
    Moving ((cursor :: callers.map (·.1)).take (n + 1)) ↔
      (((cursor, ([] : ModuleCache)) :: callers).take (n + 1)).IsChain
        fun s t => s.1.instructionPointer ≠ t.1.instructionPointer := by
  rw [Moving, List.take_succ_cons, List.take_succ_cons, ← List.map_take]
  exact List.isChain_cons_map Prod.fst (b := (cursor, ([] : ModuleCache)))

theorem unwindEhFrame_complete_iff (n : Nat) (h : LiveChain tracee files preferred callers) :
    (∃ trace, unwindEhFrame tracee files preferred (n + 1) = .ok trace ∧
      trace.frames = ((tracee.registers.cursor :: callers.map (·.1)).take (n + 1)).map
        .ofCursor) ↔
      Moving ((tracee.registers.cursor :: callers.map (·.1)).take (n + 1)) := by
  obtain ⟨trace, htrace, hframes⟩ := unwindEhFrame_frames files preferred n h.stopped
  rw [moving_take_iff, ← map_walk_eq_iff (fun s => CfiStackFrame.ofCursor s.1) h.chain
    h.precedes_iff n, List.take_succ_cons, List.map_cons, ← List.map_take, List.map_map]
  constructor
  · rintro ⟨trace', htrace', hframes'⟩
    rw [htrace] at htrace'
    cases htrace'
    rw [hframes] at hframes'
    exact (List.cons.inj hframes').2
  · intro hwalk
    exact ⟨trace, htrace, by rw [hframes, hwalk]; rfl⟩

theorem buildInspectionFrames_complete_iff (n : Nat)
    (h : LiveChain tracee files preferred callers) :
    (∃ frames, buildInspectionFrames tracee files preferred (n + 1) = .ok frames ∧
      frames.map (·.cursor) = (tracee.registers.cursor :: callers.map (·.1)).take (n + 1)) ↔
      tracee.Backed tracee.registers.rip ∧
        Moving ((tracee.registers.cursor :: callers.map (·.1)).take (n + 1)) := by
  rw [moving_take_iff, ← map_walk_eq_iff Prod.fst h.chain h.accepted_iff n, List.take_succ_cons,
    ← List.map_take]
  constructor
  · rintro ⟨frames', hframes', hcursors'⟩
    have hbacked := backed_of_buildInspectionFrames hframes'
    obtain ⟨frames, hframes, hcursors⟩ :=
      buildInspectionFrames_cursors files preferred n h.stopped hbacked
    rw [hframes] at hframes'
    cases hframes'
    rw [hcursors] at hcursors'
    exact ⟨hbacked, (List.cons.inj hcursors').2⟩
  · rintro ⟨hbacked, hwalk⟩
    obtain ⟨frames, hframes, hcursors⟩ :=
      buildInspectionFrames_cursors files preferred n h.stopped hbacked
    exact ⟨frames, hframes, by rw [hcursors, hwalk]⟩

end Live

section Core

variable {snapshot : CoreSnapshot} {files : Files} {thread : Fin snapshot.threads.length}
  {callers : List EhFrameCursor}

/-- The code knows the module path of the innermost frame. -/
def CoreSnapshot.Named (snapshot : CoreSnapshot) (address : Word) : Prop :=
  (snapshotFrameModulePath snapshot address).toOption.isSome = true

instance (snapshot : CoreSnapshot) (address : Word) : Decidable (snapshot.Named address) :=
  inferInstanceAs (Decidable (_ = _))

/-- The frames of `buildSnapshotInspectionFrames` are the start and a walk along its callers. -/
theorem buildSnapshotInspectionFrames_cursors (files : Files) (n : Nat)
    (howner : snapshot.checkOwner thread = .ok ())
    (hnamed : snapshot.Named (snapshot.threads.get thread).registers.rip) :
    ∃ trace, buildSnapshotInspectionFrames snapshot files thread (n + 1) = .ok trace ∧
      trace.frames.map (·.cursor) = (snapshot.threads.get thread).registers.cursor ::
        walk (snapshotStep snapshot files)
          (fun s t => s.Precedes t ∧ snapshot.Backed files t.instructionPointer) n
          (snapshot.threads.get thread).registers.cursor := by
  obtain ⟨path, hpath⟩ := Option.isSome_iff_exists.mp hnamed
  have hpath : snapshotFrameModulePath snapshot (snapshot.threads.get thread).registers.rip =
      .ok path := by
    cases hmodule : snapshotFrameModulePath snapshot (snapshot.threads.get thread).registers.rip
    · rw [hmodule] at hpath; cases hpath
    · rw [hmodule] at hpath; cases hpath; rfl
  obtain ⟨frame, hframe, hcursor⟩ := makeSnapshotInspectionFrame_ok howner 0
    ⟨(snapshot.threads.get thread).registers.cursor, none, none, none, none, .exactInstruction⟩
    hpath
  unfold buildSnapshotInspectionFrames
  simp only [n.succ_ne_zero, howner, hframe, bind, Except.bind, pure, Except.pure, if_false]
  split
  · rename_i hone
    obtain rfl : n = 0 := by omega
    exact ⟨_, rfl, by simp [walk, hcursor]⟩
  · obtain ⟨trace, htrace, hcursors⟩ := snapshotFramesFrom_cursors howner n
      (snapshot.threads.get thread).registers.cursor [frame]
    refine ⟨trace, htrace, ?_⟩
    rw [hcursors]
    simp [hcursor]

/-- Frame 0 cannot be made without a module path. -/
theorem named_of_buildSnapshotInspectionFrames {maxFrames : Nat} {trace : SnapshotInspectionTrace}
    (h : buildSnapshotInspectionFrames snapshot files thread maxFrames = .ok trace) :
    snapshot.Named (snapshot.threads.get thread).registers.rip := by
  cases hpath : snapshotFrameModulePath snapshot (snapshot.threads.get thread).registers.rip with
  | ok path =>
    unfold CoreSnapshot.Named
    rw [hpath]
    rfl
  | error e =>
    have hframe : ∃ e', makeSnapshotInspectionFrame snapshot thread 0
        ⟨(snapshot.threads.get thread).registers.cursor, none, none, none, none,
          .exactInstruction⟩ = .error e' := by
      unfold makeSnapshotInspectionFrame
      cases howner : snapshot.checkOwner thread with
      | error e' => exact ⟨e', rfl⟩
      | ok _ => exact ⟨e, by simp only [UserRegs.cursor, hpath, bind, Except.bind]⟩
    obtain ⟨e', hframe⟩ := hframe
    simp only [buildSnapshotInspectionFrames, hframe, bind, Except.bind] at h
    split at h
    · cases h
    · split at h <;> cases h

theorem CoreChain.accepted_iff (h : CoreChain snapshot files thread callers) :
    ((snapshot.threads.get thread).registers.cursor :: callers).IsChain fun s t =>
      (s.Precedes t ∧ snapshot.Backed files t.instructionPointer) ↔
        s.instructionPointer ≠ t.instructionPointer := by
  refine h.growing.imp_of_mem_tail_imp fun s t _ ht hst => ?_
  have hbacked := h.backed t ht
  exact ⟨fun haccepted => haccepted.1.1, fun hne => ⟨⟨hne, hst⟩, hbacked⟩⟩

theorem buildSnapshotInspectionFrames_complete_iff (n : Nat)
    (h : CoreChain snapshot files thread callers) :
    (∃ trace, buildSnapshotInspectionFrames snapshot files thread (n + 1) = .ok trace ∧
      trace.frames.map (·.cursor) =
        ((snapshot.threads.get thread).registers.cursor :: callers).take (n + 1)) ↔
      snapshot.Named (snapshot.threads.get thread).registers.rip ∧
        Moving (((snapshot.threads.get thread).registers.cursor :: callers).take (n + 1)) := by
  have hwalk := map_walk_eq_iff id h.chain h.accepted_iff n
  rw [List.map_id, List.map_id] at hwalk
  rw [Moving, ← hwalk, List.take_succ_cons]
  constructor
  · rintro ⟨trace', htrace', hcursors'⟩
    have hnamed := named_of_buildSnapshotInspectionFrames htrace'
    obtain ⟨trace, htrace, hcursors⟩ :=
      buildSnapshotInspectionFrames_cursors files n h.owned hnamed
    rw [htrace] at htrace'
    cases htrace'
    rw [hcursors] at hcursors'
    exact ⟨hnamed, (List.cons.inj hcursors').2⟩
  · rintro ⟨hnamed, hcallers⟩
    obtain ⟨trace, htrace, hcursors⟩ :=
      buildSnapshotInspectionFrames_cursors files n h.owned hnamed
    exact ⟨trace, htrace, by rw [hcursors, hcallers]⟩

end Core

/-! ## Frame limits -/

theorem length_unwindEhFrame_le {tracee : Tracee} {files : Files} {preferred : Preferred}
    {maxFrames : Nat} {trace : CfiBacktrace}
    (h : unwindEhFrame tracee files preferred maxFrames = .ok trace) :
    trace.frames.length ≤ maxFrames := by
  have hstopped : tracee.state = .stopped := by
    by_contra hrunning
    simp only [unwindEhFrame, ne_eq, hrunning, not_false_eq_true, if_true] at h
    split at h <;> cases h
  cases maxFrames with
  | zero => cases h
  | succ n =>
    obtain ⟨trace', htrace', hframes⟩ := unwindEhFrame_frames files preferred n hstopped
    rw [htrace'] at h
    cases h
    rw [hframes, List.length_cons, List.length_map]
    exact Nat.succ_le_succ (length_walk_le n _)

theorem length_buildInspectionFrames_le {tracee : Tracee} {files : Files} {preferred : Preferred}
    {maxFrames : Nat} {frames : List InspectionFrameContext}
    (h : buildInspectionFrames tracee files preferred maxFrames = .ok frames) :
    frames.length ≤ maxFrames := by
  have hstopped : tracee.state = .stopped := by
    by_contra hrunning
    simp only [buildInspectionFrames, currentInspectionFrame, ne_eq, hrunning, not_false_eq_true,
      if_true, bind, Except.bind] at h
    split at h <;> cases h
  cases maxFrames with
  | zero => cases h
  | succ n =>
    obtain ⟨frames', hframes', hcursors⟩ := buildInspectionFrames_cursors files preferred n hstopped
      (backed_of_buildInspectionFrames h)
    rw [hframes'] at h
    cases h
    have hlength := congrArg List.length hcursors
    rw [List.length_map, List.length_cons, List.length_map] at hlength
    rw [hlength]
    exact Nat.succ_le_succ (length_walk_le n _)

theorem length_buildSnapshotInspectionFrames_le {snapshot : CoreSnapshot} {files : Files}
    {thread : Fin snapshot.threads.length} {maxFrames : Nat} {trace : SnapshotInspectionTrace}
    (h : buildSnapshotInspectionFrames snapshot files thread maxFrames = .ok trace) :
    trace.frames.length ≤ maxFrames := by
  have howner : snapshot.checkOwner thread = .ok () := by
    cases howner : snapshot.checkOwner thread with
    | ok _ => rfl
    | error e =>
      simp only [buildSnapshotInspectionFrames, howner, bind, Except.bind] at h
      split at h <;> cases h
  cases maxFrames with
  | zero => cases h
  | succ n =>
    obtain ⟨trace', htrace', hcursors⟩ := buildSnapshotInspectionFrames_cursors files n howner
      (named_of_buildSnapshotInspectionFrames h)
    rw [htrace'] at h
    cases h
    have hlength := congrArg List.length hcursors
    rw [List.length_map, List.length_cons] at hlength
    rw [hlength]
    exact Nat.succ_le_succ (length_walk_le n _)

/-! ## All three unwinders -/

/-- On every chain of cursors each unwinder returns the cursors up to its frame limit exactly when
none of them has the instruction pointer of the next; the two that build inspection frames also
need a module path for the first. None of them ever exceeds its limit. -/
theorem unwinders_complete_iff (files : Files) :
    (∀ (tracee : Tracee) (preferred : Preferred)
        (callers : List (EhFrameCursor × ModuleCache)) (maxFrames : Nat), 1 ≤ maxFrames →
      LiveChain tracee files preferred callers →
      let cursors := (tracee.registers.cursor :: callers.map (·.1)).take maxFrames
      ((∃ trace, unwindEhFrame tracee files preferred maxFrames = .ok trace ∧
          trace.frames = cursors.map .ofCursor) ↔ Moving cursors) ∧
      ((∃ frames, buildInspectionFrames tracee files preferred maxFrames = .ok frames ∧
          frames.map (·.cursor) = cursors) ↔
        tracee.Backed tracee.registers.rip ∧ Moving cursors)) ∧
    (∀ (snapshot : CoreSnapshot) (thread : Fin snapshot.threads.length)
        (callers : List EhFrameCursor) (maxFrames : Nat), 1 ≤ maxFrames →
      CoreChain snapshot files thread callers →
      let cursors := ((snapshot.threads.get thread).registers.cursor :: callers).take maxFrames
      ((∃ trace, buildSnapshotInspectionFrames snapshot files thread maxFrames = .ok trace ∧
          trace.frames.map (·.cursor) = cursors) ↔
        snapshot.Named (snapshot.threads.get thread).registers.rip ∧ Moving cursors)) ∧
    (∀ tracee preferred maxFrames trace,
      unwindEhFrame tracee files preferred maxFrames = .ok trace →
      trace.frames.length ≤ maxFrames) ∧
    (∀ tracee preferred maxFrames frames,
      buildInspectionFrames tracee files preferred maxFrames = .ok frames →
      frames.length ≤ maxFrames) ∧
    (∀ snapshot thread maxFrames trace,
      buildSnapshotInspectionFrames snapshot files thread maxFrames = .ok trace →
      trace.frames.length ≤ maxFrames) := by
  refine ⟨?_, ?_, fun _ _ _ _ => length_unwindEhFrame_le,
    fun _ _ _ _ => length_buildInspectionFrames_le,
    fun _ _ _ _ => length_buildSnapshotInspectionFrames_le⟩
  · intro tracee preferred callers maxFrames hmax h
    obtain ⟨n, rfl⟩ := Nat.exists_eq_add_of_le' hmax
    exact ⟨unwindEhFrame_complete_iff n h, buildInspectionFrames_complete_iff n h⟩
  · intro snapshot thread callers maxFrames hmax h
    obtain ⟨n, rfl⟩ := Nat.exists_eq_add_of_le' hmax
    exact buildSnapshotInspectionFrames_complete_iff n h

/-! ## A call and a recursive call

One function at `0x1000` with sixteen bytes of stack, called from `returnAddress`; the frame of its
caller has no readable return address.
-/

/-- A CIE and an FDE for `0x1000` to `0x1100`: the CFA is `RSP + 16`, the return address below it. -/
def callCfi : EhFrame where
  section_ := [0x14, 0, 0, 0, 0, 0, 0, 0, 1, 0x7a, 0x52, 0, 1, 0x78, 0x10, 1, 0x1b, 0x0c, 7, 0x10,
    0x90, 1, 0, 0, 0x10, 0, 0, 0, 0x1c, 0, 0, 0, 0xe0, 0xef, 0xff, 0xff, 0, 1, 0, 0, 0, 0, 0, 0]
  sectionVirtualAddress := 0x2000
  available := true

def callElf : ElfFile := ⟨"/bin/call", "/bin/call", .exec, 0⟩

def callFiles : Files where
  sameFile left right := decide (left = right)
  elf _ := .ok callElf
  ehFrame _ := .ok callCfi
  signalIndex _ := .ok ⟨callCfi.section_, callCfi.sectionVirtualAddress, true⟩
  resolve path := .ok path

/-- The stack of the call, at `0x7000`. -/
def callStack (returnAddress : Byte) : List Byte :=
  [0, 0, 0, 0, 0, 0, 0, 0, returnAddress, 0x10, 0, 0, 0, 0, 0, 0]

def callRegisters : UserRegs := { rip := 0x1010, rsp := 0x7000 }

def callSnapshot (returnAddress : Byte) : CoreSnapshot where
  bytes := callStack returnAddress
  loadSegments := [⟨0x7000, 0x10, 0, 0x10⟩]
  fileMappings := [⟨0x1000, 0x2000, 0, "/bin/call"⟩]
  threads := [⟨10, 11, callRegisters⟩]

def callTracee (returnAddress : Byte) : Tracee where
  state := .stopped
  pid := 10
  activeTid := 10
  stopSequence := 1
  registers := callRegisters
  readMemory := (callSnapshot returnAddress).readMemory
  maps := some [⟨0x1000, 0x2000, 0, "/bin/call"⟩]

/-- The caller of the call. -/
def callCursor (returnAddress : Byte) : EhFrameCursor :=
  ⟨0x1000 + returnAddress.setWidth 64, 0x7010, none, none⟩

/-- One step recovers the caller, and none is recovered from there. -/
theorem liveChain_call {returnAddress : Byte}
    (h : returnAddress = 0x10 ∨ returnAddress = 0x20) :
    LiveChain (callTracee returnAddress) callFiles ⟨callElf, callCfi⟩
      [(callCursor returnAddress, [])] := by
  obtain rfl | rfl := h
  all_goals
    refine ⟨rfl, .next ?_ (.last ?_), ?_, ?_⟩
    · decide +kernel
    · decide +kernel
    · exact .cons_cons (by decide +kernel) (.singleton _)
    · decide +kernel

theorem coreChain_call {returnAddress : Byte}
    (h : returnAddress = 0x10 ∨ returnAddress = 0x20) :
    CoreChain (callSnapshot returnAddress) callFiles ⟨0, Nat.one_pos⟩
      [callCursor returnAddress] := by
  obtain rfl | rfl := h
  all_goals
    refine ⟨rfl, .next ?_ (.last ?_), ?_, ?_⟩
    · decide +kernel
    · decide +kernel
    · exact .cons_cons (by decide +kernel) (.singleton _)
    · decide +kernel

theorem unwinders_complete_call :
    (∃ trace, unwindEhFrame (callTracee 0x20) callFiles ⟨callElf, callCfi⟩ 64 = .ok trace ∧
      trace.frames = [.ofCursor callRegisters.cursor, .ofCursor (callCursor 0x20)]) ∧
    (∃ frames, buildInspectionFrames (callTracee 0x20) callFiles ⟨callElf, callCfi⟩ 64 =
      .ok frames ∧ frames.map (·.cursor) = [callRegisters.cursor, callCursor 0x20]) ∧
    (∃ trace, buildSnapshotInspectionFrames (callSnapshot 0x20) callFiles ⟨0, Nat.one_pos⟩ 64 =
      .ok trace ∧ trace.frames.map (·.cursor) = [callRegisters.cursor, callCursor 0x20]) := by
  have hmoving : Moving [callRegisters.cursor, callCursor 0x20] :=
    .cons_cons (by decide +kernel) (.singleton _)
  have hlive := (unwinders_complete_iff callFiles).1 (callTracee 0x20) ⟨callElf, callCfi⟩ _ 64
    (by decide) (liveChain_call (.inr rfl))
  have hcore := (unwinders_complete_iff callFiles).2.1 (callSnapshot 0x20) ⟨0, Nat.one_pos⟩ _ 64
    (by decide) (coreChain_call (.inr rfl))
  exact ⟨hlive.1.mpr hmoving, hlive.2.mpr ⟨by decide +kernel, hmoving⟩,
    hcore.mpr ⟨by decide +kernel, hmoving⟩⟩

/-- A function that calls itself: the chain has two cursors and all three unwinders return the
first only. -/
theorem recursive_call_cut_off :
    (LiveChain (callTracee 0x10) callFiles ⟨callElf, callCfi⟩ [(callCursor 0x10, [])] ∧
      (unwindEhFrame (callTracee 0x10) callFiles ⟨callElf, callCfi⟩ 64).toOption.map (·.frames) =
        some [.ofCursor callRegisters.cursor] ∧
      (buildInspectionFrames (callTracee 0x10) callFiles ⟨callElf, callCfi⟩ 64).toOption.map
        (·.map (·.cursor)) = some [callRegisters.cursor]) ∧
    (CoreChain (callSnapshot 0x10) callFiles ⟨0, Nat.one_pos⟩ [callCursor 0x10] ∧
      (buildSnapshotInspectionFrames (callSnapshot 0x10) callFiles ⟨0, Nat.one_pos⟩ 64).toOption.map
        (·.frames.map (·.cursor)) = some [callRegisters.cursor]) := by
  refine ⟨⟨liveChain_call (.inl rfl), ?_, ?_⟩, coreChain_call (.inl rfl), ?_⟩
  · decide +kernel
  · decide +kernel
  · decide +kernel

end MiniDebugger
