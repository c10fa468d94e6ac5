import MiniDebugger.Core.Session
import MiniDebugger.Core.Walkers

/-!
# What a session has selected

The frames `build_snapshot_inspection_frames` returns all pass the check on frames as soon as the
first one does: callers are only kept with a return address that is not zero and with a growing
stack. `Selected` is what holds of the selection of a session; every call keeps it, and a call
that throws changes nothing.
-/

namespace MiniDebugger

/-! ## The frames of a trace -/

/-- A frame was made for a thread of a snapshot. -/
structure MadeFor (snapshot : CoreSnapshot) (thread : Fin snapshot.threads.length)
    (frame : SnapshotInspectionFrameContext) : Prop where
  owner : frame.ownerSnapshot = snapshot.address
  tid : frame.threadTid = (snapshot.threads.get thread).tid
  signal : frame.threadSignalNumber = (snapshot.threads.get thread).signalNumber
  pc : frame.originRuntimePc = (snapshot.threads.get thread).registers.rip
  sp : frame.originStackPointer = (snapshot.threads.get thread).registers.rsp
  fp : frame.originFramePointer = some (snapshot.threads.get thread).registers.rbp
  path : frame.modulePath ≠ ""
  zero : frame.index = 0 → frame.pcOwnership = .exactInstruction

/-- What makes a frame complete. -/
def SnapshotInspectionFrameContext.Placed (frame : SnapshotInspectionFrameContext) : Prop :=
  frame.runtimePc ≠ 0 ∧ frame.stackPointer ≠ 0

section Frames

variable {snapshot : CoreSnapshot} {files : Files} {thread : Fin snapshot.threads.length}
  {frame : SnapshotInspectionFrameContext}

theorem snapshotFrameModulePath_nonempty {address : Word} {path : String}
    (h : snapshotFrameModulePath snapshot address = .ok path) : path ≠ "" := by
  unfold snapshotFrameModulePath at h
  split at h
  · cases h
  · split at h
    · cases h
    · rename_i hhead
      cases h
      rintro hempty
      simp [hempty] at hhead

theorem madeFor_of_make {index : Nat} {caller : SnapshotCaller}
    (hzero : index = 0 → caller.pcOwnership = .exactInstruction)
    (h : makeSnapshotInspectionFrame snapshot thread index caller = .ok frame) :
    MadeFor snapshot thread frame := by
  obtain ⟨_, -, h⟩ := except_bind_ok h
  obtain ⟨path, hpath, h⟩ := except_bind_ok h
  cases h
  exact ⟨rfl, rfl, rfl, rfl, rfl, rfl, snapshotFrameModulePath_nonempty hpath, hzero⟩

theorem signalFrame_pc_ne_zero {ucontextAddress : Word} {signal : SnapshotCaller}
    (h : recoverLinuxX86SignalFrame snapshot ucontextAddress = .ok signal) :
    signal.cursor.instructionPointer ≠ 0 := by
  obtain ⟨r12, -, h⟩ := except_bind_ok h
  obtain ⟨rdi, -, h⟩ := except_bind_ok h
  obtain ⟨rsi, -, h⟩ := except_bind_ok h
  obtain ⟨rip, -, h⟩ := except_bind_ok h
  obtain ⟨rsp, -, h⟩ := except_bind_ok h
  obtain ⟨rbp, -, h⟩ := except_bind_ok h
  obtain ⟨rbx, -, h⟩ := except_bind_ok h
  dsimp only at h
  split at h
  case isTrue => cases h
  case isFalse hnonzero =>
    split at h
    case isTrue => cases h
    case isFalse =>
      obtain ⟨xmm0, -, h⟩ := except_bind_ok h
      cases h
      exact fun hzero => hnonzero (.inl hzero)

/-- No recovered caller has a zero instruction pointer. -/
theorem snapshotCaller_pc_ne_zero {current : EhFrameCursor} {caller : SnapshotCaller}
    (h : snapshotCaller snapshot files current = .ok (some caller)) :
    caller.cursor.instructionPointer ≠ 0 := by
  obtain ⟨module, hmodule, h⟩ := except_bind_ok h
  obtain ⟨cfi, hcfi, h⟩ := except_bind_ok h
  split at h
  case isTrue => cases h
  case isFalse havailable =>
    obtain ⟨index, hindex, h⟩ := except_bind_ok h
    obtain ⟨isSignal, hsignal, h⟩ := except_bind_ok h
    cases isSignal with
    | true =>
      rw [if_pos rfl] at h
      obtain ⟨signal, hrecover, h⟩ := except_bind_ok h
      cases h
      exact signalFrame_pc_ne_zero hrecover
    | false =>
      rw [if_neg (by simp)] at h
      obtain ⟨found, hcall, h⟩ := except_bind_ok h
      cases found with
      | none => cases h
      | some cursor =>
        cases h
        rw [callerFrame_eq (by simpa using havailable)] at hcall
        obtain ⟨found, hrow, hcall⟩ := except_bind_ok hcall
        cases found with
        | none => cases hcall
        | some row =>
          obtain ⟨caller, hcaller, hcall⟩ := except_bind_ok hcall
          cases hcall
          obtain ⟨evaluated, hframe, -, -, -, hip⟩ := callerOfRow_ok hcaller
          obtain ⟨-, -, -, slot, -, -, hzero⟩ := frameOfRow_ok_iff.mp hframe
          exact hip ▸ hzero

/-- The loop adds frames of the same thread that have a pc and a stack. -/
theorem snapshotFramesFrom_placed {trace : SnapshotInspectionTrace} (room : Nat)
    (current : EhFrameCursor) (front : SnapshotInspectionFrameContext)
    (callers : List SnapshotInspectionFrameContext)
    (hcallers : ∀ frame ∈ callers, MadeFor snapshot thread frame ∧ frame.Placed)
    (h : snapshotFramesFrom snapshot files thread room current (front :: callers) = .ok trace) :
    ∃ callers, trace.frames = front :: callers ∧
      ∀ frame ∈ callers, MadeFor snapshot thread frame ∧ frame.Placed := by
  induction room generalizing current callers with
  | zero =>
    cases h
    exact ⟨callers, rfl, hcallers⟩
  | succ room ih =>
    unfold snapshotFramesFrom at h
    split at h
    case h_1 =>
      cases h
      exact ⟨callers, rfl, hcallers⟩
    case h_2 =>
      cases h
      exact ⟨callers, rfl, hcallers⟩
    case h_3 caller hcall =>
      split at h
      case isTrue =>
        cases h
        exact ⟨callers, rfl, hcallers⟩
      case isFalse hprogress =>
        split at h
        case h_1 =>
          cases h
          exact ⟨callers, rfl, hcallers⟩
        case h_2 =>
          obtain ⟨frame, hframe, h⟩ := except_bind_ok h
          obtain ⟨hcursor, -, -⟩ := makeSnapshotInspectionFrame_eq hframe
          have hplaced : frame.Placed := by
            have hpc : frame.runtimePc = caller.cursor.instructionPointer :=
              congrArg EhFrameCursor.instructionPointer hcursor
            have hsp : frame.stackPointer = caller.cursor.stackPointer :=
              congrArg EhFrameCursor.stackPointer hcursor
            refine ⟨hpc ▸ snapshotCaller_pc_ne_zero hcall, fun hzero => ?_⟩
            -- the stack pointer of a caller is above that of the frame it returns to
            refine hprogress (.inr ?_)
            rw [← hsp, hzero]
            exact BitVec.le_def.mpr (by simp)
          refine ih caller.cursor (callers ++ [frame]) ?_ h
          intro other hother
          rw [List.mem_append, List.mem_singleton] at hother
          obtain hother | rfl := hother
          · exact hcallers other hother
          · exact ⟨madeFor_of_make (by simp) hframe, hplaced⟩

/-- The first frame is made of the registers of the thread, and the loop adds the others. -/
theorem trace_front {maxFrames : Nat} {trace : SnapshotInspectionTrace}
    (h : buildSnapshotInspectionFrames snapshot files thread maxFrames = .ok trace) :
    snapshot.checkOwner thread = .ok () ∧ ∃ front callers, trace.frames = front :: callers ∧
      makeSnapshotInspectionFrame snapshot thread 0
        { cursor := (snapshot.threads.get thread).registers.cursor
          pcOwnership := .exactInstruction } = .ok front ∧
      ∀ frame ∈ callers, MadeFor snapshot thread frame ∧ frame.Placed := by
  unfold buildSnapshotInspectionFrames at h
  dsimp only at h
  split at h
  case isTrue => cases h
  case isFalse =>
    obtain ⟨_, howner, h⟩ := except_bind_ok h
    refine ⟨howner, ?_⟩
    obtain ⟨front, hfront, h⟩ := except_bind_ok h
    split at h
    case isTrue =>
      cases h
      exact ⟨front, [], rfl, hfront, by simp⟩
    case isFalse =>
      obtain ⟨callers, hframes, hcallers⟩ :=
        snapshotFramesFrom_placed _ _ front [] (by simp) h
      exact ⟨front, callers, hframes, hfront, hcallers⟩

/-- Every frame was made for the thread, and every frame but the first has a pc and a stack. -/
theorem trace_madeFor {maxFrames : Nat} {trace : SnapshotInspectionTrace}
    (h : buildSnapshotInspectionFrames snapshot files thread maxFrames = .ok trace) :
    snapshot.checkOwner thread = .ok () ∧ ∃ front callers, trace.frames = front :: callers ∧
      MadeFor snapshot thread front ∧
      ∀ frame ∈ callers, MadeFor snapshot thread frame ∧ frame.Placed := by
  obtain ⟨howner, front, callers, hframes, hfront, hcallers⟩ := trace_front h
  exact ⟨howner, front, callers, hframes, madeFor_of_make (fun _ => rfl) hfront, hcallers⟩

theorem thread_of_checkOwner (h : snapshot.checkOwner thread = .ok ()) :
    snapshot.thread (snapshot.threads.get thread).tid = .ok thread := by
  obtain ⟨owned, howned, h⟩ := except_bind_ok h
  split at h
  case isTrue => cases h
  case isFalse hsame => rw [howned, not_not.mp hsame]

/-- The check on frames is about the pc and the stack of a frame made for an owned thread. -/
theorem validate_iff_placed (howner : snapshot.checkOwner thread = .ok ())
    (hmade : MadeFor snapshot thread frame) :
    validateSnapshotInspectionFrame snapshot frame = .ok () ↔ frame.Placed := by
  unfold validateSnapshotInspectionFrame
  rw [if_neg (by simp [hmade.owner]), hmade.tid, thread_of_checkOwner howner]
  simp only [bind, Except.bind]
  rw [if_neg (by simp [hmade.signal, hmade.pc, hmade.sp, hmade.fp])]
  by_cases hplaced : frame.Placed
  · have hcomplete : ¬(frame.runtimePc = 0 ∨ frame.stackPointer = 0 ∨ frame.modulePath = "") := by
      intro h
      obtain h | h | h := h
      · exact hplaced.1 h
      · exact hplaced.2 h
      · exact hmade.path h
    rw [if_neg hcomplete, if_neg (fun h => h.2 (hmade.zero h.1))]
    exact ⟨fun _ => hplaced, fun _ => rfl⟩
  · rw [if_pos]
    · exact ⟨fun h => (by cases h), fun h => absurd h hplaced⟩
    · by_contra hcomplete
      exact hplaced ⟨fun h => hcomplete (.inl h), fun h => hcomplete (.inr (.inl h))⟩

/-- Where the first frame of a trace passes the check, all do. -/
theorem trace_validated {maxFrames : Nat} {trace : SnapshotInspectionTrace}
    {front : SnapshotInspectionFrameContext}
    (h : buildSnapshotInspectionFrames snapshot files thread maxFrames = .ok trace)
    (hhead : trace.frames.head? = some front)
    (hfront : validateSnapshotInspectionFrame snapshot front = .ok ()) :
    ∀ frame ∈ trace.frames, frame.threadTid = (snapshot.threads.get thread).tid ∧
      validateSnapshotInspectionFrame snapshot frame = .ok () := by
  obtain ⟨howner, front', callers, hframes, hmade, hcallers⟩ := trace_madeFor h
  rw [hframes] at hhead ⊢
  obtain rfl : front' = front := by simpa using hhead
  intro frame hframe
  obtain rfl | hmem := List.mem_cons.mp hframe
  · exact ⟨hmade.tid, hfront⟩
  · obtain ⟨hmade, hplaced⟩ := hcallers frame hmem
    exact ⟨hmade.tid, (validate_iff_placed howner hmade).mpr hplaced⟩

end Frames

/-! ## The selection -/

/-- The selected frame is one of the trace, every frame of the trace belongs to the selected
thread and passes its check, and a selected inline context is the one its index names among those
of the selected frame. -/
structure Selected (files : SessionFiles) (session : CoreInspectionSession) : Prop where
  frame : session.selectedFrameIndex < session.trace.frames.length
  thread : ∀ frame ∈ session.trace.frames, frame.threadTid = session.selectedThreadTid
  validated : ∀ frame ∈ session.trace.frames,
    validateSnapshotInspectionFrame session.snapshot frame = .ok ()
  both : session.selectedInlineContext.isSome = session.selectedInlineContextIndex.isSome
  inline : ∀ index context, session.selectedInlineContextIndex = some index →
    session.selectedInlineContext = some context →
    ∃ contexts, session.inlineContexts files = .ok contexts ∧ contexts[index]? = some context

namespace CoreInspectionSession

open Command

variable {files : SessionFiles} {session : CoreInspectionSession}

/-- What a call may do: select something valid and return, or throw and change nothing. -/
def Keeps (files : SessionFiles) (x : SessionM Unit) : Prop :=
  ∀ session, Selected files session → wp x ⟨fun _ t => Selected files t,
    fun _ t => t = session, fun _ _ => False⟩ session

theorem keeps_clearInlineContext : Keeps files clearInlineContext := by
  intro session h
  simp only [clearInlineContext, wp_bind, wp_update]
  exact ⟨h.frame, h.thread, h.validated, rfl, fun _ _ hindex => by cases hindex⟩

theorem keeps_selectInlineContext (index : Nat) : Keeps files (selectInlineContext files index) := by
  intro session h
  simp only [selectInlineContext, wp_bind, wp_read, wp_ofExcept, id_eq]
  split
  · rename_i contexts hcontexts
    cases hcontext : contexts[index]? with
    | none => simp
    | some context =>
      simp only [wp_bind, wp_update]
      refine ⟨h.frame, h.thread, h.validated, rfl, ?_⟩
      intro index' context' hindex hsome
      cases hindex
      cases hsome
      -- the inline contexts do not depend on the selected one
      exact ⟨contexts, hcontexts, hcontext⟩
  · trivial

theorem keeps_selectFrame (index : Nat) : Keeps files (selectFrame index) := by
  intro session h
  simp only [selectFrame, wp_bind, wp_read, id_eq]
  cases hframe : session.trace.frames[index]? with
  | none => simp
  | some frame =>
    simp only [wp_bind, wp_ofExcept]
    split
    · split
      · simp only [wp_ite, wp_raise, wp_bind, wp_update, clearInlineContext]
        split
        · trivial
        · obtain ⟨hlt, -⟩ := List.getElem?_eq_some_iff.mp hframe
          exact ⟨hlt, h.thread, h.validated, rfl, fun _ _ hindex => by cases hindex⟩
      · trivial
    · trivial

theorem framesOfThread_ok {tid : Pid} {trace : SnapshotInspectionTrace}
    (h : session.framesOfThread files tid = .ok trace) :
    ∃ thread, (session.snapshot.threads.get thread).tid = tid ∧
      buildSnapshotInspectionFrames session.snapshot files.toFiles thread session.maxFrames =
        .ok trace := by
  obtain ⟨thread, hthread, h⟩ := except_bind_ok h
  refine ⟨thread, ?_, h⟩
  unfold CoreSnapshot.thread at hthread
  split at hthread
  · cases hthread
  · rename_i found hfound
    cases hthread
    simpa using (List.findFinIdx?_eq_some_iff.mp hfound).1

theorem keeps_selectThread (tid : Pid) : Keeps files (selectThread files tid) := by
  intro session h
  simp only [selectThread, wp_bind, wp_read, wp_ofExcept, id_eq]
  split
  · rename_i trace htrace
    cases hfront : trace.frames.head? with
    | none => simp
    | some front =>
      simp only [wp_bind, wp_ofExcept]
      split
      · rename_i hvalid
        split
        · simp only [wp_bind, wp_update, clearInlineContext]
          obtain ⟨thread, rfl, hbuild⟩ := framesOfThread_ok htrace
          have hframes := trace_validated hbuild hfront hvalid
          refine ⟨?_, fun frame hmem => (hframes frame hmem).1,
            fun frame hmem => (hframes frame hmem).2, rfl, fun _ _ hindex => by cases hindex⟩
          have hne : trace.frames ≠ [] := by
            rintro hnil
            simp [hnil] at hfront
          exact List.length_pos_iff.mpr hne
        · trivial
      · trivial
  · trivial

theorem keeps_run (call : SessionCall) : Keeps files (call.run files) := by
  cases call with
  | selectThread tid => exact keeps_selectThread tid
  | selectFrame index => exact keeps_selectFrame index
  | selectInlineContext index => exact keeps_selectInlineContext index
  | clearInlineContext => exact keeps_clearInlineContext
  | inspect call =>
    intro session h
    simp only [SessionCall.run, wp_bind, wp_read, wp_ofExcept, id_eq]
    split
    · exact h
    · trivial

theorem selected_of_create {bytes : List Byte} {maxFrames address : Nat}
    (h : create files bytes maxFrames address = .ok session) : Selected files session := by
  obtain ⟨core, -, h⟩ := except_bind_ok h
  obtain ⟨startupInfo, -, h⟩ := except_bind_ok h
  split at h
  case isFalse => cases h
  case isTrue hthreads =>
    obtain ⟨trace, hbuild, h⟩ := except_bind_ok h
    obtain ⟨_, hvalidate, h⟩ := except_bind_ok h
    cases h
    unfold validateTrace at hvalidate
    split at hvalidate
    case h_1 => cases hvalidate
    case h_2 front callers hframes =>
      obtain ⟨_, hvalid, hvalidate⟩ := except_bind_ok hvalidate
      obtain ⟨_, hfront, -⟩ := except_bind_ok hvalid
      split at hvalidate
      case isTrue => cases hvalidate
      case isFalse htid =>
        have hall := trace_validated hbuild (by rw [hframes]; rfl) hfront
        have hfrontTid := (hall front (by rw [hframes]; exact List.mem_cons_self)).1
        have hne : 0 < trace.frames.length := by
          rw [hframes]
          exact Nat.succ_pos _
        refine ⟨hne, ?_, fun frame hmem => (hall frame hmem).2, rfl,
          fun _ _ hindex => by cases hindex⟩
        intro frame hmem
        rw [(hall frame hmem).1, ← hfrontTid]
        exact not_not.mp htid

theorem selected_after (h : Selected files session) (calls : List SessionCall) :
    Selected files (session.after files calls) := by
  induction calls generalizing session with
  | nil => exact h
  | cons call calls ih =>
    refine ih ?_
    have hkeeps := keeps_run call session h
    unfold wp at hkeeps
    split at hkeeps
    · rename_i hrun
      rw [hrun]
      exact hkeeps
    · rename_i hrun
      rw [hrun]
      exact hkeeps ▸ h
    · exact hkeeps.elim

end CoreInspectionSession

/-- After every sequence of calls on every session, whether they return or throw, the selection is
as `Selected` says, and a further call that throws leaves the whole session as it was. -/
theorem core_session_selection_kept {files : SessionFiles} {bytes : List Byte}
    {maxFrames address : Nat} {session : CoreInspectionSession}
    (h : CoreInspectionSession.create files bytes maxFrames address = .ok session)
    (calls : List SessionCall) :
    Selected files (session.after files calls) ∧
      ∀ (call : SessionCall) (e : Exception) (session' : CoreInspectionSession),
        call.run files (session.after files calls) = .raised e session' →
          session' = session.after files calls := by
  have hselected := CoreInspectionSession.selected_after
    (CoreInspectionSession.selected_of_create h) calls
  refine ⟨hselected, ?_⟩
  intro call e session' hrun
  have hkeeps := CoreInspectionSession.keeps_run call _ hselected
  rwa [Command.wp_of_raised hrun] at hkeeps

/-- One executable with one inlined call. -/
def oneModuleFiles : SessionFiles where
  sameFile left right := left = right
  elf path := .ok { path, mappedPath := path, elfType := .exec, loadVirtualBase := 0x1000 }
  ehFrame _ := .ok {}
  signalIndex _ := .ok {}
  resolve path := .ok path
  resolveDebugFile path := .ok path
  inlineUnits _ _ modulePath := .ok [⟨0x40, 1, modulePath, "callee", ⟨"a.c", 3, 1⟩⟩]
  lookup _ _ _ := .ok ()
  evaluate _ _ _ _ := .ok ()

/-- The inline context of the one frame is selected; selecting another frame throws. -/
theorem core_session_selection_kept_oneThread : ∃ session,
    CoreInspectionSession.create oneModuleFiles oneThreadCore 1 0 = .ok session ∧
    Selected oneModuleFiles
      (session.after oneModuleFiles [.selectInlineContext 0, .selectFrame 1]) ∧
    (session.after oneModuleFiles
      [.selectInlineContext 0, .selectFrame 1]).selectedInlineContextIndex = some 0 := by
  have hcreate : (CoreInspectionSession.create oneModuleFiles oneThreadCore 1 0).toOption.map
      (fun session => (session.after oneModuleFiles
        [.selectInlineContext 0, .selectFrame 1]).selectedInlineContextIndex) = some (some 0) := by
    decide +kernel
  cases hsession : CoreInspectionSession.create oneModuleFiles oneThreadCore 1 0 with
  | error e =>
    rw [hsession] at hcreate
    cases hcreate
  | ok session =>
    rw [hsession] at hcreate
    obtain ⟨hselected, -⟩ :=
      core_session_selection_kept hsession [.selectInlineContext 0, .selectFrame 1]
    exact ⟨session, rfl, hselected, Option.some.inj hcreate⟩

end MiniDebugger
