import MiniDebugger.Unwind.LiveFrames
import MiniDebugger.Unwind.Completeness

/-!
# Frames that are used later

A frame remembers the number of the stop it was built at. A frame that is still accepted can only
differ from the frame that would be built now if an operation changed, without a new stop, a byte
or a register that the frame was made from: `accepted_frame_current` shows that nothing else can
happen as long as no operation throws after the tracee has reported.
-/

namespace MiniDebugger

open Command
open Function (update update_self update_of_ne)
open Std (ExtTreeMap)
open Lowlevel (memoryOf)

/-! ## What an operation can change -/

/-- The operation, made in `s`, may change the byte at an address. -/
def LiveOperation.ChangesByte (s : Session) : LiveOperation → Addr → Prop
  | .debugger (.addBreakpoint address), a =>
    a = address ∧ memoryOf s s.dbg.process.currentTid a ≠ some int3
  | .debugger (.removeBreakpoint id), a =>
    s.dbg.breakpointIds[id]? = some a ∧ ∃ bp, s.dbg.breakpointsByAddress[a]? = some bp ∧
      bp.installed = true ∧ memoryOf s s.dbg.process.currentTid a ≠ some bp.originalByte
  | .debugger (.writeMemory address bytes), a =>
    ∃ cell ∈ cells address bytes, cell.1 = a ∧ hasEntry s.dbg a true = false ∧
      memoryOf s s.dbg.process.currentTid a ≠ some cell.2
  | _, _ => False

/-- The operation, made in `s`, may give the selected thread these registers. -/
def LiveOperation.Assigns (s : Session) : LiveOperation → UserRegs → Prop
  | .setRegister name value, regs =>
    assignGeneralPurposeRegister (s.world.regs s.dbg.process.currentTid) name value = some regs
  | _, _ => False

/-- An operation that reports no new stop: no report has been taken, and what changed is what the
operation may change. -/
structure Session.Edited (s : Session) (op : LiveOperation) (t : Session) : Prop where
  stop : t.dbg.stopInfo = s.dbg.stopInfo
  pid : t.dbg.process.pid = s.dbg.process.pid
  tasks : t.world.tasks = s.world.tasks
  reports : t.reports = s.reports
  memory : ∀ p a, t.world.memory p a = s.world.memory p a ∨ op.ChangesByte s a
  regs : ∀ tid, t.world.regs tid = s.world.regs tid ∨
    (tid = s.dbg.process.currentTid ∧ op.Assigns s (t.world.regs tid))

section Steps

variable {tracees : Tracees} {s t : Session} {op : LiveOperation}

theorem Session.Standing.edited (h : s.Standing t) : s.Edited op t :=
  ⟨h.stop, h.pid, h.tasks, h.reports, fun p a => .inl (by rw [h.memory]),
    fun tid => .inl (by rw [h.regs])⟩

theorem Session.Edited.unchanged (hdbg : t.dbg = s.dbg)
    (hmemory : t.world.memory = s.world.memory) (hregs : t.world.regs = s.world.regs)
    (htasks : t.world.tasks = s.world.tasks) (hreports : t.reports = s.reports) : s.Edited op t :=
  (Session.Standing.mk hmemory hregs htasks (by rw [hdbg]) (by rw [hdbg]) hreports).edited

/-- Storing one byte. -/
theorem Session.Edited.poke {tid : Pid} {address : Addr} {value : Byte}
    (hmemory : t.world.memory = (s.poke tid address value).world.memory)
    (hchange : memoryOf s tid address ≠ some value → op.ChangesByte s address)
    (hstop : t.dbg.stopInfo = s.dbg.stopInfo) (hpid : t.dbg.process.pid = s.dbg.process.pid)
    (htasks : t.world.tasks = s.world.tasks) (hreports : t.reports = s.reports)
    (hregs : t.world.regs = s.world.regs) : s.Edited op t := by
  refine ⟨hstop, hpid, htasks, hreports, fun p a => ?_, fun tid => .inl (by rw [hregs])⟩
  rw [hmemory]
  by_cases hp : p = Lowlevel.space s.world tid
  · by_cases ha : a = address
    · subst hp ha
      by_cases hsame : memoryOf s tid a = some value
      · left
        simpa [Session.poke] using hsame.symm
      · exact .inr (hchange hsame)
    · left
      simp [Session.poke, hp, ha]
  · left
    simp [Session.poke, hp]

/-- What `write_memory` has changed on the way. -/
structure Session.Writing (s : Session) (address : Addr) (bytes : List Byte) (t : Session) :
    Prop where
  dbg : t.dbg = s.dbg
  edited : s.Edited (.debugger (.writeMemory address bytes)) t

theorem edited_writeMemory (address : Addr) (bytes : List Byte) :
    wp (writeMemory address bytes)
      ⟨fun _ => s.Edited (.debugger (.writeMemory address bytes)),
        fun _ => s.Edited (.debugger (.writeMemory address bytes)), fun _ _ => True⟩ s := by
  have here : s.Edited (.debugger (.writeMemory address bytes)) s :=
    (Session.Standing.refl s).edited
  simp only [writeMemory, wp_bind, wp_view, wp_ite, wp_raise, id]
  refine wp_stoppedTid (fun _ _ _ => ?_) fun _ _ => here
  dsimp only
  split
  · exact here
  split
  · exact here
  split
  · exact here
  split
  · exact here
  split
  · exact here
  have hcells : wp (forEach (writeCell s.dbg.process.currentTid) (cells address bytes))
      ⟨fun _ => s.Writing address bytes, fun _ => s.Writing address bytes, fun _ _ => True⟩ s := by
    refine wp_forEach (fun cell hcell u hu => ?_) s ⟨rfl, here⟩
    simp only [writeCell, wp_bind, wp_view, wp_ite, wp_pure]
    split
    · rename_i hentry
      have hentry : hasEntry s.dbg cell.1 true = false := by simpa [hu.dbg] using hentry
      refine Lowlevel.wp_writeByte (fun faults hacc => ?_) (fun faults e _ => ⟨hu.dbg, ?_⟩)
      · refine ⟨hu.dbg, hu.edited.stop, hu.edited.pid, hu.edited.tasks, hu.edited.reports,
          fun p a => ?_, hu.edited.regs⟩
        by_cases ha : a = cell.1
        · subst ha
          by_cases hsame : memoryOf s s.dbg.process.currentTid cell.1 = some cell.2
          · have hspace : Lowlevel.space u.world s.dbg.process.currentTid =
                Lowlevel.space s.world s.dbg.process.currentTid := by
              rw [Lowlevel.space, Lowlevel.space, hu.edited.tasks]
            by_cases hp : p = Lowlevel.space s.world s.dbg.process.currentTid
            · left
              subst hp
              simpa [hspace] using hsame.symm
            · simpa [hspace, update_of_ne hp] using hu.edited.memory p cell.1
          · exact .inr ⟨cell, hcell, rfl, hentry, hsame⟩
        · have := hu.edited.memory p a
          by_cases hp : p = Lowlevel.space u.world s.dbg.process.currentTid
          · subst hp
            simpa [ha] using this
          · simpa [update_of_ne hp] using this
      · exact ⟨hu.edited.stop, hu.edited.pid, hu.edited.tasks, hu.edited.reports, hu.edited.memory,
          hu.edited.regs⟩
    · exact hu
  refine wp_mono hcells (fun _ u hu => ?_) (fun _ _ hu => hu.edited) fun _ _ _ => trivial
  refine wp_forEach (I := s.Edited (.debugger (.writeMemory address bytes)))
    (fun cell _ v hv => ?_) u hu.edited
  exact ⟨hv.stop, hv.pid, hv.tasks, hv.reports, hv.memory, hv.regs⟩

theorem Session.Alike.edited (h : s.Alike t) {d : Debugger}
    (hstop : d.stopInfo = s.dbg.stopInfo) (hpid : d.process.pid = s.dbg.process.pid) :
    s.Edited op { t with dbg := d } := by
  obtain ⟨faults, sequence, debug, rfl⟩ := h
  exact ⟨hstop, hpid, rfl, rfl, fun _ _ => .inl rfl, fun _ => .inl rfl⟩

theorem edited_removeBreakpoint (id : Nat) :
    wp (removeBreakpoint id) ⟨fun _ => s.Edited (.debugger (.removeBreakpoint id)),
      fun _ => s.Edited (.debugger (.removeBreakpoint id)), fun _ _ => True⟩ s := by
  have hstop : ∀ address, ((s.dbg.clearPendingStep address).eraseBreakpoint id address).stopInfo =
      s.dbg.stopInfo := fun address => by unfold Debugger.clearPendingStep; split <;> rfl
  have hpid : ∀ address, ((s.dbg.clearPendingStep address).eraseBreakpoint id address).process =
      s.dbg.process := fun address => by unfold Debugger.clearPendingStep; split <;> rfl
  refine wp_removeBreakpoint (fun _ => .unchanged rfl rfl rfl rfl rfl) ?_ ?_
    fun _ _ => .unchanged rfl rfl rfl rfl rfl
  · intro address bp faults hid hbp hinstalled _ _
    exact .poke rfl (fun hne => ⟨hid, bp, hbp, hinstalled, hne⟩) (hstop address)
      (congrArg Process.pid (hpid address)) rfl rfl rfl
  · intro address _ _
    exact ⟨hstop address, congrArg Process.pid (hpid address), rfl, rfl, fun _ _ => .inl rfl,
      fun _ => .inl rfl⟩

theorem edited_setRegister (name : String) (value : Word) :
    wp (setRegister name value) ⟨fun _ => s.Edited (.setRegister name value),
      fun _ => s.Edited (.setRegister name value), fun _ _ => True⟩ s := by
  simp only [setRegister, wp_bind]
  refine wp_stoppedTid (fun _ _ _ => ?_) fun _ _ => .unchanged rfl rfl rfl rfl rfl
  refine Lowlevel.wp_getRegisters (fun faults => ?_) fun _ _ _ => .unchanged rfl rfl rfl rfl rfl
  dsimp only
  cases hassign : assignGeneralPurposeRegister (s.world.regs s.dbg.process.currentTid) name value
    with
  | none => exact Session.Edited.unchanged rfl rfl rfl rfl rfl
  | some regs =>
    refine Lowlevel.wp_setRegisters (fun faults => ?_) fun _ _ _ => .unchanged rfl rfl rfl rfl rfl
    refine ⟨rfl, rfl, rfl, rfl, fun _ _ => .inl rfl, fun tid => ?_⟩
    by_cases htid : tid = s.dbg.process.currentTid
    · subst htid
      exact .inr ⟨rfl, by simpa [LiveOperation.Assigns] using hassign⟩
    · exact .inl (update_of_ne htid _ _)

/-- What an operation leaves behind: a stop numbered above `n`, or the changes it may make. One
that throws may have taken a report instead. -/
def stepped (n : Nat) (s : Session) (op : LiveOperation) :
    Post WaitCall Exception Session Unit where
  returned _ t := n < t.dbg.stopInfo.sequence ∨ s.Edited op t
  raised _ t := t.reports ≠ s.reports ∨ s.Edited op t
  blocked _ _ := True

theorem stepped_of_edited {n : Nat} {α : Type} {x : Act α}
    (hx : wp x ⟨fun _ => s.Edited op, fun _ => s.Edited op, fun _ _ => True⟩ s) :
    wp ((fun _ => ()) <$> x) (stepped n s op) s := by
  rw [wp_map]
  exact wp_mono hx (fun _ _ h => .inr h) (fun _ _ h => .inr h) fun _ _ h => h

theorem stepped_of_waited {n : Nat} {x : Act StopInfo}
    (hx : wp x (waited n s.reports.length s) s) :
    wp ((fun _ => ()) <$> x) (stepped n s op) s := by
  rw [wp_map]
  refine wp_mono hx (fun info t ht => .inl (ht.2.2 ▸ ht.2.1)) (fun e t ht => ?_)
    fun _ _ h => h
  refine ht.2.imp (fun hlt heq => ?_) fun h => h.edited
  rw [heq] at hlt
  exact lt_irrefl _ hlt

theorem wp_forget {α β : Type} {f : α → β} {x : Act α} {Q : Post WaitCall Exception Session Unit} :
    wp ((fun _ => ()) <$> (f <$> x)) Q s ↔ wp ((fun _ => ()) <$> x) Q s := by
  simp only [wp_map]

/-- The registry of retained processes does not list the active one, which
`swap_active_process` checks. -/
def LiveOperation.Registered (s : Session) : LiveOperation → Prop
  | .debugger (.selectProcess _) => s.dbg.process.pid ∉ s.dbg.retainedProcesses
  | _ => True

def LiveOperation.detaches : LiveOperation → Bool
  | .debugger op => op.detaches
  | _ => false

/-- What one operation can do. -/
theorem stepped_run {n : Nat} (hcount : s.Counted n s.reports.length)
    (hregistered : op.Registered s) (hdetach : op.detaches = false) :
    wp (op.run tracees) (stepped n s op) s := by
  cases op with
  | setRegister name value =>
    exact wp_mono (edited_setRegister name value) (fun _ _ h => .inr h) (fun _ _ h => .inr h)
      fun _ _ h => h
  | debugger op =>
    have here : ∀ op, s.Edited op s := fun _ => (Session.Standing.refl s).edited
    simp only [LiveOperation.run]
    cases op with
    | addBreakpoint address =>
      refine wp_forget.mpr (stepped_of_edited (wp_addBreakpoint ?_ fun _ _ => ?_))
      · intro faults original _ _ _ _ _ _
        exact .poke rfl (fun hne => ⟨rfl, hne⟩) rfl rfl rfl rfl rfl
      · exact .unchanged rfl rfl rfl rfl rfl
    | removeBreakpoint id => exact wp_forget.mpr (stepped_of_edited (edited_removeBreakpoint id))
    | addWriteWatchpoint address length =>
      refine wp_forget.mpr (stepped_of_edited (wp_addWriteWatchpoint ?_ ?_))
      · intro t snapshot h _ _
        exact h.edited rfl rfl
      · intro t e h
        obtain ⟨_, _, _, rfl⟩ := h
        exact .unchanged rfl rfl rfl rfl rfl
    | removeWatchpoint id =>
      refine wp_forget.mpr (stepped_of_edited (wp_removeWatchpoint (here _) ?_ ?_))
      · intro t h
        exact h.edited rfl rfl
      · intro t e h
        obtain ⟨_, _, _, rfl⟩ := h
        exact .unchanged rfl rfl rfl rfl rfl
    | writeMemory address bytes =>
      exact wp_forget.mpr (stepped_of_edited (edited_writeMemory address bytes))
    | continueExecution policy =>
      exact wp_forget.mpr (stepped_of_waited (waited_continueExecution hcount))
    | singleStep policy =>
      exact wp_forget.mpr (stepped_of_waited (waited_singleStep hcount))
    | selectThread tid =>
      refine wp_forget.mpr (stepped_of_edited (wp_selectThread (fun _ => ?_) fun _ => here _))
      exact ⟨rfl, rfl, rfl, rfl, fun _ _ => .inl rfl, fun _ => .inl rfl⟩
    | selectProcess pid =>
      refine wp_forget.mpr ?_
      rw [wp_map]
      refine wp_selectProcess (fun _ => .inr (here _)) (fun domain _ _ _ _ => .inl ?_)
        (fun domain e _ hcollided => absurd hcollided hregistered) fun _ => .inr (here _)
      exact Nat.lt_succ_of_le hcount.1
    | setForkFollowPolicy policy =>
      refine wp_forget.mpr (stepped_of_edited (wp_setForkFollowPolicy (fun _ => ?_)
        fun _ => here _))
      exact ⟨rfl, rfl, rfl, rfl, fun _ _ => .inl rfl, fun _ => .inl rfl⟩
    | detach policy => cases hdetach

end Steps

/-! ## Counting over a run -/

theorem keepsCount_setRegister (name : String) (value : Word) :
    KeepsCount (setRegister name value) := by
  refine keepsCount_stoppedTid.bind fun tid => (keepsCount_getRegisters tid).bind fun regs => ?_
  cases assignGeneralPurposeRegister regs name value with
  | none => exact KeepsCount.raise _
  | some regs => exact keepsCount_setRegisters tid regs

theorem keepsCount_live {tracees : Tracees} (op : LiveOperation) : KeepsCount (op.run tracees) := by
  cases op with
  | debugger op => exact (keepsCount_run op).map _
  | setRegister name value => exact keepsCount_setRegister name value

theorem counted_started {s : Session} (h : Started s) : s.Counted 0 0 := by
  have fresh : ∀ d : Debugger, s.dbg = d → d.stopInfo.sequence = s.sequence →
      d.retainedProcesses = ∅ → s.Counted 0 0 := by
    intro d hd hsequence hretained
    refine ⟨Nat.zero_le _, Nat.zero_le _, ?_, fun pid domain hdomain => ?_⟩
    · rw [hd, hsequence]
    · simp [hd, hretained] at hdomain
  cases h with
  | launch pid path _ _ hdbg => exact fresh _ hdbg rfl rfl
  | attach pid tids path _ _ _ hdbg => exact fresh _ hdbg rfl rfl

/-- The recorded stop is never numbered above the counter. -/
theorem LiveRun.counted {tracees : Tracees}
    {allowed : Session → LiveOperation → Option Exception → Session → Prop} {s : Session}
    (h : LiveRun tracees allowed Started s) : s.Counted 0 0 := by
  refine h.invariant (fun s hs => counted_started hs) fun s op script faults hs => ?_
  have hs : (s.facing script faults).Counted 0 0 := hs
  exact wp_mono (keepsCount_live op 0 0 _ hs) (fun _ _ ht _ => ht) (fun _ _ ht _ => ht)
    fun _ _ _ => trivial

/-! ## Building the frames again -/

section Rebuilding

variable {tracee : Tracee} {files : Files} {preferred : Preferred} {maxFrames : Nat}

theorem inspectionFramesFrom_registers (r : UserRegs) (context : InspectionFrameContext)
    (room : Nat) (current : EhFrameCursor) (modules : ModuleCache)
    (result : List InspectionFrameContext) :
    inspectionFramesFrom { tracee with registers := r } files preferred context room current
        modules result =
      inspectionFramesFrom tracee files preferred context room current modules result := by
  induction room generalizing current modules result with
  | zero => rfl
  | succ room ih =>
    have hcall : callerForCursor { tracee with registers := r } files preferred current modules =
        callerForCursor tracee files preferred current modules := rfl
    have hpath : ∀ address, Tracee.mappedModulePath { tracee with registers := r } address =
        tracee.mappedModulePath address := fun _ => rfl
    simp only [inspectionFramesFrom, hcall, hpath, ih]

/-- The callers are appended to the frames so far, whatever these are, and do not depend on the
registers of frame 0. -/
theorem inspectionFramesFrom_more {context context' : InspectionFrameContext}
    (hcontext : ∀ index caller module,
      context'.caller index caller module = context.caller index caller module) (room : Nat)
    (current : EhFrameCursor) (modules : ModuleCache)
    (result result' : List InspectionFrameContext) (hlength : result'.length = result.length) :
    (∃ more, inspectionFramesFrom tracee files preferred context room current modules result =
        .ok (result ++ more) ∧
      inspectionFramesFrom tracee files preferred context' room current modules result' =
        .ok (result' ++ more) ∧
      ∀ (j : Nat) f, more[j]? = some f →
        ∃ caller module, f = context.caller (result.length + j) caller module) ∨
    ∃ e, inspectionFramesFrom tracee files preferred context room current modules result =
      .error e := by
  have done : ∀ result : List InspectionFrameContext, result = result ++ [] := fun _ => by simp
  induction room generalizing current modules result result' with
  | zero => exact .inl ⟨[], by rw [← done]; rfl, by rw [← done]; rfl, by simp⟩
  | succ room ih =>
    unfold inspectionFramesFrom
    cases hcall : callerForCursor tracee files preferred current modules with
    | error e => exact .inl ⟨[], by rw [← done]; rfl, by rw [← done]; rfl, by simp⟩
    | ok found =>
      obtain ⟨caller, modules⟩ := found
      cases caller with
      | none => exact .inl ⟨[], by rw [← done]; rfl, by rw [← done]; rfl, by simp⟩
      | some caller =>
        dsimp only
        split
        · exact .inl ⟨[], by rw [← done]; rfl, by rw [← done]; rfl, by simp⟩
        · cases hmodule : tracee.mappedModulePath caller.instructionPointer with
          | error e => exact .inr ⟨e, rfl⟩
          | ok module =>
            cases module with
            | none => exact .inl ⟨[], by rw [← done]; rfl, by rw [← done]; rfl, by simp⟩
            | some path =>
              simp only [bind, Except.bind, hcontext, hlength]
              obtain ⟨more, hleft, hright, hmore⟩ | herror := ih caller modules
                (result ++ [context.caller result.length caller path])
                (result' ++ [context.caller result.length caller path])
                (by rw [List.length_append, List.length_append, hlength])
              · refine .inl ⟨context.caller result.length caller path :: more, ?_, ?_, ?_⟩
                · rw [hleft, List.append_assoc]
                  rfl
                · rw [hright, List.append_assoc]
                  rfl
                · intro j f hf
                  cases j with
                  | zero =>
                    cases hf
                    exact ⟨caller, path, rfl⟩
                  | succ j =>
                    obtain ⟨c, m, rfl⟩ := hmore j f hf
                    refine ⟨c, m, ?_⟩
                    rw [List.length_append, List.length_singleton]
                    congr 1
                    omega
              · exact .inr herror

/-- Frame 0 in the module it lies in. -/
def Tracee.innermostFrame (tracee : Tracee) (module : String) : InspectionFrameContext where
  index := 0
  processPid := tracee.pid
  tid := tracee.activeTid
  originStopSequence := tracee.stopSequence
  originRuntimePc := tracee.registers.rip
  originStackPointer := tracee.registers.rsp
  originFramePointer := tracee.registers.rbp
  runtimePc := tracee.registers.rip
  stackPointer := tracee.registers.rsp
  framePointer := tracee.registers.rbp
  modulePath := module
  registers := liveRegisterState tracee.registers

theorem currentInspectionFrame_of_mapped {module : String} (hstate : tracee.state = .stopped)
    (hmodule : tracee.mappedModulePath tracee.registers.rip = .ok (some module)) :
    currentInspectionFrame tracee = .ok (tracee.innermostFrame module) := by
  simp only [currentInspectionFrame, hstate, bind, Except.bind, hmodule]
  rfl

theorem currentInspectionFrame_ok {context : InspectionFrameContext}
    (h : currentInspectionFrame tracee = .ok context) :
    tracee.state = .stopped ∧ ∃ module,
      tracee.mappedModulePath tracee.registers.rip = .ok (some module) ∧
      context = tracee.innermostFrame module := by
  simp only [currentInspectionFrame, bind, Except.bind] at h
  split at h
  · cases h
  rename_i hstate
  refine ⟨not_not.mp hstate, ?_⟩
  cases hmodule : tracee.mappedModulePath tracee.registers.rip with
  | error e => rw [hmodule] at h; cases h
  | ok module =>
    cases module with
    | none => rw [hmodule] at h; cases h
    | some module =>
      rw [hmodule] at h
      cases h
      exact ⟨module, rfl, rfl⟩

/-- Frame 0 and its callers; the callers would be the same with other registers of the same
cursor. -/
theorem buildInspectionFrames_ok {frames : List InspectionFrameContext}
    (h : buildInspectionFrames tracee files preferred maxFrames = .ok frames) :
    ∃ context more, currentInspectionFrame tracee = .ok context ∧ frames = context :: more ∧
      (∀ (j : Nat) f, more[j]? = some f →
        ∃ caller module, f = context.caller (1 + j) caller module) ∧
      ∀ r : UserRegs, r.cursor = tracee.registers.cursor →
        buildInspectionFrames { tracee with registers := r } files preferred maxFrames =
          .ok ({ context with registers := liveRegisterState r } :: more) := by
  unfold buildInspectionFrames at h ⊢
  simp only [bind, Except.bind] at h ⊢
  split at h
  · cases h
  rename_i hmax
  cases hcurrent : currentInspectionFrame tracee with
  | error e => rw [hcurrent] at h; cases h
  | ok context =>
    rw [hcurrent] at h
    dsimp only at h
    have hframe : ∀ r : UserRegs, r.cursor = tracee.registers.cursor →
        currentInspectionFrame { tracee with registers := r } =
          .ok { context with registers := liveRegisterState r } := by
      intro r hr
      obtain ⟨hstate, module, hmodule, rfl⟩ := currentInspectionFrame_ok hcurrent
      have hrip : r.rip = tracee.registers.rip := congrArg EhFrameCursor.instructionPointer hr
      have hrsp : r.rsp = tracee.registers.rsp := congrArg EhFrameCursor.stackPointer hr
      have hrbp : r.rbp = tracee.registers.rbp :=
        Option.some.inj (congrArg EhFrameCursor.framePointer hr)
      have hmodule : Tracee.mappedModulePath { tracee with registers := r } r.rip =
          .ok (some module) := by
        rw [hrip]
        exact hmodule
      have hcurrent := @currentInspectionFrame_of_mapped { tracee with registers := r } _ hstate
        hmodule
      rw [hcurrent]
      simp [Tracee.innermostFrame, hrip, hrsp, hrbp]
    split at h
    · cases h
      refine ⟨context, [], rfl, rfl, by simp, fun r hr => ?_⟩
      rw [if_neg hmax, hframe r hr]
      dsimp only
      rw [if_pos ‹_›]
      rfl
    · rename_i hone
      have hmore := fun r => @inspectionFramesFrom_more tracee files preferred context
        { context with registers := liveRegisterState r } (fun _ _ _ => rfl) (maxFrames - 1)
        context.cursor [] [context] [{ context with registers := liveRegisterState r }] rfl
      obtain ⟨more, hleft, -, hindex⟩ | ⟨e, herror⟩ := hmore {}
      · rw [hleft] at h
        cases h
        refine ⟨context, more, rfl, rfl, hindex, fun r hr => ?_⟩
        rw [if_neg hmax, hframe r hr]
        dsimp only
        rw [if_neg hone]
        have hcursor : InspectionFrameContext.cursor
            { context with registers := liveRegisterState r } = context.cursor := by
          obtain ⟨-, module, -, rfl⟩ := currentInspectionFrame_ok hcurrent
          have hrbx : some r.rbx = some tracee.registers.rbx := congrArg EhFrameCursor.rbx hr
          simpa [InspectionFrameContext.cursor, Tracee.innermostFrame, liveRegisterState] using hrbx
        rw [hcursor, inspectionFramesFrom_registers]
        obtain ⟨more', hleft', hright, -⟩ | ⟨e, herror⟩ := hmore r
        · rw [hleft] at hleft'
          cases hleft'
          exact hright
        · rw [hleft] at herror
          cases herror
      · rw [herror] at h
        cases h

/-- A frame stands in its place. -/
theorem getElem_index {frames : List InspectionFrameContext} {frame : InspectionFrameContext}
    (h : buildInspectionFrames tracee files preferred maxFrames = .ok frames)
    (hframe : frame ∈ frames) :
    frames[frame.index]? = some frame ∧ frame.processPid = tracee.pid ∧
      frame.tid = tracee.activeTid ∧ frame.originStopSequence = tracee.stopSequence ∧
      frame.originRuntimePc = tracee.registers.rip ∧
      frame.originStackPointer = tracee.registers.rsp ∧
      frame.originFramePointer = some tracee.registers.rbp := by
  obtain ⟨context, more, hcurrent, rfl, hmore, -⟩ := buildInspectionFrames_ok h
  obtain ⟨-, module, -, rfl⟩ := currentInspectionFrame_ok hcurrent
  rcases List.mem_cons.mp hframe with rfl | hframe
  · exact ⟨rfl, rfl, rfl, rfl, rfl, rfl, rfl⟩
  · obtain ⟨j, hj⟩ := List.getElem?_of_mem hframe
    obtain ⟨caller, path, rfl⟩ := hmore j frame hj
    refine ⟨?_, rfl, rfl, rfl, rfl, rfl, rfl⟩
    show (_ :: more)[1 + j]? = _
    rw [List.getElem?_cons, if_neg (by omega), Nat.add_sub_cancel_left]
    exact hj

end Rebuilding

/-! ## Accepted frames -/

/-- Register changes that a frame does not notice: only the stack and frame pointers, which are
compared when it is used, or for a caller any register but `rbx`. -/
def SameRegisters (index : Nat) (r r' : UserRegs) : Prop :=
  r'.rip = r.rip ∧ r'.rbx = r.rbx ∧ (index = 0 → r' = { r with rsp := r'.rsp, rbp := r'.rbp })

theorem SameRegisters.refl (index : Nat) (r : UserRegs) : SameRegisters index r r :=
  ⟨rfl, rfl, fun _ => rfl⟩

theorem SameRegisters.trans {index : Nat} {r r' r'' : UserRegs} (h : SameRegisters index r r')
    (h' : SameRegisters index r' r'') : SameRegisters index r r'' := by
  refine ⟨h'.1.trans h.1, h'.2.1.trans h.2.1, fun hindex => ?_⟩
  have hfirst := h.2.2 hindex
  have hsecond := h'.2.2 hindex
  rw [hfirst] at hsecond
  exact hsecond

/-- The frame at `index`, were the memory of the selected thread `m`. -/
def Session.frameAt (s : Session) (maps : Maps) (files : Files) (preferred : Preferred)
    (maxFrames : Nat) (m : Memory) (index : Nat) : Option InspectionFrameContext :=
  (buildInspectionFrames { s.tracee maps with readMemory := memoryReader m } files preferred
    maxFrames).toOption.bind (·[index]?)

/-- Of the memory of the selected thread, the frame at `index` is made from the bytes in `R`. -/
def Session.BuiltFrom (s : Session) (maps : Maps) (files : Files) (preferred : Preferred)
    (maxFrames index : Nat) (R : Set Addr) : Prop :=
  ∀ m : Memory, (∀ a ∈ R, m a = memoryOf s s.dbg.process.currentTid a) →
    s.frameAt maps files preferred maxFrames m index =
      s.frameAt maps files preferred maxFrames (memoryOf s s.dbg.process.currentTid) index

/-- The operation leaves alone what a frame made from the bytes in `R` depends on. -/
structure LiveOperation.Spares (op : LiveOperation) (frame : InspectionFrameContext)
    (R : Set Addr) (s : Session) : Prop where
  bytes : ∀ a ∈ R, ¬op.ChangesByte s a
  registers : s.dbg.process.currentTid = frame.tid → ∀ regs, op.Assigns s regs →
    SameRegisters frame.index (s.world.regs frame.tid) regs

/-- A step after which a frame that is accepted is current: while the stop of the frame is the
recorded one the operation spares the frame, and if the operation throws, the tracee has not
reported since it began. -/
structure KeepsFrame (frame : InspectionFrameContext) (R : Set Addr) (s : Session)
    (op : LiveOperation) (error : Option Exception) (t : Session) : Prop where
  attached : op.detaches = false
  registered : op.Registered s
  unfinished : error.isSome = true → t.reports = s.reports
  spares : s.dbg.stopInfo.sequence = frame.originStopSequence → op.Spares frame R s

/-- The session has not moved on from the stop `frame` was built at in `s`. -/
structure Session.StillAt (s : Session) (frame : InspectionFrameContext) (R : Set Addr)
    (t : Session) : Prop where
  stop : t.dbg.stopInfo.sequence = frame.originStopSequence
  pid : t.dbg.process.pid = s.dbg.process.pid
  tasks : t.world.tasks = s.world.tasks
  reports : t.reports = s.reports
  memory : ∀ a ∈ R, memoryOf t frame.tid a = memoryOf s frame.tid a
  regs : SameRegisters frame.index (s.world.regs frame.tid) (t.world.regs frame.tid)

section Accepted

variable {tracees : Tracees} {maps : Maps} {files : Files} {preferred : Preferred}
  {maxFrames : Nat} {frame : InspectionFrameContext} {R : Set Addr} {s t u : Session}

theorem Session.StillAt.edited {op : LiveOperation} (h : s.StillAt frame R t) (ht : t.Edited op u)
    (hspares : op.Spares frame R t) : s.StillAt frame R u := by
  refine ⟨by rw [ht.stop, h.stop], ht.pid.trans h.pid, ht.tasks.trans h.tasks,
    ht.reports.trans h.reports, fun a ha => ?_, ?_⟩
  · rw [← h.memory a ha]
    have hspace : Lowlevel.space u.world frame.tid = Lowlevel.space t.world frame.tid := by
      rw [Lowlevel.space, Lowlevel.space, ht.tasks]
    show u.world.memory (Lowlevel.space u.world frame.tid) a = _
    rw [hspace]
    exact (ht.memory _ a).resolve_right (hspares.bytes a ha)
  · refine h.regs.trans ?_
    rcases ht.regs frame.tid with hsame | ⟨htid, hassigns⟩
    · rw [hsame]
      exact .refl _ _
    · exact hspares.registers htid.symm _ hassigns

/-- Along a run the frame's stop is the recorded one and nothing it was made from has changed, or
another stop has been reported. -/
theorem stillAt_of_run (hcount : s.Counted 0 0)
    (hstop : frame.originStopSequence = s.dbg.stopInfo.sequence)
    (hrun : LiveRun tracees (KeepsFrame frame R) (· = s) t) :
    frame.originStopSequence < t.dbg.stopInfo.sequence ∨ s.StillAt frame R t := by
  suffices h : t.Counted frame.originStopSequence 0 ∧
      (frame.originStopSequence < t.dbg.stopInfo.sequence ∨ s.StillAt frame R t) from h.2
  refine hrun.invariant (I := fun t => t.Counted frame.originStopSequence 0 ∧
    (frame.originStopSequence < t.dbg.stopInfo.sequence ∨ s.StillAt frame R t)) ?_ ?_
  · rintro _ rfl
    refine ⟨⟨?_, hcount.2⟩, .inr ⟨hstop.symm, rfl, rfl, rfl, fun _ _ => rfl, .refl _ _⟩⟩
    rw [hstop]
    exact hcount.2.2.1
  · intro t op script faults ⟨hcounted, hstill⟩
    have hfacing : (t.facing script faults).Counted frame.originStopSequence 0 := hcounted
    have hedited : ∀ {u}, (t.facing script faults).Edited op u → KeepsFrame frame R t op none u ∨
        (∃ e, KeepsFrame frame R t op (some e) u) →
        frame.originStopSequence < u.dbg.stopInfo.sequence ∨ s.StillAt frame R u := by
      intro u hu hkeeps
      have hspares : t.dbg.stopInfo.sequence = frame.originStopSequence → op.Spares frame R t :=
        hkeeps.elim (·.spares) fun ⟨_, h⟩ => h.spares
      have hu : t.Edited op u := ⟨hu.stop, hu.pid, hu.tasks, hu.reports, hu.memory, hu.regs⟩
      rcases hstill with hlater | hstill
      · exact .inl (hu.stop ▸ hlater)
      · exact .inr (hstill.edited hu (hspares hstill.stop))
    by_cases hop : op.Registered t ∧ op.detaches = false
    · refine wp_mono (wp_and (keepsCount_live op _ _ _ hfacing) (stepped_run
        ⟨hfacing.1, le_rfl, hfacing.2.2⟩ hop.1 hop.2)) (fun _ u hu hkeeps => ⟨hu.1, ?_⟩)
        (fun e u hu hkeeps => ⟨hu.1, ?_⟩) fun _ _ _ => trivial
      · exact hu.2.elim .inl fun hu => hedited hu (.inl hkeeps)
      · exact hedited (hu.2.resolve_left fun hne => hne (hkeeps.unfinished rfl)) (.inr ⟨e, hkeeps⟩)
    · exact wp_mono (wp_trivial _ _) (fun _ _ _ h => absurd ⟨h.registered, h.attached⟩ hop)
        (fun _ _ _ h => absurd ⟨h.registered, h.attached⟩ hop) fun _ _ _ => trivial

/-- The frames as they are built in a session whose selected thread is stopped. -/
theorem liveInspectionFrames_value {frames : List InspectionFrameContext}
    (h : (liveInspectionFrames maps files preferred maxFrames s).value? = some frames) :
    buildInspectionFrames (s.tracee maps) files preferred maxFrames = .ok frames := by
  have hwp : wp (liveInspectionFrames maps files preferred maxFrames)
      ⟨fun frames _ => buildInspectionFrames (s.tracee maps) files preferred maxFrames = .ok frames,
        fun _ _ => True, fun _ _ => True⟩ s := by
    simp only [liveInspectionFrames, wp_bind, wp_view, wp_when]
    have hbuild : ∀ faults, wp (ofExcept (ω := WaitCall) (σ := Session) (buildInspectionFrames
        ({ s with faults }.tracee maps) files preferred maxFrames))
        ⟨fun frames _ => buildInspectionFrames (s.tracee maps) files preferred maxFrames =
          .ok frames, fun _ _ => True, fun _ _ => True⟩ { s with faults } := by
      intro faults
      rw [wp_ofExcept]
      split
      · assumption
      · trivial
    split
    · simp only [registers, wp_bind]
      refine wp_stoppedTid (fun _ _ _ => ?_) fun _ _ => trivial
      exact Lowlevel.wp_getRegisters (fun faults => hbuild faults) fun _ _ _ => trivial
    · exact hbuild s.faults
  cases hx : liveInspectionFrames maps files preferred maxFrames s with
  | returned a t =>
    rw [hx] at h
    cases h
    exact wp_returned hwp hx
  | raised e t => rw [hx] at h; cases h
  | blocked w t => rw [hx] at h; cases h

/-- When no request fails, a stopped thread's frames are those of `buildInspectionFrames`. -/
theorem value_liveInspectionFrames {frames : List InspectionFrameContext}
    (hready : s.dbg.process.Ready)
    (h : buildInspectionFrames (s.tracee maps) files preferred maxFrames = .ok frames) :
    (liveInspectionFrames maps files preferred maxFrames (s.facing s.script [])).value? =
      some frames := by
  have hwp : wp (liveInspectionFrames maps files preferred maxFrames)
      ⟨fun frames' _ => frames' = frames, fun _ _ => False, fun _ _ => False⟩
      (s.facing s.script []) := by
    have hbuild : wp (ofExcept (ω := WaitCall) (σ := Session) (buildInspectionFrames
        ((s.facing s.script []).tracee maps) files preferred maxFrames))
        ⟨fun frames' _ => frames' = frames, fun _ _ => False, fun _ _ => False⟩
        (s.facing s.script []) := by
      rw [wp_ofExcept, show (s.facing s.script []).tracee maps = s.tracee maps from rfl, h]
    simp only [liveInspectionFrames, wp_bind, wp_view, wp_when]
    split
    · simp only [registers, wp_bind]
      refine wp_stoppedTid (fun _ _ _ => hbuild) fun _ hnot => hnot hready
    · exact hbuild
  obtain ⟨frames', t, hx, rfl⟩ := returned_of_wp hwp
  rw [hx]
  rfl

/-- A frame that is accepted is the one that would be built now. -/
theorem accepted_frame_current {frames : List InspectionFrameContext}
    (hs : LiveRun tracees (fun _ _ _ _ => True) Started s)
    (hbuild : (liveInspectionFrames maps files preferred maxFrames s).value? = some frames)
    (hframe : frame ∈ frames)
    (hread : s.BuiltFrom maps files preferred maxFrames frame.index R)
    (hrun : LiveRun tracees (KeepsFrame frame R) (· = s) t)
    (hvalid : (validateInspectionFrame frame t).value? = some ()) :
    ∃ frames', (liveInspectionFrames maps files preferred maxFrames
        (t.facing t.script [])).value? = some frames' ∧ frames'[frame.index]? = some frame := by
  have hbuild := liveInspectionFrames_value hbuild
  obtain ⟨hplace, hpid, htid, hstop, hrip, hrsp, hrbp⟩ := getElem_index hbuild hframe
  have haccepts := accepts_of_validateInspectionFrame hvalid
  have hstill : s.StillAt frame R t := by
    refine (stillAt_of_run hs.counted hstop hrun).resolve_left fun hlater => ?_
    rw [haccepts.stop] at hlater
    exact lt_irrefl _ hlater
  -- the memory of the thread, as far as the frame depends on it
  have hcurrent : t.dbg.process.currentTid = s.dbg.process.currentTid :=
    haccepts.tid.symm.trans htid
  have htid' : frame.tid = s.dbg.process.currentTid := htid
  have hmemory : s.frameAt maps files preferred maxFrames
      (memoryOf t t.dbg.process.currentTid) frame.index = some frame := by
    rw [hread _ fun a ha => ?_]
    · unfold Session.frameAt
      rw [show ({ s.tracee maps with
        readMemory := memoryReader (memoryOf s s.dbg.process.currentTid) } : Tracee) =
          s.tracee maps from rfl, hbuild]
      exact hplace
    · rw [hcurrent, ← htid']
      exact hstill.memory a ha
  unfold Session.frameAt at hmemory
  cases hrebuilt : buildInspectionFrames { s.tracee maps with
      readMemory := memoryReader (memoryOf t t.dbg.process.currentTid) } files preferred
      maxFrames with
  | error e => rw [hrebuilt] at hmemory; cases hmemory
  | ok rebuilt =>
    rw [hrebuilt] at hmemory
    obtain ⟨context, more, hcontext, rfl, -, hother⟩ := buildInspectionFrames_ok hrebuilt
    -- the registers of the thread, as far as the frame depends on them
    have hregs : SameRegisters frame.index (s.world.regs s.dbg.process.currentTid)
        (t.world.regs s.dbg.process.currentTid) := by
      rw [← htid']
      exact hstill.regs
    have hnow : t.world.regs s.dbg.process.currentTid = t.world.regs t.dbg.process.currentTid := by
      rw [hcurrent]
    have hsp : (t.world.regs s.dbg.process.currentTid).rsp =
        (s.world.regs s.dbg.process.currentTid).rsp := by
      rw [hnow, haccepts.rsp]
      exact hrsp
    have hbp : (t.world.regs s.dbg.process.currentTid).rbp =
        (s.world.regs s.dbg.process.currentTid).rbp := by
      rw [hnow]
      exact haccepts.rbp _ hrbp
    have hcursor : (t.world.regs s.dbg.process.currentTid).cursor =
        (s.world.regs s.dbg.process.currentTid).cursor := by
      rw [UserRegs.cursor, UserRegs.cursor, hregs.1, hregs.2.1, hsp, hbp]
    have hthen := hother (t.world.regs s.dbg.process.currentTid) hcursor
    have htracee : t.tracee maps = { s.tracee maps with
        registers := t.world.regs s.dbg.process.currentTid
        readMemory := memoryReader (memoryOf t t.dbg.process.currentTid) } := by
      have hstate : t.dbg.process.state = s.dbg.process.state :=
        haccepts.ready.stopped.trans (currentInspectionFrame_ok hcontext).1.symm
      have hsequence : t.dbg.stopInfo.sequence = s.dbg.stopInfo.sequence :=
        hstill.stop.trans hstop
      simp only [Session.tracee, hstate, hstill.pid, hcurrent, hsequence, hstill.reports]
    refine ⟨_, value_liveInspectionFrames haccepts.ready (htracee ▸ hthen), ?_⟩
    cases hindex : frame.index with
    | zero =>
      rw [hindex] at hmemory
      have hframe : context = frame := Option.some.inj hmemory
      have hall := hregs.2.2 hindex
      rw [hsp, hbp] at hall
      rw [hall, ← hframe]
      obtain ⟨-, module, -, rfl⟩ := currentInspectionFrame_ok hcontext
      rfl
    | succ j =>
      rw [hindex] at hmemory
      exact hmemory

end Accepted

/-! ## Inside a call -/

/-- A session stopped inside a call that returns to `0x1020`. -/
def Session.inCall : Session :=
  Session.launch 10 (fun a => (callStack 0x20)[(a - 0x7000).toNat]?) callRegisters

def callMaps : Maps := fun _ _ => some [⟨0x1000, 0x2000, 0, "/bin/call"⟩]

/-- The frame of the caller. -/
def callCaller : InspectionFrameContext :=
  ((Session.inCall.tracee callMaps).innermostFrame "/bin/call").caller 1 (callCursor 0x20)
    "/bin/call"

def callFrames (s : Session) : Option (List InspectionFrameContext) :=
  (liveInspectionFrames callMaps callFiles ⟨callElf, callCfi⟩ 64 s).value?

theorem started_inCall : Started Session.inCall := started_launch (by decide) _ _

/-- The session after an operation. -/
def Session.live (s : Session) (op : LiveOperation) : Session :=
  (op.run anyTracees (s.facing [] [])).state

theorem accepted_frame_current_call : ∃ frames', callFrames
    ((Session.inCall.live (.setRegister "rax" 5)).facing [] []) = some frames' ∧
      frames'[1]? = some callCaller := by
  have hset : (LiveOperation.setRegister "rax" 5).run anyTracees (Session.inCall.facing [] []) =
      .returned () (Session.inCall.live (.setRegister "rax" 5)) := rfl
  have hbuild : callFrames Session.inCall = some
      [(Session.inCall.tracee callMaps).innermostFrame "/bin/call", callCaller] := by
    decide +kernel
  have hspares : (LiveOperation.setRegister "rax" 5).Spares callCaller Set.univ
      Session.inCall := by
    refine ⟨fun _ _ h => h, fun _ regs hassigns => ?_⟩
    have hassigns : some { Session.inCall.world.regs 10 with rax := 5 } = some regs := hassigns
    cases hassigns
    exact ⟨rfl, rfl, by rintro ⟨⟩⟩
  refine accepted_frame_current (.start started_inCall) hbuild (by simp) (fun m hm => ?_)
    (.returned (.start rfl) hset ⟨rfl, trivial, by simp, fun _ => hspares⟩) (by decide +kernel)
  rw [funext fun a => hm a trivial]

/-- Overwriting the return address moves the caller to `0x1040`, and the frame that still says
`0x1020` is accepted. -/
theorem stale_frame_accepted : ∃ frames t, Started Session.inCall ∧
    callFrames Session.inCall = some frames ∧ callCaller ∈ frames ∧
      LiveRun anyTracees (fun _ op _ _ => op.detaches = false) (· = Session.inCall) t ∧
      (validateInspectionFrame callCaller t).value? = some () ∧
      callCaller.runtimePc = 0x1020 ∧
      ((callFrames t).bind (·[callCaller.index]?)).map (·.runtimePc) = some 0x1040 := by
  have hwrite : (LiveOperation.debugger (.writeMemory 0x7008 [0x40])).run anyTracees
      (Session.inCall.facing [] []) =
      .returned () (Session.inCall.live (.debugger (.writeMemory 0x7008 [0x40]))) := rfl
  exact ⟨[(Session.inCall.tracee callMaps).innermostFrame "/bin/call", callCaller], _,
    started_inCall, by decide +kernel, by simp, .returned (.start rfl) hwrite rfl,
    by decide +kernel, by decide +kernel, by decide +kernel⟩

end MiniDebugger
