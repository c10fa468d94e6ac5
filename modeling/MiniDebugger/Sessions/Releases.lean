import MiniDebugger.Memory.FailedDetach
import MiniDebugger.Sessions.Bytes
import MiniDebugger.Sessions.Numbering

/-!
# Processes the debugger lets go of

At a fork the debugger keeps the parent, the child or both. A process it does not keep goes on
without a trace of the debugger: its memory is that of the process which is kept, with the saved
bytes in place of the marks, and the debug registers are those the watchpoint displaced. A child
that is kept has the watchpoint of its parent. A `detach` that returns leaves as little behind.
-/

namespace MiniDebugger

open Command
open Function (update update_self update_of_ne)
open Overlay
open Lowlevel (memoryOf)

/-! ## Bytes -/

/-- Storing the saved bytes gives the memory as the program sees it. -/
theorem storeCells_armedCells (table : Std.ExtTreeMap Addr Breakpoint) (m : Memory) :
    storeCells m (armedCells table.toList) = logical (patches table) m := by
  have hmem : ∀ a b, (a, b) ∈ armedCells table.toList ↔
      ∃ bp, table[a]? = some bp ∧ bp.installed = true ∧ bp.originalByte = b := by
    intro a b
    simp only [armedCells, List.mem_map, List.mem_filter, Prod.exists, Prod.mk.injEq,
      Std.ExtTreeMap.mem_toList_iff_getElem?_eq_some]
    grind
  funext a
  have hkey : a ∈ (armedCells table.toList).map Prod.fst ↔
      ∃ bp, table[a]? = some bp ∧ bp.installed = true := by
    simp only [List.mem_map, Prod.exists, hmem]
    grind
  rw [storeCells_apply (f := fun a => (table[a]?).map (·.originalByte)) fun cell hcell => ?_]
  · simp only [logical, patches, hkey]
    rcases table[a]? with _ | bp
    · simp [seen]
    · cases hin : bp.installed <;> simp [seen, hin]
  · obtain ⟨bp, hbp, -, hbyte⟩ := (hmem cell.1 cell.2).mp hcell
    simp [hbp, hbyte]

section Effects

variable {s : Session} {tid parent child : Pid}

theorem wp_writeEach (entries : List (Addr × Breakpoint)) :
    wp (forEach (fun entry => if entry.2.installed then
        Lowlevel.writeByte tid entry.1 entry.2.originalByte else pure ()) entries)
      ⟨fun _ t => ∃ faults, t = { s.stored tid (armedCells entries) with faults },
        fun _ _ => True, fun _ _ => False⟩ s := by
  induction entries generalizing s with
  | nil => exact ⟨s.faults, by simp [armedCells]⟩
  | cons entry entries ih =>
    simp only [forEach, wp_bind, wp_ite, wp_pure]
    split
    · rename_i hin
      have harmed : armedCells (entry :: entries) =
          (entry.1, entry.2.originalByte) :: armedCells entries := by
        simp [armedCells, hin]
      refine Lowlevel.wp_writeByte (fun faults _ => ?_) fun _ _ _ => trivial
      refine wp_mono (ih (s := { s.poke tid entry.1 entry.2.originalByte with faults })) ?_
        (fun _ _ _ => trivial) fun _ _ h => h
      rintro _ t ⟨faults, rfl⟩
      refine ⟨faults, ?_⟩
      rw [harmed, Session.stored_poke tid (entry.1, entry.2.originalByte)]
    · rename_i hin
      have harmed : armedCells (entry :: entries) = armedCells entries := by
        simp [armedCells, hin]
      rw [harmed]
      exact ih

/-- The memory of `tid` without the marks. -/
def Session.unmarked (s : Session) (tid : Pid) : Pid → Memory :=
  update s.world.memory (Lowlevel.space s.world tid)
    (logical (patches s.dbg.breakpointsByAddress) (memoryOf s tid))

theorem wp_writeOriginalBytes_unmarked {Q : Post WaitCall Exception Session Unit}
    (returned : ∀ faults,
      Q.returned () { s with faults, world := { s.world with memory := s.unmarked tid } })
    (raised : ∀ e t, Q.raised e t) : wp (writeOriginalBytes tid) Q s := by
  simp only [writeOriginalBytes, wp_bind, wp_view]
  refine wp_mono (wp_writeEach _) ?_ (fun e t _ => raised e t) fun _ _ h => h.elim
  rintro _ t ⟨faults, rfl⟩
  rw [Session.stored, storeCells_armedCells]
  exact returned faults

/-! ## Debug registers -/

/-- Slot 0 of `tid` has been programmed. -/
structure SlotSet (debug debug' : Pid → Nat → Word) (tid : Pid) (dr0 dr6 dr7 : Word) : Prop where
  address : debug' tid 0 = dr0
  status : debug' tid 6 = dr6
  control : debug' tid 7 = dr7
  others : ∀ p, p ≠ tid → debug' p = debug p

theorem wp_writeDebugSlot_set {disabled dr0 dr6 dr7 : Word}
    {Q : Post WaitCall Exception Session Unit}
    (returned : ∀ faults debug, SlotSet s.world.debug debug tid dr0 dr6 dr7 →
      Q.returned () { s with faults, world := { s.world with debug } })
    (raised : ∀ e t, Q.raised e t) : wp (writeDebugSlot tid disabled dr0 dr6 dr7) Q s := by
  simp only [writeDebugSlot, Lowlevel.setDebugRegister, wp_bind, Lowlevel.wp_modifyWorld]
  refine Lowlevel.wp_attempt (fun _ => ?_) fun _ _ => raised _ _
  refine Lowlevel.wp_attempt (fun _ => ?_) fun _ _ => raised _ _
  refine Lowlevel.wp_attempt (fun _ => ?_) fun _ _ => raised _ _
  refine Lowlevel.wp_attempt (fun faults => ?_) fun _ _ => raised _ _
  refine returned faults _ ⟨?_, ?_, ?_, fun p hp => ?_⟩
  · simp
  · simp
  · simp
  · simp [hp]

theorem wp_replaceDebugSlot_set {dr0 dr6 dr7 : Word} {Q : Post WaitCall Exception Session Unit}
    (returned : ∀ faults debug, SlotSet s.world.debug debug tid dr0 dr6 dr7 →
      Q.returned () { s with faults, world := { s.world with debug } })
    (raised : ∀ e t, Q.raised e t) : wp (replaceDebugSlot tid dr0 dr6 dr7) Q s := by
  simp only [replaceDebugSlot, Lowlevel.getDebugRegister, wp_bind]
  refine Lowlevel.wp_attempt (fun _ => ?_) fun _ _ => raised _ _
  simp only [wp_read]
  exact wp_writeDebugSlot_set (fun faults debug h => returned faults debug h) raised

/-- The child has the slot of its parent, with no hit recorded. -/
theorem wp_copyDebugSlot_set {Q : Post WaitCall Exception Session Unit}
    (returned : ∀ faults debug, SlotSet s.world.debug debug child (s.world.debug parent 0)
        (s.world.debug parent 6 &&& ~~~dr6Breakpoint0) (s.world.debug parent 7) →
      Q.returned () { s with faults, world := { s.world with debug } })
    (raised : ∀ e t, Q.raised e t) : wp (copyDebugSlot parent child) Q s := by
  simp only [copyDebugSlot, Lowlevel.getDebugRegister, wp_bind]
  refine Lowlevel.wp_attempt (fun _ => ?_) fun _ _ => raised _ _
  refine Lowlevel.wp_attempt (fun _ => ?_) fun _ _ => raised _ _
  refine Lowlevel.wp_attempt (fun _ => ?_) fun _ _ => raised _ _
  exact wp_replaceDebugSlot_set returned raised

/-! ## Letting go -/

/-- `released` is no longer traced and shows nothing of the debugger: its memory is that of `kept`
with the saved bytes in place of the marks, and if `owner` has the watchpoint, the debug registers
are those it displaced. -/
structure Session.LetGo (t : Session) (released kept owner : Pid) : Prop where
  active : t.dbg.process.pid = kept
  apart : released ≠ kept
  untraced : released ∉ t.world.tasks
  bytes : t.world.memory released =
    logical (patches t.dbg.breakpointsByAddress) (t.world.memory kept)
  slot : ∀ snapshot, t.dbg.watchpointRegisterSnapshot = some snapshot → snapshot.tid = owner →
    t.world.debug released 0 = snapshot.dr0 ∧ t.world.debug released 6 = snapshot.dr6 ∧
      t.world.debug released 7 = snapshot.dr7

/-- `tid` has the debug slot of its parent, with no hit recorded. -/
structure Session.Inherits (t : Session) (slot : Nat → Word) (tid : Pid) : Prop where
  address : t.world.debug tid 0 = slot 0
  status : t.world.debug tid 6 = slot 6 &&& ~~~dr6Breakpoint0
  control : t.world.debug tid 7 = slot 7

/-- The fork of `tid`, which had the debug registers `slot`, as it is reported. -/
inductive Session.Splits (t : Session) (tid parent child : Pid) (slot : Nat → Word)
    (info : StopInfo) : Prop
  | parent (hinfo : info = processEventInfo .fork tid parent child false info.sequence)
      (released : t.LetGo child parent tid)
  | child (hinfo : info = processEventInfo .fork child parent child false info.sequence)
      (released : t.LetGo parent child child)
      (watched : t.dbg.watchpointRegisterSnapshot ≠ none → t.Inherits slot child)
  | both (domain : RetainedProcessDomain)
      (hinfo : info = processEventInfo .fork tid parent child true info.sequence)
      (retained : t.dbg.retainedProcesses[child]? = some domain)
      (bytes : t.world.memory child = t.world.memory parent)
      (unarmed : t.dbg.breakpointsByAddress = ∅ ∧ domain.breakpointsByAddress = ∅)
      (watched : domain.watchpointRegisterSnapshot ≠ none → t.Inherits slot child)

theorem wp_disarmChild_set {Q : Post WaitCall Exception Session Unit}
    (returned : ∀ faults debug,
      (∀ snapshot, s.dbg.watchpointRegisterSnapshot = some snapshot → snapshot.tid = tid →
        SlotSet s.world.debug debug child snapshot.dr0 snapshot.dr6 snapshot.dr7) →
      Q.returned () { s with faults, world := { s.world with debug } })
    (raised : ∀ e t, Q.raised e t) : wp (disarmChild tid child) Q s := by
  simp only [disarmChild, wp_bind, wp_view]
  rcases hsnap : s.dbg.watchpointRegisterSnapshot with _ | snapshot
  · exact returned s.faults s.world.debug (by simp [hsnap])
  · simp only [wp_ite, wp_pure]
    split
    · refine wp_replaceDebugSlot_set (fun faults debug hset => returned faults debug ?_) raised
      rintro _ hsome -
      cases hsnap.symm.trans hsome
      exact hset
    · rename_i hother
      refine returned s.faults s.world.debug fun _ hsome htid => ?_
      cases hsnap.symm.trans hsome
      exact absurd htid hother

theorem wp_detachAndRethrow_raises {α : Type} {e : Exception}
    {Q : Post WaitCall Exception Session α}
    (raised : ∀ e t, Q.raised e t) : wp (detachAndRethrow child e) Q s := by
  simp only [detachAndRethrow, wp_bind, wp_handle]
  exact Lowlevel.wp_detach (fun _ => raised _ _) fun _ _ _ => raised _ _

theorem wp_killAndRethrow_raises {α : Type} {e : Exception} {Q : Post WaitCall Exception Session α}
    (raised : ∀ e t, Q.raised e t) : wp (killAndRethrow child e) Q s := by
  simp only [killAndRethrow, killChild, wp_bind, wp_handle]
  exact Lowlevel.wp_detach (fun _ => raised _ _) fun _ _ _ => raised _ _

/-- Policy `Parent` lets go of the child. -/
theorem splits_classifyForkParent (hspace : Lowlevel.space s.world child = child)
    (hne : child ≠ s.dbg.process.pid)
    (hcopy : s.world.memory child = s.world.memory s.dbg.process.pid) {slot : Nat → Word} :
    wp (classifyForkParent tid s.dbg.process.pid child)
      ⟨fun info t => t.Splits tid s.dbg.process.pid child slot info, fun _ _ => True,
        fun _ _ => True⟩ s := by
  simp only [classifyForkParent, releaseChild, wp_bind, wp_handle]
  refine wp_writeOriginalBytes_unmarked (fun faults => ?_)
    fun _ _ => wp_detachAndRethrow_raises fun _ _ => trivial
  refine wp_disarmChild_set (fun faults debug hslot => ?_)
    fun _ _ => wp_detachAndRethrow_raises fun _ _ => trivial
  refine Lowlevel.wp_detach (fun faults => ?_)
    fun _ _ _ => wp_detachAndRethrow_raises fun _ _ => trivial
  simp only [wp_processEventStop]
  refine .parent rfl ⟨rfl, hne, by simp, ?_, fun snapshot hsnap htid => ?_⟩
  · simp [Session.unmarked, memoryOf, hspace, hcopy, update_of_ne hne.symm]
  · have hset := hslot snapshot hsnap htid
    exact ⟨hset.address, hset.status, hset.control⟩

theorem wp_restoreWatchpointRegisters_set {Q : Post WaitCall Exception Session Unit}
    (unwatched : s.dbg.watchpointRegisterSnapshot = none → Q.returned () s)
    (restored : ∀ faults debug snapshot, s.dbg.watchpointRegisterSnapshot = some snapshot →
      SlotSet s.world.debug debug snapshot.tid snapshot.dr0 snapshot.dr6 snapshot.dr7 →
      Q.returned () { s with faults, world := { s.world with debug } })
    (raised : ∀ e t, Q.raised e t) : wp restoreWatchpointRegisters Q s := by
  simp only [restoreWatchpointRegisters, wp_bind, wp_view]
  rcases hsnap : s.dbg.watchpointRegisterSnapshot with _ | snapshot
  · exact unwatched hsnap
  · simp only [wp_ite, wp_bind, wp_view, wp_raise]
    split
    · exact raised _ _
    · exact wp_replaceDebugSlot_set (fun faults debug h => restored faults debug snapshot hsnap h)
        raised

theorem wp_handOver_set {Q : Post WaitCall Exception Session Unit} (hpos : 0 < child)
    (howned : ∀ snapshot, s.dbg.watchpointRegisterSnapshot = some snapshot → snapshot.tid = tid)
    (returned : ∀ faults debug requests,
      (∀ snapshot, s.dbg.watchpointRegisterSnapshot = some snapshot → ∃ copied,
        SlotSet s.world.debug copied child (s.world.debug tid 0)
          (s.world.debug tid 6 &&& ~~~dr6Breakpoint0) (s.world.debug tid 7) ∧
        SlotSet copied debug tid snapshot.dr0 snapshot.dr6 snapshot.dr7) →
      Q.returned () { s with
        faults
        dbg := s.dbg.handedOver tid child
        world := { s.world with
          debug, requests, memory := s.unmarked tid, tasks := s.world.tasks.erase tid } })
    (raised : ∀ e t, Q.raised e t) : wp (handOver tid child) Q s := by
  simp only [handOver, Lowlevel.setOptions, wp_bind, wp_view]
  refine Lowlevel.wp_attempt (fun faults => ?_) fun _ _ => raised _ _
  refine wp_writeOriginalBytes_unmarked (fun faults => ?_) raised
  dsimp only
  have adopts : ∀ {p}, s.dbg.process.adoptStoppedProcess child = .ok p →
      p = s.dbg.process.singleTask child := by
    intro p hp
    rw [Process.adoptStoppedProcess, if_neg (not_le.mpr hpos)] at hp
    exact (Except.ok.inj hp).symm
  rcases hsnap : s.dbg.watchpointRegisterSnapshot with _ | snapshot
  · simp only [Option.any_none, Option.isSome_none, wp_when, Bool.false_eq_true, if_false]
    refine Lowlevel.wp_detach (fun faults => ?_) fun _ _ _ => raised _ _
    refine wp_tryProcess (fun p hp => ?_) fun e _ => raised _ _
    cases adopts hp
    have := returned faults s.world.debug (.detach tid 0 :: s.world.requests) (by simp [hsnap])
    simpa [clearWatchpoint, Debugger.handedOver, Session.withProcess, Session.unmarked, memoryOf,
      hsnap] using this
  · simp only [Option.any_some, Option.isSome_some, wp_when, howned snapshot hsnap, decide_true,
      if_true]
    refine wp_copyDebugSlot_set (fun faults copied hcopied => ?_) raised
    refine wp_restoreWatchpointRegisters_set (fun hnone => ?_)
      (fun faults debug snapshot' hsome hset => ?_) raised
    · cases hsnap.symm.trans hnone
    · cases hsnap.symm.trans hsome
      refine Lowlevel.wp_detach (fun faults => ?_) fun _ _ _ => raised _ _
      refine wp_tryProcess (fun p hp => ?_) fun e _ => raised _ _
      cases adopts hp
      have := returned faults debug (.detach tid 0 :: s.world.requests) fun snapshot' hsome' => by
        cases hsnap.symm.trans hsome'
        exact ⟨copied, hcopied, howned snapshot hsnap ▸ hset⟩
      simpa [Debugger.handedOver, Session.withProcess, Session.unmarked, memoryOf, hsnap,
        howned snapshot hsnap] using this

/-- Policy `Child` lets go of the parent, which has a single thread. -/
theorem splits_classifyForkChild (hpos : 0 < child)
    (hspace : Lowlevel.space s.world tid = s.dbg.process.pid) (hne : child ≠ s.dbg.process.pid)
    (hcopy : s.world.memory child = s.world.memory s.dbg.process.pid)
    (howned : s.dbg.process.isSingleThread tid = true →
      ∀ snapshot, s.dbg.watchpointRegisterSnapshot = some snapshot → snapshot.tid = tid) :
    wp (classifyForkChild tid s.dbg.process.pid child)
      ⟨fun info t => t.Splits tid s.dbg.process.pid child (s.world.debug tid) info,
        fun _ _ => True, fun _ _ => True⟩ s := by
  simp only [classifyForkChild, wp_bind, wp_handle]
  refine wp_checkFollowable (fun hsingle => ?_)
    fun _ => wp_killAndRethrow_raises fun _ _ => trivial
  have hleader : tid = s.dbg.process.pid := (isSingleThread_iff hsingle).2
  refine wp_handOver_set hpos (howned hsingle) (fun faults debug requests hslot => ?_)
    fun _ _ => wp_killAndRethrow_raises fun _ _ => trivial
  simp only [wp_processEventStop]
  have hsnapshot : ∀ snapshot, (s.dbg.handedOver tid child).watchpointRegisterSnapshot =
      some snapshot → ∃ old, s.dbg.watchpointRegisterSnapshot = some old ∧
        snapshot = { old with tid := child } := by
    intro snapshot hsome
    simp only [Debugger.handedOver] at hsome
    split at hsome
    · obtain ⟨old, hold, rfl⟩ := Option.map_eq_some_iff.mp hsome
      exact ⟨old, hold, rfl⟩
    · cases hsome
  refine .child rfl ⟨rfl, hne.symm, ?_, ?_, fun snapshot hsome _ => ?_⟩ fun hwatched => ?_
  · simp [← hleader]
  · simp [Session.unmarked, memoryOf, hspace, hcopy, update_of_ne hne, Debugger.handedOver]
  · obtain ⟨old, hold, rfl⟩ := hsnapshot snapshot hsome
    obtain ⟨copied, -, hset⟩ := hslot old hold
    exact hleader ▸ ⟨hset.address, hset.status, hset.control⟩
  · obtain ⟨snapshot, hsome⟩ := Option.ne_none_iff_exists'.mp hwatched
    obtain ⟨old, hold, -⟩ := hsnapshot snapshot hsome
    obtain ⟨copied, hcopied, hset⟩ := hslot old hold
    have hkept : debug child = copied child := hset.others child (hleader ▸ hne)
    exact ⟨(congrFun hkept 0).trans hcopied.address, (congrFun hkept 6).trans hcopied.status,
      (congrFun hkept 7).trans hcopied.control⟩

theorem wp_inheritWatchpoint_set
    {Q : Post WaitCall Exception Session (Option (Watchpoint × DebugRegisterSnapshot))}
    (returned : ∀ faults debug inherited, (inherited ≠ none →
        SlotSet s.world.debug debug child (s.world.debug tid 0)
          (s.world.debug tid 6 &&& ~~~dr6Breakpoint0) (s.world.debug tid 7)) →
      Q.returned inherited { s with faults, world := { s.world with debug } })
    (raised : ∀ e t, Q.raised e t) : wp (inheritWatchpoint tid child) Q s := by
  simp only [inheritWatchpoint, wp_bind, wp_view, id]
  rcases s.dbg.watchpoint with _ | watchpoint
  · exact returned s.faults s.world.debug none (by simp)
  rcases s.dbg.watchpointRegisterSnapshot with _ | snapshot
  · exact raised _ _
  simp only [wp_bind, wp_ite, wp_raise, wp_pure]
  split
  · exact raised _ _
  · exact wp_copyDebugSlot_set (fun faults debug h => returned faults debug _ fun _ => h) raised

/-- Policy `Both` lets go of neither. -/
theorem splits_classifyForkBoth (hpos : 0 < child)
    (hcopy : s.world.memory child = s.world.memory parent) :
    wp (classifyForkBoth tid parent child)
      ⟨fun info t => t.Splits tid parent child (s.world.debug tid) info, fun _ _ => True,
        fun _ _ => True⟩ s := by
  simp only [classifyForkBoth, wp_bind, wp_handle]
  refine wp_checkRetainable (fun hok => ?_)
    fun _ => wp_killAndRethrow_raises fun _ _ => trivial
  simp only [retainChild, Lowlevel.setOptions, wp_bind]
  refine Lowlevel.wp_attempt (fun faults => ?_)
    fun _ _ => wp_killAndRethrow_raises fun _ _ => trivial
  refine wp_inheritWatchpoint_set (fun faults debug inherited hslot => ?_)
    fun _ _ => wp_killAndRethrow_raises fun _ _ => trivial
  simp only [wp_makeStop, wp_view, Process.adoptStopped, if_neg (not_le.mpr hpos), id, wp_ite,
    wp_raise, wp_bind, wp_modifyDebugger]
  split
  · exact wp_killAndRethrow_raises fun _ _ => trivial
  · have hunarmed : s.dbg.breakpointsByAddress = ∅ :=
      Std.ExtTreeMap.isEmpty_iff.mp hok.unarmed
    refine .both _ rfl Std.ExtTreeMap.getElem?_insert_self hcopy ⟨hunarmed, rfl⟩ fun hwatched => ?_
    have hset := hslot fun hnone => hwatched (by simp [hnone])
    exact ⟨hset.address, hset.status, hset.control⟩

/-- What a fork leaves behind, under each policy. -/
theorem splits_classifyFork (hgroup : Lowlevel.space s.world tid = s.dbg.process.pid)
    (hspace : Lowlevel.space s.world (s.world.message tid) = s.world.message tid)
    (hne : (s.world.message tid : Int) ≠ s.dbg.process.pid)
    (hcopy : s.world.memory (s.world.message tid) = s.world.memory s.dbg.process.pid)
    (howned : s.dbg.process.isSingleThread tid = true →
      ∀ snapshot, s.dbg.watchpointRegisterSnapshot = some snapshot → snapshot.tid = tid) :
    wp (classifyFork tid)
      ⟨fun info t => t.Splits tid s.dbg.process.pid (s.world.message tid) (s.world.debug tid) info,
        fun _ _ => True, fun _ _ => True⟩ s := by
  simp only [classifyFork, waitForUnfollowedChildStop, wp_bind, wp_view]
  refine wp_eventChild (fun faults _ h0 _ => ?_) fun _ _ => trivial
  simp only [wp_read, wp_ite, wp_raise, wp_pure]
  split
  · trivial
  have hpos : 0 < (s.world.message tid : Int) := by omega
  rcases s.dbg.forkFollowPolicy with _ | _ | _
  · exact splits_classifyForkParent (s := { s with faults }) hspace hne hcopy
  · exact splits_classifyForkChild (s := { s with faults }) hpos hgroup hne hcopy howned
  · exact splits_classifyForkBoth (s := { s with faults }) hpos hcopy

end Effects

/-! ## Stops -/

/-- If the last report was a fork, it has split the process. -/
def Session.TellsFork (t : Session) (info : StopInfo) : Prop :=
  ∀ dbg world d rest signal, t.history = .takes dbg world d :: rest →
    d.status = .stopped signal .fork →
    t.Splits d.tid (world.groupOf d) (World.child d) d.debug info

/-- A pass that may report a stop tells about forks. -/
def tellingFork : Post WaitCall Exception Session (Option StopInfo) where
  returned r t := ∀ info, r = some info → t.TellsFork info
  raised _ _ := True
  blocked _ _ := True

section Stops

variable {b : Bool} {issued : List Nat} {pending : Option PendingBreakpointStep}
  {registry : Std.ExtTreeMap Pid RetainedProcessDomain} {tracees : Tracees} {s t : Session}
  {dbg : Debugger} {world : World} {d : Delivery} {old rest : List WaitRecord} {info : StopInfo}

theorem tellsFork_other (hhistory : t.history = .takes dbg world d :: old)
    (hst : ∀ signal, d.status ≠ .stopped signal .fork) : t.TellsFork info := by
  intro dbg' world' d' rest signal hlast hfork
  cases hhistory.symm.trans hlast
  exact absurd hfork (hst signal)

/-- A fork that has been filed is seen through its classification. -/
theorem tellsFork_classifyFork {rest : List Wakeup} {call : WaitCall} {requested : Pid}
    {signal : Nat} (h : s.Waitable b issued pending registry)
    (hd : Delivered tracees requested (s.waiting call) d rest)
    (howns : ((s.waiting call).deliver d rest).owns d.tid)
    (hst : d.status = .stopped signal .fork) :
    wp (classifyFork d.tid) ⟨fun info t => t.TellsFork info, fun _ _ => True, fun _ _ => True⟩
      (((s.waiting call).deliver d rest).withProcess
        ((s.dbg.process.reportedBy d.tid).taskStopped d.tid)) := by
  have hp : s.world.possible d = true := hd.possible
  have hgroup := groupOf_of_owned h.good.tables hp hst howns
  have hmessage : (s.world.deliver d).message d.tid = d.message := World.deliver_message hst
  obtain ⟨hne, -, -⟩ := h.not_child hd hst (.inl rfl)
  have hpid : ((s.dbg.process.reportedBy d.tid).taskStopped d.tid).pid = s.world.groupOf d :=
    Process.taskStopped_pid.trans hgroup.symm
  have hfresh := World.fresh_iff.mp (World.fresh_child hp hst (.inl rfl))
  have hknown : d.tid ∈ s.world.tasks := by
    by_contra hnew
    cases World.event_of_unknown hp hst hnew
  have hself : World.child d ≠ d.tid := by
    obtain ⟨group, hin⟩ := Option.isSome_iff_exists.mp
      (Std.ExtTreeMap.isSome_getElem?_iff_mem.mpr hknown)
    exact (hfresh d.tid group hin).1.symm
  have hdebug : (s.world.deliver d).debug d.tid = d.debug := by
    simp [World.deliver, hst, World.addChild, World.stop, update_of_ne hself.symm]
  have hsplits := @splits_classifyFork (((s.waiting call).deliver d rest).withProcess
    ((s.dbg.process.reportedBy d.tid).taskStopped d.tid)) d.tid ?_ ?_ ?_ ?_ ?_
  · have hhistory : wp (classifyFork d.tid)
        ⟨fun _ t => t.history = ((s.waiting call).deliver d rest).history, fun _ _ => True,
          fun _ _ => True⟩ (((s.waiting call).deliver d rest).withProcess
            ((s.dbg.process.reportedBy d.tid).taskStopped d.tid)) := by
      refine wp_classifyFork (fun _ _ => trivial) ?_ ?_ ?_ (fun _ _ _ _ _ => trivial)
        fun _ _ _ _ _ _ _ _ => trivial
      · rintro t child childStop inherited info - - - ⟨_, _, _, rfl⟩ - - - -
        rfl
      · intro child faults sequence debug memory requests info _ _ _ _ _ _
        rfl
      · rintro child t info - - ⟨_, _, _, _, _, _, rfl, -, -⟩ -
        rfl
    refine wp_mono (wp_and hsplits hhistory) ?_ (fun _ _ _ => trivial) fun _ _ _ => trivial
    rintro info t ⟨ht, hkept⟩ dbg' world' d' rest' signal' hlast -
    have hlast : WaitRecord.takes s.dbg s.world d :: _ = .takes dbg' world' d' :: rest' :=
      hkept.symm.trans hlast
    cases hlast
    have ht : t.Splits d.tid ((s.dbg.process.reportedBy d.tid).taskStopped d.tid).pid
        ((s.world.deliver d).message d.tid) ((s.world.deliver d).debug d.tid) info := ht
    rwa [hpid, hmessage, hdebug] at ht
  · show ((s.world.deliver d).tasks[d.tid]?).getD d.tid =
      ((s.dbg.process.reportedBy d.tid).taskStopped d.tid).pid
    rw [World.deliver_tasks_self hp hst, hpid]
    rfl
  · show ((s.world.deliver d).tasks[((s.world.deliver d).message d.tid : Int)]?).getD
      ((s.world.deliver d).message d.tid) = ((s.world.deliver d).message d.tid : Int)
    rw [hmessage]
    have := World.deliver_tasks_child (w := s.world) hst (.inl rfl)
    rw [World.child] at this
    rw [this]
    rfl
  · show ((s.world.deliver d).message d.tid : Int) ≠
      ((s.dbg.process.reportedBy d.tid).taskStopped d.tid).pid
    rw [hmessage, Process.taskStopped_pid]
    exact hne
  · show (s.world.deliver d).memory ((s.world.deliver d).message d.tid) =
      (s.world.deliver d).memory ((s.dbg.process.reportedBy d.tid).taskStopped d.tid).pid
    rw [hmessage, hpid, World.deliver_memory_self fun _ _ _ _ => hgroup ▸ hne.symm]
    exact World.deliver_memory_child hst (.inl rfl)
  · intro hsingle snapshot hsnapshot
    have hmem := (h.tables_stopped hd hst hgroup).owned snapshot.tid
      (by simp [Session.filed, Session.core, Debugger.domain, show
        s.dbg.watchpointRegisterSnapshot = some snapshot from hsnapshot])
    exact ((isSingleThread_iff hsingle).1 snapshot.tid).mp hmem

theorem tellsFork_classifyEnded {event : WaitEvent}
    {processReason finalReason threadReason : StopReason}
    (hhistory : s.history = .takes dbg world d :: old)
    (hst : ∀ signal, d.status ≠ .stopped signal .fork) :
    wp (classifyEnded event processReason finalReason threadReason) tellingFork s := by
  refine wp_classifyEnded (fun _ _ _ _ _ _ => trivial) ?_ ?_ ?_ ?_
  · rintro survivor domain - - - _ ⟨⟩
    exact tellsFork_other hhistory hst
  · rintro - - _ ⟨⟩
    exact tellsFork_other hhistory hst
  · rintro - - _ ⟨⟩
  · rintro - - _ ⟨⟩
    exact tellsFork_other hhistory hst

theorem tellsFork_classifySignalStop {expectedSingleStep : Bool} {event : WaitEvent}
    (hhistory : s.history = .takes dbg world d :: old)
    (hst : ∀ signal, d.status ≠ .stopped signal .fork) :
    wp (classifySignalStop expectedSingleStep event)
      ⟨fun info t => t.TellsFork info, fun _ _ => True, fun _ _ => True⟩ s := by
  refine wp_classifySignalStop ?_ ?_ ?_ ?_ ?_ fun _ _ _ _ => trivial
  · exact fun info _ _ _ _ => tellsFork_other hhistory hst
  · exact fun info _ _ _ _ _ => tellsFork_other hhistory hst
  · rintro t info - - - - ⟨_, _, _, rfl⟩ - -
    exact tellsFork_other hhistory hst
  · rintro t info - - - - ⟨_, _, _, rfl⟩ - -
    exact tellsFork_other hhistory hst
  · rintro t - - - ⟨_, _, _, rfl⟩
    refine wp_classifyTrap ?_ ?_ fun _ _ _ _ _ => trivial
    · exact fun bp faults info _ _ _ _ _ _ => tellsFork_other hhistory hst
    · exact fun faults info _ _ _ => tellsFork_other hhistory hst

theorem tellsFork_classifyVfork {tid : Pid} :
    wp (classifyVfork tracees tid)
      ⟨fun info t => t.TellsFork info, fun _ _ => True, fun _ _ => True⟩ s := by
  refine wp_classifyVfork (fun _ _ _ => trivial) (fun _ _ => trivial) ?_
  rintro _ faults requests ⟨_, _, _, _, _, _, rfl, -, -⟩
  refine wp_awaitVforkDone (fun _ => trivial) (fun _ _ _ _ _ _ _ _ => trivial)
    (fun _ _ _ _ _ _ _ _ => trivial) ?_ trivial
  intro d rest signal faults _ _ _ hst
  exact tellsFork_other rfl fun signal' hfork => by cases hst.symm.trans hfork

theorem tellsFork_waitPass {expectedSingleStep : Bool}
    (h : s.Waitable b issued pending registry) :
    wp (waitPass tracees expectedSingleStep) tellingFork s := by
  simp only [waitPass, wp_bind]
  refine wp_waitActiveProcess (fun e => trivial) ?_
  refine wp_waitFor (fun _ => trivial) (fun _ _ _ _ _ => trivial) ?_ ?_ ?_
    (fun _ _ _ _ _ _ _ _ _ => trivial) trivial
  · intro d rest event p hd _ hend hkind _ _
    have hst : ∀ signal, d.status ≠ .stopped signal .fork := fun signal hst => by
      simp [hst, WaitStatus.isStopped] at hend
    cases hk : event.kind with
    | stopped => exact absurd hk hkind
    | exited =>
      simp only [classifyEvent, hk]
      exact tellsFork_classifyEnded rfl hst
    | signaled =>
      simp only [classifyEvent, hk]
      exact tellsFork_classifyEnded rfl hst
  · intro d rest signal event hd howns hst hne
    have hp : s.world.possible d = true := hd.possible
    have hplain : event ≠ .fork → ∀ signal, d.status ≠ .stopped signal .fork := by
      intro hnot signal' hfork
      cases hst.symm.trans hfork
      exact hnot rfl
    have later : ∀ {x : Act StopInfo} {u : Session},
        wp x ⟨fun info t => t.TellsFork info, fun _ _ => True, fun _ _ => True⟩ u →
        wp (some <$> x) tellingFork u := by
      intro x u h
      rw [wp_map]
      refine wp_mono h (fun info t ht => ?_) (fun _ _ _ => trivial) fun _ _ _ => trivial
      rintro _ ⟨⟩
      exact ht
    cases event with
    | clone => exact absurd rfl hne
    | exec =>
      refine later (wp_classifyExec (World.pos_of_possible hp) ?_ ?_ (fun _ _ _ _ => trivial)
        fun _ _ _ => trivial)
      · exact (World.deliver_message hst).trans_le (World.exec_leader hp hst).2
      · exact fun faults info sequence path _ _ => tellsFork_other rfl (hplain (by decide))
    | fork => exact later (tellsFork_classifyFork h hd howns hst)
    | vfork => exact later tellsFork_classifyVfork
    | vforkDone => trivial
    | none => exact later (tellsFork_classifySignalStop rfl (hplain (by decide)))
    | other => exact later (tellsFork_classifySignalStop rfl (hplain (by decide)))
  · intro d rest signal faults hd _ hst _ _
    simp only [classifyEvent, wp_bind]
    refine wp_classifyClone rfl (fun _ => ?_) fun _ _ => trivial
    rintro _ ⟨⟩

theorem tellsFork_waitAndClassify (htame : Tame b tracees) {expectedSingleStep : Bool}
    (hidle : expectedSingleStep = false → pending = none)
    (h : s.Waitable b issued pending registry) :
    wp (waitAndClassify tracees expectedSingleStep)
      ⟨fun info t => t.TellsFork info, fun _ _ => True, fun _ _ => True⟩ s := by
  refine wp_waitAndClassify (I := Session.Waitable b issued pending registry) (fun u hu => ?_)
    (fun _ _ => trivial) h
  refine wp_mono (wp_and (reported_waitPass htame hidle hu) (tellsFork_waitPass hu))
    (fun r t ht => ?_) (fun _ _ _ => trivial) fun _ _ _ => trivial
  cases r with
  | none => exact ht.1
  | some info => exact ht.2 info rfl

theorem tellsFork_resumeAndWait (htame : Tame b tracees) (h : s.core.Good b issued)
    (hidle : s.dbg.pendingBreakpointStep = none) {kind : ResumeKind} {policy : SignalPolicy} :
    wp (resumeAndWait tracees kind policy)
      ⟨fun info t => t.TellsFork info, fun _ _ => True, fun _ _ => True⟩ s := by
  refine wp_resumeAndWait (fun _ _ => trivial) fun faults signal hstate _ htask => ?_
  have := h.resumed hstate htask kind signal
    (s.dbg.pendingSignals.erase s.dbg.process.currentTid) faults
  rw [hidle] at this
  exact tellsFork_waitAndClassify htame (fun _ => rfl) this

/-! ## Stepping over a breakpoint -/

/-- Putting a mark back does not show. -/
theorem Session.LetGo.reinsert {released kept owner tid : Pid} (h : s.LetGo released kept owner)
    (hspace : Lowlevel.space s.world tid = s.dbg.process.pid) {address : Addr} {bp : Breakpoint}
    (hbp : s.dbg.breakpointsByAddress[address]? = some bp) (hout : bp.installed = false)
    (hbyte : s.world.memory s.dbg.process.pid address = some bp.originalByte)
    {faults : List (Option Nat)} {stopInfo : StopInfo} :
    Session.LetGo { s.poke tid address int3 with
      faults
      dbg := { s.dbg.setInstalled address true with pendingBreakpointStep := none, stopInfo } }
      released kept owner := by
  obtain ⟨rfl, hapart, huntraced, hbytes, hslot⟩ := h
  refine ⟨rfl, hapart, huntraced, ?_, hslot⟩
  have hsaved : seen (some ⟨bp.originalByte, true⟩) (some int3) =
      logical (patches s.dbg.breakpointsByAddress) (s.world.memory s.dbg.process.pid) address := by
    simp [logical, patches_eq_some hbp, seen, hout, hbyte]
  simp only [Session.poke, hspace, update_of_ne hapart, update_self, Debugger.setInstalled]
  rw [patches_setInstalled hbp, logical_update hsaved]
  exact hbytes

theorem Session.Splits.reinsert {tid parent child through : Pid} {slot : Nat → Word}
    (h : s.Splits tid parent child slot info)
    (hspace : Lowlevel.space s.world through = s.dbg.process.pid) {address : Addr}
    {bp : Breakpoint} (hbp : s.dbg.breakpointsByAddress[address]? = some bp)
    (hout : bp.installed = false)
    (hbyte : s.world.memory s.dbg.process.pid address = some bp.originalByte)
    {faults : List (Option Nat)} {stopInfo : StopInfo} :
    Session.Splits { s.poke through address int3 with
      faults
      dbg := { s.dbg.setInstalled address true with pendingBreakpointStep := none, stopInfo } }
      tid parent child slot info := by
  cases h with
  | parent hinfo released => exact .parent hinfo (released.reinsert hspace hbp hout hbyte)
  | child hinfo released watched =>
    refine .child hinfo (released.reinsert hspace hbp hout hbyte) fun hwatched => ?_
    obtain ⟨h0, h6, h7⟩ := watched hwatched
    exact ⟨h0, h6, h7⟩
  | both domain hinfo retained bytes unarmed watched =>
    simp [unarmed.1] at hbp

theorem Session.Splits.settle {tid parent child : Pid} {slot : Nat → Word}
    (h : s.Splits tid parent child slot info) {stopInfo : StopInfo} :
    Session.Splits { s with dbg := { s.dbg with pendingBreakpointStep := none, stopInfo } }
      tid parent child slot info := by
  cases h with
  | parent hinfo released =>
    obtain ⟨hactive, hapart, huntraced, hbytes, hslot⟩ := released
    exact .parent hinfo ⟨hactive, hapart, huntraced, hbytes, hslot⟩
  | child hinfo released watched =>
    obtain ⟨hactive, hapart, huntraced, hbytes, hslot⟩ := released
    refine .child hinfo ⟨hactive, hapart, huntraced, hbytes, hslot⟩ fun hwatched => ?_
    obtain ⟨h0, h6, h7⟩ := watched hwatched
    exact ⟨h0, h6, h7⟩
  | both domain hinfo retained bytes unarmed watched =>
    refine .both domain hinfo retained bytes unarmed fun hwatched => ?_
    obtain ⟨h0, h6, h7⟩ := watched hwatched
    exact ⟨h0, h6, h7⟩

theorem tellsFork_stepOver (htame : Tame true tracees) (h : s.core.Good true issued)
    {step : PendingBreakpointStep} {exposeSingleStep : Bool}
    (hstep : s.dbg.pendingBreakpointStep = some step)
    (howner : step.tid = s.dbg.process.currentTid) (hstate : s.dbg.process.state = .stopped)
    (htask : s.dbg.process.taskState s.dbg.process.currentTid = some .stopped) :
    wp (stepOverPendingBreakpoint tracees step exposeSingleStep)
      ⟨fun info t => t.TellsFork info, fun _ _ => True, fun _ _ => True⟩ s := by
  refine wp_stepOverPendingBreakpoint (fun _ _ => trivial) fun faults => ?_
  rw [howner]
  have hwait := h.resumed hstate htask .step 0 s.dbg.pendingSignals faults
  rw [hstep] at hwait
  refine wp_mono (wp_and (reported_waitAndClassify htame (by rintro ⟨⟩) hwait)
    (tellsFork_waitAndClassify htame (by rintro ⟨⟩) hwait)) (fun info t ht => ?_)
    (fun _ _ _ => trivial) fun _ _ _ => trivial
  obtain ⟨ht, htells⟩ := ht
  dsimp only
  split
  · exact htells
  refine wp_finishDisplacedStep ?_ ?_ fun _ _ _ => trivial
  · intro through bp faults stopInfo hthrough _ hbp hout dbg world d rest signal hlast hst
    have hmem : through ∈ t.dbg.process.taskStates := by
      rw [Std.ExtTreeMap.mem_iff_isSome_getElem?]
      rcases hthrough with ⟨htask, rfl⟩ | ⟨-, htask, rfl⟩ <;> exact Option.isSome_of_eq_some htask
    have hbyte := (ht.good.bytes rfl).active step.address _ (patches_eq_some hbp)
    rw [hout] at hbyte
    exact (htells dbg world d rest signal hlast hst).reinsert
      (Session.space_of_tracked ht.good.tables hmem) hbp hout hbyte
  · intro stopInfo _ dbg world d rest signal hlast hst
    exact (htells dbg world d rest signal hlast hst).settle

/-- Whatever operation reports a fork. -/
theorem tellsFork_run (htame : Tame true tracees) (h : s.core.Good true issued) (op : Operation) :
    wp (op.run tracees) ⟨fun r t => ∀ info, r = .stop info → t.TellsFork info, fun _ _ => True,
      fun _ _ => True⟩ s := by
  have told : ∀ {x : Act StopInfo},
      wp x ⟨fun info t => t.TellsFork info, fun _ _ => True, fun _ _ => True⟩ s →
      wp (Result.stop <$> x) ⟨fun r t => ∀ info, r = .stop info → t.TellsFork info,
        fun _ _ => True, fun _ _ => True⟩ s := by
    intro x h
    rw [wp_map]
    refine wp_mono h (fun info t ht => ?_) (fun _ _ _ => trivial) fun _ _ _ => trivial
    rintro _ ⟨⟩
    exact ht
  cases op with
  | continueExecution policy =>
    refine told (wp_continueExecution (fun _ => trivial)
      (fun hidle => tellsFork_resumeAndWait htame h hidle) ?_)
    intro step hstep howner hstate htask
    refine wp_mono (wp_and (reported_stepOver htame h hstep howner hstate htask)
      (tellsFork_stepOver htame h hstep howner hstate htask)) (fun info t ht => ?_)
      (fun _ _ _ => trivial) fun _ _ _ => trivial
    obtain ⟨⟨ht, hsettled⟩, htells⟩ := ht
    dsimp only
    split
    · exact htells
    · exact tellsFork_resumeAndWait htame ht.good (hsettled (not_not.mp ‹_›))
  | singleStep policy =>
    exact told (wp_singleStep (fun _ => trivial)
      (fun hidle => tellsFork_resumeAndWait htame h hidle)
      fun step hstep howner hstate htask => tellsFork_stepOver htame h hstep howner hstate htask)
  | _ =>
    simp only [Operation.run, wp_map, reduceCtorEq, false_implies, implies_true]
    exact wp_trivial _ _

end Stops

/-- In every run a fork leaves no trace in the process that is let go of: whatever operation reports
it, that process has the bytes its program had and the debug registers it had. -/
theorem forks_leave_no_trace {log : List Result} {s t : Session}
    (h : Run breakpointsKept succeeding log s) (op : Operation) (script : List Wakeup)
    (faults : List (Option Nat)) {info : StopInfo}
    (hrun : op.run breakpointsKept (s.facing script faults) = .returned (.stop info) t) :
    t.TellsFork info := by
  have hgood : (s.facing script faults).core.Good true (issuedIds log) :=
    h.good tame_breakpointsKept fun _ _ hop => ⟨hop.1, fun _ => hop.2⟩
  exact wp_returned (tellsFork_run tame_breakpointsKept hgood op) hrun info rfl

/-- A process with a breakpoint in place forks. -/
def forkReport : Delivery where
  tid := 10
  status := .stopped sigtrap .fork
  message := 11

def Session.armedFork : Session :=
  (Session.armed breakpointsKept).after breakpointsKept (.continueExecution .suppress)
    [.report forkReport]

theorem forks_leave_no_trace_armed :
    Session.armedFork.TellsFork (processEventInfo .fork 10 10 11 false 1) ∧
      Session.armedFork.reports.head?.map (·.2.status) =
        some (WaitStatus.stopped sigtrap .fork) ∧
      Session.armedFork.world.memory 10 0x1000 = some int3 ∧
      Session.armedFork.world.memory 11 0x1000 = some 0x90 := by
  refine ⟨?_, by decide +kernel, by decide +kernel, by decide +kernel⟩
  exact forks_leave_no_trace (armed_run trivial) _ _ _
    (Session.run_of_value (by decide +kernel))

/-! ## Detaching -/

section Detaching

variable {s : Session}

theorem untouched_detachProcess {signal : Nat} :
    wp (detachProcess signal) ⟨fun _ t => s.Untouched t, fun _ _ => True, fun _ _ => False⟩ s := by
  simp only [detachProcess, wp_bind, wp_view, wp_ite, wp_raise]
  split
  · trivial
  split
  · trivial
  split
  · trivial
  refine wp_mono (wp_detachTasks _ signal _ none) ?_ (fun _ _ h => h.elim) fun _ _ h => h
  rintro (_ | e) t ⟨hsame, -⟩
  · exact ⟨hsame.table, hsame.memory, hsame.pending, hsame.debug⟩
  · trivial

/-- A `detach` that returns has put back every byte and the debug registers. -/
theorem wp_detach_unmarked {tracees : Tracees} {policy : SignalPolicy} :
    wp ((Operation.detach policy).run tracees)
      ⟨fun _ t => s.dbg.process.taskState s.dbg.process.currentTid = some .stopped ∧
          t.world.memory = s.unmarked s.dbg.process.currentTid ∧
          (s.dbg.watchpointRegisterSnapshot = none → t.world.debug = s.world.debug) ∧
          ∀ snapshot, s.dbg.watchpointRegisterSnapshot = some snapshot →
            SlotSet s.world.debug t.world.debug snapshot.tid snapshot.dr0 snapshot.dr6 snapshot.dr7,
        fun _ _ => True, fun _ _ => False⟩ s := by
  simp only [Operation.run, wp_map, detach, resumeSignal, wp_bind, wp_view, wp_ite, wp_raise, id]
  split
  · trivial
  split
  · trivial
  split
  · trivial
  refine wp_stoppedTid (fun _ _ htask => ?_) fun _ _ => trivial
  simp only [restoreAllBreakpoints, wp_bind, wp_view]
  refine wp_stoppedTid (fun _ _ _ => ?_) fun _ _ => trivial
  refine wp_mono (wp_restoreEach s.dbg.process.currentTid s.dbg.breakpointsByAddress.toList) ?_
    (fun _ _ _ => trivial) fun _ _ h => h
  rintro _ t ⟨-, rfl⟩
  simp only [wp_modifyDebugger]
  have hmemory : (s.lifted s.dbg.process.currentTid
      (armedCells s.dbg.breakpointsByAddress.toList)).world.memory =
      s.unmarked s.dbg.process.currentTid := by
    simp [Session.lifted, Session.stored, Session.unmarked, storeCells_armedCells]
  refine wp_restoreWatchpointRegisters_set (fun hnone => ?_)
    (fun faults debug snapshot hsome hset => ?_) fun _ _ => trivial
  · refine wp_mono untouched_detachProcess (fun _ u hu => ?_) (fun _ _ _ => trivial) fun _ _ h => h
    refine ⟨htask, hu.memory.trans hmemory, fun _ => hu.debug, fun snapshot hsome => ?_⟩
    cases hnone.symm.trans hsome
  · refine wp_mono untouched_detachProcess (fun _ u hu => ?_) (fun _ _ _ => trivial) fun _ _ h => h
    refine ⟨htask, hu.memory.trans hmemory, fun hnone => ?_, fun snapshot' hsome' => ?_⟩
    · cases hsome.symm.trans hnone
    · cases hsome.symm.trans hsome'
      rw [hu.debug]
      exact hset

end Detaching

/-- In every run a `detach` that returns leaves no trace in the process: its memory is the one its
program sees, and its debug registers are those the watchpoint displaced. -/
theorem detach_leaves_no_trace {log : List Result} {s t : Session} (h : Run calm undetached log s)
    (policy : SignalPolicy) (script : List Wakeup) (faults : List (Option Nat)) {r : Result}
    (hrun : (Operation.detach policy).run calm (s.facing script faults) = .returned r t) :
    t.world.memory = update s.world.memory s.dbg.process.pid
        (logical (patches s.dbg.breakpointsByAddress) (s.world.memory s.dbg.process.pid)) ∧
      (s.dbg.watchpointRegisterSnapshot = none → t.world.debug = s.world.debug) ∧
      ∀ snapshot, s.dbg.watchpointRegisterSnapshot = some snapshot →
        SlotSet s.world.debug t.world.debug snapshot.tid snapshot.dr0 snapshot.dr6
          snapshot.dr7 := by
  obtain ⟨htask, hmemory, hdebug⟩ := wp_returned wp_detach_unmarked hrun
  have hspace : Lowlevel.space s.world s.dbg.process.currentTid = s.dbg.process.pid :=
    Session.space_of_tracked h.tables (mem_of_stopped htask)
  refine ⟨?_, hdebug⟩
  rw [hmemory, Session.unmarked]
  simp only [Session.facing, memoryOf, hspace]

/-- An attached process with a breakpoint and a watchpoint. -/
def Session.attachedArmed : Session :=
  (Session.attachedPage.after calm (.addBreakpoint 0x1800) []).after calm
    (.addWriteWatchpoint 0x1900 8) []

theorem detach_leaves_no_trace_attached :
    Session.attachedArmed.world.memory 10 0x1800 = some int3 ∧
    Session.attachedArmed.world.debug 10 7 ≠ 0 ∧
    (Session.attachedArmed.after calm (.detach .suppress) []).world.memory =
      update Session.attachedArmed.world.memory 10
        (logical (patches Session.attachedArmed.dbg.breakpointsByAddress)
          (Session.attachedArmed.world.memory 10)) ∧
    (Session.attachedArmed.after calm (.detach .suppress) []).world.debug 10 7 = 0 := by
  have hrun : Run calm undetached _ Session.attachedArmed :=
    ((Run.start started_attachedPage).after (.addBreakpoint 0x1800) [] (r := .breakpoint 1)
      (by decide +kernel) rfl).after (.addWriteWatchpoint 0x1900 8) [] (r := .watchpoint 1)
      (by decide +kernel) rfl
  refine ⟨by decide +kernel, by decide +kernel, ?_, by decide +kernel⟩
  exact (detach_leaves_no_trace hrun _ _ _ (Session.run_of_value (r := .done)
    (by decide +kernel))).1

end MiniDebugger
