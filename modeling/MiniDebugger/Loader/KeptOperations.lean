import MiniDebugger.Loader.Accounting

/-!
# Operations that keep the account

Resuming keeps the account whatever the tracee does. Adding a breakpoint keeps it where the tracee
has no `INT3` of its own, removing one unless the process is running, and discarding one if its
`INT3` is no longer in the memory.
-/

namespace MiniDebugger

open Command
open Function (update update_self update_of_ne)
open Std (ExtTreeMap)

section Operations

variable {start : Pid → Memory} {tracees : Tracees} {s t : Session} {tid : Pid}

/-! ## Resuming -/

theorem Session.Kept.resumed (h : s.Kept start) (hstate : s.dbg.process.state = .stopped)
    (hin : s.dbg.process.currentTid ∈ s.dbg.process.taskStates) (kind : ResumeKind)
    (signal : Nat) (signals : ExtTreeMap Pid Nat) (faults : List (Option Nat)) :
    (s.resumed kind tid signal signals faults).Watching start := by
  have hrun := h.markRunning (.inl hstate) tid
  exact ⟨⟨hrun.policy, hrun.alone, hrun.group, hrun.accounted⟩,
    Process.live_markRunning (.inl hstate), _, Process.mem_markRunning.mpr hin⟩

theorem keeps_resumeAndWait (h : s.Kept start) {kind : ResumeKind} {policy : SignalPolicy} :
    wp (resumeAndWait tracees kind policy) (keeping start) s := by
  refine wp_resumeAndWait (fun faults e => ⟨h.policy, h.alone, h.group, h.accounted⟩) ?_
  intro faults signal hstate _ htask
  exact keeps_waitAndClassify (h.resumed hstate (mem_of_taskState htask) _ _ _ _)

/-- Putting the mark of a displaced breakpoint back. -/
theorem keeps_finishDisplacedStep {pending : PendingBreakpointStep} {exposeSingleStep : Bool}
    {info : StopInfo} (h : s.Kept start) :
    wp (finishDisplacedStep pending exposeSingleStep info) (keeping start) s := by
  refine wp_finishDisplacedStep ?_ ?_ ?_
  · intro tid bp faults stopInfo hthrough _ hbp _
    have hin : tid ∈ s.dbg.process.taskStates := by
      rcases hthrough with ⟨htask, rfl⟩ | ⟨-, htask, rfl⟩ <;> exact mem_of_taskState htask
    refine ⟨h.policy, h.alone, h.group, fun hlive => ?_⟩
    have := (h.accounted hlive).setInstalled hbp true int3 (by rintro ⟨⟩)
    unfold Session.poke
    rw [h.group.space hin]
    show Accounted _ (update s.world.memory s.dbg.process.pid _ s.dbg.process.pid) _
    rwa [update_self]
  · exact fun stopInfo _ => ⟨h.policy, h.alone, h.group, h.accounted⟩
  · exact fun faults e _ => ⟨h.policy, h.alone, h.group, h.accounted⟩

theorem keeps_stepOver {pending : PendingBreakpointStep} {exposeSingleStep : Bool}
    (h : s.Kept start) (hstate : s.dbg.process.state = .stopped)
    (hin : s.dbg.process.currentTid ∈ s.dbg.process.taskStates) :
    wp (stepOverPendingBreakpoint tracees pending exposeSingleStep) (keeping start) s := by
  refine wp_stepOverPendingBreakpoint (fun faults e => ⟨h.policy, h.alone, h.group, h.accounted⟩) ?_
  intro faults
  refine wp_mono (keeps_waitAndClassify (h.resumed hstate hin _ _ _ _)) (fun info t ht => ?_)
    (fun _ _ ht => ht) (fun _ _ _ => trivial)
  dsimp only
  split
  · exact ht
  · exact keeps_finishDisplacedStep ht

theorem keeps_continueExecution (h : s.Kept start) {policy : SignalPolicy} :
    wp (continueExecution tracees policy) (keeping start) s := by
  refine wp_continueExecution (fun e => h) (fun _ => keeps_resumeAndWait h) ?_
  intro pending _ _ hstate htask
  refine wp_mono (keeps_stepOver h hstate (mem_of_taskState htask)) (fun info t ht => ?_)
    (fun _ _ ht => ht) (fun _ _ _ => trivial)
  dsimp only
  split
  · exact ht
  · exact keeps_resumeAndWait ht

theorem keeps_singleStep (h : s.Kept start) {policy : SignalPolicy} :
    wp (singleStep tracees policy) (keeping start) s :=
  wp_singleStep (fun _ => h) (fun _ => keeps_resumeAndWait h)
    fun _ _ _ hstate htask => keeps_stepOver h hstate (mem_of_taskState htask)

/-! ## The breakpoint table -/

theorem keeps_addBreakpoint {address : Addr} (h : s.Kept start)
    (hown : ownMemory start s.history s.dbg.process.pid address ≠ some int3) :
    wp (addBreakpoint address) (keeping start) s := by
  refine wp_addBreakpoint ?_ (fun faults e => ⟨h.policy, h.alone, h.group, h.accounted⟩)
  intro faults original _ hstate htask hnew _ hbyte
  have hspace := h.group.space (mem_of_taskState htask)
  rw [hspace] at hbyte
  refine ⟨h.policy, h.alone, h.group, fun _ => ?_⟩
  have := (h.accounted (.inl hstate)).insert s.dbg.nextBreakpointId hnew hbyte hown
  unfold Session.poke
  rw [hspace]
  show Accounted _ (update s.world.memory s.dbg.process.pid _ s.dbg.process.pid) _
  rwa [update_self]

theorem Session.Kept.eraseBreakpoint (h : s.Kept start) {id : Nat} {address : Addr}
    {memory : Pid → Memory} (faults : List (Option Nat))
    (hclear : s.dbg.process.live → ¬Planted (memory s.dbg.process.pid)
      (ownMemory start s.history s.dbg.process.pid) address)
    (hrest : ∀ a, a ≠ address → memory s.dbg.process.pid a = s.world.memory s.dbg.process.pid a) :
    Session.Kept start { s with
      faults
      world := { s.world with memory }
      dbg := (s.dbg.clearPendingStep address).eraseBreakpoint id address } := by
  have herase := fun hlive => (h.accounted hlive).erase (hclear hlive) hrest
  unfold Debugger.clearPendingStep
  split <;> exact ⟨h.policy, h.alone, h.group, herase⟩

theorem keeps_removeBreakpoint {id : Nat} (h : s.Kept start)
    (hstate : s.dbg.process.state ≠ .running) :
    wp (removeBreakpoint id) (keeping start) s := by
  refine wp_removeBreakpoint (fun _ => h) ?_ ?_
    (fun faults e => ⟨h.policy, h.alone, h.group, h.accounted⟩)
  · intro address bp faults _ hbp _ hstopped htask
    have hspace := h.group.space (mem_of_taskState htask)
    unfold Session.poke
    rw [hspace]
    refine h.eraseBreakpoint faults (fun hlive hplanted => ?_) fun a hne => ?_
    · rw [Planted, update_self, update_self] at hplanted
      exact (h.accounted hlive).saved address bp hbp (Option.some.inj hplanted.1)
    · rw [update_self, update_of_ne hne]
  · intro address _ hnot
    refine h.eraseBreakpoint s.faults (fun hlive hplanted => ?_) fun a _ => rfl
    obtain ⟨bp, hbp, hin⟩ := (h.accounted hlive).owned address hplanted
    exact hnot bp hbp ⟨hin, hlive.resolve_right hstate⟩

theorem keeps_discardBreakpoint {id : Nat} (h : s.Kept start)
    (hgone : ∀ a : Addr, s.dbg.breakpointIds[id]? = some a →
      s.world.memory s.dbg.process.pid a ≠ some int3) :
    wp (discardBreakpoint id) (keeping start) s := by
  simp only [discardBreakpoint, wp_bind, wp_view]
  rcases hid : s.dbg.breakpointIds[id]? with _ | address
  · exact h
  · simp only [wp_bind, wp_modifyDebugger, wp_pure]
    exact h.eraseBreakpoint s.faults
      (fun _ hplanted => hgone address hid hplanted.1) fun a _ => rfl

theorem keeps_readMemory {address : Addr} {length : Nat} (h : s.Kept start) :
    wp (readMemory address length) (keeping start) s := by
  have hwords : ∀ n offset (t : Session), t.Kept start →
      wp (Lowlevel.readMemory.words s.dbg.process.currentTid address length n offset)
        (keeping start) t := by
    intro n
    induction n with
    | zero => exact fun offset t ht => ht
    | succ n ih =>
      intro offset t ht
      simp only [Lowlevel.readMemory.words, wp_bind]
      refine Lowlevel.wp_peekWord (fun _ faults => ?_)
        (fun faults e _ => ⟨ht.policy, ht.alone, ht.group, ht.accounted⟩)
      exact wp_mono (ih _ _ ⟨ht.policy, ht.alone, ht.group, ht.accounted⟩) (fun _ _ hu => hu)
        (fun _ _ hu => hu) (fun _ _ _ => trivial)
  simp only [readMemory, wp_bind]
  exact wp_stoppedTid (fun _ _ _ => hwords _ _ s h) (fun what _ => h)

/-! ## The other operations -/

theorem keeps_addWriteWatchpoint {address : Addr} {length : Nat} (h : s.Kept start) :
    wp (addWriteWatchpoint address length) (keeping start) s := by
  refine wp_addWriteWatchpoint ?_ (fun t e ht => h.alike ht)
  rintro t snapshot ⟨_, _, _, rfl⟩ - -
  exact ⟨h.policy, h.alone, h.group, h.accounted⟩

theorem keeps_removeWatchpoint {id : Nat} (h : s.Kept start) :
    wp (removeWatchpoint id) (keeping start) s := by
  refine wp_removeWatchpoint h ?_ (fun t e ht => h.alike ht)
  rintro t ⟨_, _, _, rfl⟩
  exact ⟨h.policy, h.alone, h.group, h.accounted⟩

theorem keeps_selectThread (h : s.Kept start) : wp (selectThread tid) (keeping start) s :=
  wp_selectThread (fun _ => ⟨h.policy, h.alone, h.group, h.accounted⟩) fun _ => h

theorem kept_started (h : Started s) : s.Kept s.world.memory := by
  have table : ∀ {m : Memory}, Accounted ∅ m m := fun {m} =>
    accounted_empty fun a ⟨hbyte, hown⟩ => hown hbyte
  cases h with
  | launch pid path s hpos hdbg htasks hstopped hknown hhistory =>
    refine ⟨by rw [hdbg]; rfl, by rw [hdbg]; rfl, fun tid htid => ?_, fun _ => ?_⟩
    · rw [hdbg] at htid ⊢
      have htid : tid = pid := by
        simp only [launched, Process.single, Process.singleTask] at htid
        grind
      rw [htid, htasks, getElem?_eachTask, if_pos List.mem_cons_self]
      exact ⟨rfl, hpos⟩
    · rw [hdbg, hhistory]
      exact table
  | attach pid tids path s hpos htids hdbg htasks hstopped hknown hhistory =>
    refine ⟨by rw [hdbg]; rfl, by rw [hdbg]; rfl, fun tid htid => ?_, fun _ => ?_⟩
    · rw [hdbg] at htid ⊢
      have htid : tid ∈ pid :: tids := by
        have := ExtTreeMap.mem_iff_isSome_getElem?.mp htid
        simp only [attached, getElem?_eachTask] at this
        by_contra hout
        simp [hout] at this
      rw [htasks, getElem?_eachTask, if_pos htid]
      refine ⟨rfl, ?_⟩
      rcases List.mem_cons.mp htid with rfl | hmem
      · exact hpos
      · exact htids tid hmem
    · rw [hdbg, hhistory]
      exact table

end Operations

end MiniDebugger
