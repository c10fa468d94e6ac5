import MiniDebugger.Debugger.Breakpoints

/-!
# What the breakpoint operations do

One rule for each operation: the states in which it can return and the states in which it can
throw.
-/

namespace MiniDebugger

open Command
open Function (update update_of_ne)
open Std (ExtTreeMap)

section Rules

variable {s : Session}

/-- Write a byte into the memory a task runs in. -/
def Session.poke (s : Session) (tid : Pid) (address : Addr) (value : Byte) : Session :=
  { s with world := { s.world with
    memory := update s.world.memory (Lowlevel.space s.world tid)
      (update (s.world.memory (Lowlevel.space s.world tid)) address (some value)) } }

/-- The selected thread is stopped. -/
structure Process.Ready (p : Process) : Prop where
  stopped : p.state = .stopped
  positive : 0 < p.currentTid
  current : p.taskState p.currentTid = some .stopped

theorem wp_stoppedTid {Q : Post WaitCall Exception Session Pid}
    (returned : s.dbg.process.state = .stopped → 0 < s.dbg.process.currentTid →
      s.dbg.process.taskState s.dbg.process.currentTid = some .stopped →
      Q.returned s.dbg.process.currentTid s)
    (raised : ∀ what, ¬s.dbg.process.Ready → Q.raised (.logicError what) s) :
    wp stoppedTid Q s := by
  simp only [stoppedTid, wp_bind, wp_view, wp_ite, wp_raise, wp_pure]
  split
  · exact raised _ fun h => absurd h.stopped ‹_›
  · rename_i hstate
    split
    · rename_i h
      exact raised _ fun hready => h.elim (not_le.mpr hready.positive) (absurd hready.current)
    · rename_i h
      simp only [not_or, not_le, not_not] at h hstate
      exact returned hstate h.1 h.2

/-- The debugger with a new breakpoint in its tables. -/
def Debugger.insertBreakpoint (d : Debugger) (address : Addr) (original : Byte) : Debugger :=
  { d with
    nextBreakpointId := d.nextBreakpointId + 1
    breakpointsByAddress := d.breakpointsByAddress.insert address
      ⟨d.nextBreakpointId, address, original, true⟩
    breakpointIds := d.breakpointIds.insert d.nextBreakpointId address }

theorem wp_addBreakpoint {address : Addr} {Q : Post WaitCall Exception Session Nat}
    (added : ∀ faults original,
      ¬(s.dbg.forkFollowPolicy = .both ∧ s.dbg.retainedProcesses.isEmpty = true) →
      s.dbg.process.state = .stopped →
      s.dbg.process.taskState s.dbg.process.currentTid = some .stopped →
      address ∉ s.dbg.breakpointsByAddress →
      accessible (s.world.memory (Lowlevel.space s.world s.dbg.process.currentTid)) address →
      s.world.memory (Lowlevel.space s.world s.dbg.process.currentTid) address = some original →
      Q.returned s.dbg.nextBreakpointId
        { s.poke s.dbg.process.currentTid address int3 with
          faults, dbg := s.dbg.insertBreakpoint address original })
    (raised : ∀ faults e, Q.raised e { s with faults }) : wp (addBreakpoint address) Q s := by
  simp only [addBreakpoint, wp_bind, wp_view, wp_ite, wp_raise]
  split
  · exact raised s.faults _
  rename_i hpolicy
  refine wp_stoppedTid (fun hstate _ htask => ?_) (fun what _ => raised s.faults _)
  dsimp only
  split
  · exact raised s.faults _
  rename_i hnew
  refine Lowlevel.wp_readByte (fun faults original hacc horig => ?_)
    (fun faults e _ => raised faults e)
  dsimp only
  refine Lowlevel.wp_writeByte (fun faults _ => ?_) (fun faults e _ => raised faults e)
  simp only [wp_modifyDebugger, wp_pure]
  exact added faults original hpolicy hstate htask (by simpa using hnew) hacc horig

theorem wp_removeBreakpoint {id : Nat} {Q : Post WaitCall Exception Session Bool}
    (unknown : id ∉ s.dbg.breakpointIds → Q.returned false s)
    (written : ∀ address bp faults, s.dbg.breakpointIds[id]? = some address →
      s.dbg.breakpointsByAddress[address]? = some bp → bp.installed = true →
      s.dbg.process.state = .stopped →
      s.dbg.process.taskState s.dbg.process.currentTid = some .stopped →
      Q.returned true { s.poke s.dbg.process.currentTid address bp.originalByte with
        faults, dbg := (s.dbg.clearPendingStep address).eraseBreakpoint id address })
    (forgotten : ∀ address, s.dbg.breakpointIds[id]? = some address →
      (∀ bp, s.dbg.breakpointsByAddress[address]? = some bp →
        ¬(bp.installed = true ∧ s.dbg.process.state = .stopped)) →
      Q.returned true { s with
        dbg := (s.dbg.clearPendingStep address).eraseBreakpoint id address })
    (raised : ∀ faults e, Q.raised e { s with faults }) : wp (removeBreakpoint id) Q s := by
  simp only [removeBreakpoint, wp_bind, wp_view]
  rcases hid : s.dbg.breakpointIds[id]? with _ | address
  · exact unknown (by simpa using hid)
  · simp only [wp_bind, wp_view]
    rcases hbp : s.dbg.breakpointsByAddress[address]? with _ | bp
    · simp only [wp_pure, wp_bind, wp_modifyDebugger]
      exact forgotten address hid (by simp [hbp])
    · simp only [wp_ite, wp_bind, wp_pure]
      split
      · rename_i h
        refine wp_stoppedTid (fun hstate _ htask => ?_) (fun what _ => raised s.faults _)
        dsimp only
        refine Lowlevel.wp_writeByte (fun faults _ => ?_) (fun faults e _ => raised faults e)
        exact written address bp faults hid hbp h.1 hstate htask
      · rename_i h
        exact forgotten address hid (by simpa [hbp] using h)

theorem wp_reinsertBreakpoint {address : Addr} {tid : Pid}
    {Q : Post WaitCall Exception Session Unit}
    (unchanged : (∀ bp, s.dbg.breakpointsByAddress[address]? = some bp → bp.installed = true) →
      Q.returned () s)
    (written : ∀ bp faults, s.dbg.breakpointsByAddress[address]? = some bp →
      bp.installed = false →
      Q.returned () { s.poke tid address int3 with
        faults, dbg := s.dbg.setInstalled address true })
    (raised : ∀ faults e, e.isPtraceError = true → Q.raised e { s with faults }) :
    wp (reinsertBreakpoint address tid) Q s := by
  simp only [reinsertBreakpoint, wp_bind, wp_view]
  rcases hbp : s.dbg.breakpointsByAddress[address]? with _ | bp
  · exact unchanged (by simp [hbp])
  · simp only [wp_ite, wp_bind, wp_pure]
    split
    · exact unchanged (by simpa [hbp] using ‹_›)
    · refine Lowlevel.wp_writeByte (fun faults _ => ?_) raised
      simp only [wp_modifyDebugger]
      exact written bp faults hbp (Bool.eq_false_iff.mpr ‹_›)

/-- The session after a thread has been put back onto the breakpoint it hit. -/
def Session.hit (s : Session) (tid : Pid) (address : Addr) (bp : Breakpoint)
    (regs : UserRegs) : Session :=
  let t := s.poke tid address bp.originalByte
  { t with
    dbg := { (s.dbg.saveRegisterSnapshot tid address regs).setInstalled address false with
      pendingBreakpointStep := some ⟨address, tid⟩ }
    world := { t.world with regs := update s.world.regs tid regs } }

theorem wp_prepareBreakpointHit {address : Addr} {regs : UserRegs} {tid : Pid}
    {bp : Breakpoint} {Q : Post WaitCall Exception Session Unit}
    (hbp : s.dbg.breakpointsByAddress[address]? = some bp) (hin : bp.installed = true)
    (returned : ∀ faults,
      Q.returned () { s.hit tid address bp { regs with rip := address } with faults })
    (raised : ∀ faults regs' snapshots e, e.isPtraceError = true → Q.raised e { s with
      faults
      world := { s.world with regs := regs' }
      dbg := { s.dbg with breakpointRegisterSnapshots := snapshots } }) :
    wp (prepareBreakpointHit address regs tid) Q s := by
  simp only [prepareBreakpointHit, wp_bind, wp_view, hbp, hin, Bool.not_true, Bool.false_eq_true,
    if_false, wp_modifyDebugger]
  refine Lowlevel.wp_setRegisters (fun faults => ?_) (fun faults e he => raised faults _ _ e he)
  dsimp only
  refine Lowlevel.wp_writeByte (fun faults _ => ?_) (fun faults e he => raised faults _ _ e he)
  exact returned faults

/-- The same breakpoints; only bytes saved under an `INT3` may differ. -/
def SameBreakpoints (table table' : ExtTreeMap Addr Breakpoint) : Prop :=
  (∀ a : Addr, table[a]? = none → table'[a]? = none) ∧
  ∀ (a : Addr) (bp : Breakpoint), table[a]? = some bp →
    ∃ byte, table'[a]? = some { bp with originalByte := byte } ∧
      (bp.installed = false → byte = bp.originalByte)

theorem SameBreakpoints.refl (table : ExtTreeMap Addr Breakpoint) :
    SameBreakpoints table table :=
  ⟨fun _ h => h, fun _ bp h => ⟨bp.originalByte, h, fun _ => rfl⟩⟩

/-- Saving another byte under an installed `INT3`. -/
theorem SameBreakpoints.modify {table table' : ExtTreeMap Addr Breakpoint} {address : Addr}
    {byte : Byte} (h : SameBreakpoints table table')
    (hin : ∀ bp : Breakpoint, table[address]? = some bp → bp.installed = true) :
    SameBreakpoints table
      (table'.modify address fun bp => { bp with originalByte := byte }) := by
  refine ⟨fun a ha => ?_, fun a bp ha => ?_⟩
  · have := h.1 a ha
    rw [ExtTreeMap.getElem?_modify]
    grind
  · obtain ⟨b, hb, hsaved⟩ := h.2 a bp ha
    by_cases heq : address = a
    · subst heq
      refine ⟨byte, by simp [hb], fun hout => ?_⟩
      rw [hin bp ha] at hout
      cases hout
    · refine ⟨b, ?_, hsaved⟩
      rw [ExtTreeMap.getElem?_modify, if_neg (by simpa using heq)]
      exact hb

/-- A memory write reaches no byte under a breakpoint of the debugger. -/
theorem wp_writeMemory {address : Addr} {bytes : List Byte}
    {Q : Post WaitCall Exception Session Unit}
    (returned : ∀ faults memory table,
      s.dbg.process.taskState s.dbg.process.currentTid = some .stopped →
      (∀ p, p ≠ Lowlevel.space s.world s.dbg.process.currentTid →
        memory p = s.world.memory p) →
      (∀ p a, a ∈ s.dbg.breakpointsByAddress → memory p a = s.world.memory p a) →
      SameBreakpoints s.dbg.breakpointsByAddress table →
      Q.returned () { s with
        faults
        world := { s.world with memory }
        dbg := { s.dbg with breakpointsByAddress := table } })
    (raised : ∀ faults memory e,
      memory = s.world.memory ∨
        s.dbg.process.taskState s.dbg.process.currentTid = some .stopped →
      (∀ p, p ≠ Lowlevel.space s.world s.dbg.process.currentTid →
        memory p = s.world.memory p) →
      (∀ p a, a ∈ s.dbg.breakpointsByAddress → memory p a = s.world.memory p a) →
      Q.raised e { s with faults, world := { s.world with memory } }) :
    wp (writeMemory address bytes) Q s := by
  have unchanged : ∀ e, Q.raised e s := fun e =>
    raised s.faults _ e (.inl rfl) (fun _ _ => rfl) fun _ _ _ => rfl
  simp only [writeMemory, wp_bind]
  refine wp_stoppedTid (fun _ _ htask => ?_) (fun what _ => unchanged _)
  simp only [wp_ite, wp_bind, wp_raise, wp_view, id]
  split
  · exact unchanged _
  split
  · exact unchanged _
  split
  · exact unchanged _
  split
  · exact unchanged _
  split
  · exact unchanged _
  rename_i hclear
  have hcell : ∀ cell ∈ cells address bytes, hasEntry s.dbg cell.1 true = false →
      cell.1 ∉ s.dbg.breakpointsByAddress := by
    intro cell hmem hnot hin
    obtain ⟨bp, hbp⟩ := Option.isSome_iff_exists.mp (ExtTreeMap.isSome_getElem?_iff_mem.mpr hin)
    apply hclear
    refine List.any_eq_true.mpr ⟨cell, hmem, ?_⟩
    simp only [hasEntry, hbp, Option.any_some, beq_false, Bool.not_eq_true', beq_true] at hnot ⊢
    exact hnot
  -- the bytes outside the table go to the tracee
  let I : Session → Prop := fun t => ∃ faults memory,
    t = { s with faults, world := { s.world with memory } } ∧
    (∀ p, p ≠ Lowlevel.space s.world s.dbg.process.currentTid → memory p = s.world.memory p) ∧
    ∀ p a, a ∈ s.dbg.breakpointsByAddress → memory p a = s.world.memory p a
  refine wp_mono (wp_forEach (I := I) (E := fun _ => I) (B := fun _ _ => False) ?_ s
    ⟨s.faults, _, rfl, fun _ _ => rfl, fun _ _ _ => rfl⟩) ?_ ?_ (fun _ _ h => h.elim)
  · rintro cell hmem u ⟨faults, memory, rfl, hspace, htable⟩
    simp only [writeCell, wp_bind, wp_view, wp_ite, wp_pure]
    split
    · rename_i hnot
      have hout := hcell cell hmem (by simpa using hnot)
      refine Lowlevel.wp_writeByte (fun faults _ => ⟨faults, _, rfl, fun p hp => ?_, fun p a ha => ?_⟩)
        (fun faults e _ => ⟨faults, memory, rfl, hspace, htable⟩)
      · rw [update_of_ne (by exact hp)]
        exact hspace p hp
      · have hne : a ≠ cell.1 := by rintro rfl; exact hout ha
        rw [← htable p a ha]
        by_cases hp : p = Lowlevel.space s.world s.dbg.process.currentTid
        · subst hp
          simp [Lowlevel.space, update_of_ne hne]
        · rw [update_of_ne (by exact hp)]
    · exact ⟨faults, memory, rfl, hspace, htable⟩
  · -- the others go to the saved bytes
    rintro _ t ⟨faults, memory, rfl, hspace, htable⟩
    let J : Session → Prop := fun t => ∃ table,
      t = { s with
        faults
        world := { s.world with memory }
        dbg := { s.dbg with breakpointsByAddress := table } } ∧
      SameBreakpoints s.dbg.breakpointsByAddress table
    refine wp_mono (wp_forEach (I := J) (E := fun _ _ => False) (B := fun _ _ => False) ?_ _
      ⟨_, rfl, SameBreakpoints.refl _⟩) ?_ (fun _ _ h => h.elim) (fun _ _ h => h.elim)
    · rintro cell hmem u ⟨table, rfl, hsame⟩
      refine ⟨_, rfl, hsame.modify fun bp hbp => ?_⟩
      have := (List.mem_filter.mp hmem).2
      simpa [hasEntry, hbp] using this
    · rintro _ t ⟨table, rfl, hsame⟩
      exact returned faults memory table htask hspace htable hsame
  · rintro e t ⟨faults, memory, rfl, hspace, htable⟩
    exact raised faults memory e (.inr htask) hspace htable

end Rules

end MiniDebugger
