import MiniDebugger.Machine.Traced

/-!
# Breakpoints are transparent

However a session adds and removes breakpoints, continues and steps, the registers of its tracee
and its memory without the debugger's `INT3`s are a state of the native run: provided that a single
step is not made from an installed breakpoint. There `single_step` executes the `INT3`, takes its
trap for the end of the step and leaves RIP behind it.
-/

namespace MiniDebugger

open Command
open Overlay
open Function (update update_self update_of_ne)
open Std (ExtTreeMap)

/-- Between two operations: the thread rests in the `k`-th state of the native run. -/
structure Follows (tracees : Tracees) (cpu : Cpu) (start : UserRegs × Memory) (A : Set Addr)
    (pid : Pid) (k : Nat) (s : Session) : Prop where
  traced : Traced tracees cpu start A pid k s
  rests : Rests pid s
  settled : Settled pid s

section Operations

variable {tracees : Tracees} {cpu : Cpu} {start : UserRegs × Memory} {A : Set Addr} {pid : Pid}
  {k : Nat} {s : Session}

theorem Follows.faults (h : Follows tracees cpu start A pid k s) (faults : List (Option Nat)) :
    Follows tracees cpu start A pid k { s with faults } where
  traced := h.traced.moved (fun _ hw => hw) rfl h.traced.only h.traced.tracked ⟨rfl, rfl, rfl⟩
    h.traced.tasks h.traced.regs h.traced.shows h.traced.bounded
  rests := ⟨h.rests.stopped, h.rests.selected, h.rests.task⟩
  settled := ⟨h.settled.lifted, h.settled.pending⟩

/-- Resuming the thread does not move it yet. -/
theorem Traced.resumed (h : Traced tracees cpu start A pid k s) (kind : ResumeKind) (signal : Nat)
    (signals : ExtTreeMap Pid Nat) (faults : List (Option Nat)) :
    Traced tracees cpu start A pid k (s.resumed kind pid signal signals faults) := by
  refine h.moved (fun _ hw => hw) (by simp [Session.resumed]) (fun tid htid => ?_) ?_
    ⟨rfl, rfl, rfl⟩ h.tasks h.regs h.shows h.bounded
  · exact h.only tid (Process.mem_markRunning.mp htid)
  · exact Process.mem_markRunning.mpr h.tracked

theorem Session.resumed_mode (s : Session) (kind : ResumeKind) (pid : Pid) (signal : Nat)
    (signals : ExtTreeMap Pid Nat) (faults : List (Option Nat)) :
    (s.resumed kind pid signal signals faults).world.mode pid = some kind := by
  simp [Session.resumed]

/-- Without a displaced step every breakpoint is in place. -/
theorem Settled.installed (h : Settled pid s) (hpending : s.dbg.pendingBreakpointStep = none)
    (a : Addr) (bp : Breakpoint) (hbp : s.dbg.breakpointsByAddress[a]? = some bp) :
    bp.installed = true := by
  by_contra hout
  have := h.lifted a bp hbp (by simpa using hout)
  rw [hpending] at this
  cases this

/-- All breakpoints in place and no displaced step due. -/
theorem settled_of_installed (hpending : s.dbg.pendingBreakpointStep = none)
    (hinstalled : ∀ (a : Addr) (bp : Breakpoint), s.dbg.breakpointsByAddress[a]? = some bp →
      bp.installed = true) : Settled pid s := by
  constructor
  · intro a bp hbp hout
    rw [hinstalled a bp hbp] at hout
    cases hout
  · intro p hp
    rw [hpending] at hp
    cases hp

/-- Placing, lifting, adding or removing one breakpoint leaves the thread where it is. -/
theorem Traced.patched (h : Traced tracees cpu start A pid k s) {t : Session} {a : Addr}
    {x : Option (Patch Byte)} {y : Option Byte} (hscript : t.script = s.script)
    (hprocess : t.dbg.process = s.dbg.process)
    (hdbg : t.dbg.retainedProcesses = s.dbg.retainedProcesses ∧
      t.dbg.pendingThreadStarts = s.dbg.pendingThreadStarts ∧ t.dbg.watchpoint = s.dbg.watchpoint)
    (hworld : t.world.tasks = s.world.tasks ∧ t.world.regs = s.world.regs)
    (hpatches : patches t.dbg.breakpointsByAddress =
      update (patches s.dbg.breakpointsByAddress) a x)
    (hmemory : t.world.memory pid = update (s.world.memory pid) a y) (hinside : x ≠ none → a ∈ A)
    (hcell : ∀ p, x = some p → y = some (p.cell int3)) (hseen : seen x y = (cpu.native start k).2 a)
    (hbounded : ∀ (a : Addr) (bp : Breakpoint), t.dbg.breakpointsByAddress[a]? = some bp →
      a.toNat + 8 ≤ 2 ^ 64) : Traced tracees cpu start A pid k t := by
  refine h.moved (fun w hw => hscript ▸ hw) (by rw [hprocess]) (by rw [hprocess]; exact h.only)
    (by rw [hprocess]; exact h.tracked) hdbg (by rw [hworld.1]; exact h.tasks)
    (by rw [hworld.2]; exact h.regs) ?_ hbounded
  rw [hpatches, hmemory]
  exact h.shows.update hinside hcell hseen

/-- The byte at RIP while the displaced step over it is due. -/
theorem Follows.fetch_pending (h : Follows tracees cpu start A pid k s)
    (hfree : cpu.FreeOfInt3 start) {p : PendingBreakpointStep}
    (hp : s.dbg.pendingBreakpointStep = some p) :
    s.world.memory pid (cpu.native start k).1.rip ≠ some int3 := by
  obtain ⟨-, haddress, bp, hbp, hout⟩ := h.settled.pending p hp
  rw [haddress, h.traced.regs] at hbp
  have hnative := hfree k
  rw [Cpu.fetchesInt3, h.traced.saved hbp] at hnative
  rw [h.traced.shows.armed _ _ (patches_eq_some hbp), Patch.cell, if_neg (by simp [hout])]
  exact hnative

/-- With the displaced breakpoint back in its place all of them are. -/
theorem Settled.reinserted (h : Settled pid s) {p : PendingBreakpointStep}
    (hp : s.dbg.pendingBreakpointStep = some p) {a : Addr} {bp : Breakpoint}
    (hbp : (s.dbg.breakpointsByAddress.modify p.address
      fun bp => { bp with installed := true })[a]? = some bp) : bp.installed = true := by
  rw [ExtTreeMap.getElem?_modify] at hbp
  by_contra hout
  have hlifted := h.lifted a
  grind

/-- The displaced step: one native instruction, after which every breakpoint is in place again. -/
theorem wp_stepOver_follows (hspares : cpu.Spares start A) (hfree : cpu.FreeOfInt3 start)
    (h : Follows tracees cpu start A pid k s) {p : PendingBreakpointStep} {expose : Bool}
    (hp : s.dbg.pendingBreakpointStep = some p) :
    wp (stepOverPendingBreakpoint tracees p expose)
      ⟨fun info t => info.reason = .singleStep ∧ Follows tracees cpu start A pid (k + 1) t ∧
          t.dbg.pendingBreakpointStep = none ∧
          ∀ a, a ∈ t.dbg.breakpointsByAddress ↔ a ∈ s.dbg.breakpointsByAddress,
        fun e t => e.Smooth → Follows tracees cpu start A pid k t, fun _ _ => True⟩ s := by
  obtain ⟨htid, haddress, bp, hbp, hout⟩ := h.settled.pending p hp
  refine wp_stepOverPendingBreakpoint (fun faults e _ => h.faults faults) (fun faults => ?_)
  rw [htid]
  have hflying := h.traced.resumed .step 0 s.dbg.pendingSignals faults
  refine wp_mono (wp_stepped hflying hspares (Session.resumed_mode ..)
    (h.fetch_pending hfree hp)) ?_ (fun e t he hsmooth => absurd hsmooth he) (fun _ _ _ => trivial)
  intro info t hstepped
  dsimp only
  rw [if_neg (by simp [hstepped.reason])]
  have htable : t.dbg.breakpointsByAddress = s.dbg.breakpointsByAddress := hstepped.table
  have hbp' : t.dbg.breakpointsByAddress[p.address]? = some bp := by rw [htable]; exact hbp
  have hrests := hstepped.rests
  have htask : ∀ tid, t.Reinserts p tid → tid = pid := by
    rintro tid (⟨-, rfl⟩ | ⟨-, -, rfl⟩)
    · exact htid
    · exact hrests.selected
  refine wp_finishDisplacedStep ?_ ?_ ?_
  · intro tid bp₂ faults stopInfo hreinserts _ hbp₂ _
    obtain rfl := htask tid hreinserts
    obtain rfl : bp = bp₂ := Option.some.inj (hbp'.symm.trans hbp₂)
    refine ⟨hstepped.reason, ⟨?_, ⟨hrests.stopped, hrests.selected, hrests.task⟩, ?_⟩, rfl, ?_⟩
    · exact hstepped.traced.patched rfl rfl ⟨rfl, rfl, rfl⟩ ⟨rfl, rfl⟩ (patches_setInstalled hbp')
        (poke_memory hstepped.traced.tasks _ _)
        (fun _ => hstepped.traced.shows.inside _ (by rw [patches_eq_some hbp']; simp))
        (fun p hp => by cases hp; rfl) (hstepped.traced.saved hbp').symm
        (fun a bp => bounded_modify hstepped.traced.bounded)
    · refine settled_of_installed rfl fun a bp₃ hbp₃ => ?_
      refine h.settled.reinserted hp (a := a) ?_
      rw [← htable]
      exact hbp₃
    · intro a
      show a ∈ ExtTreeMap.modify t.dbg.breakpointsByAddress _ _ ↔ _
      rw [ExtTreeMap.mem_modify, htable]
  · rintro stopInfo (hin | ⟨tid, hreinserts, hneg⟩ | ⟨hrunning, -⟩)
    · rw [hin bp hbp'] at hout
      cases hout
    · rw [htask tid hreinserts] at hneg
      exact absurd h.traced.positive (not_lt.mpr hneg)
    · rw [htid] at hrunning
      exact absurd hrests.task hrunning
  · rintro faults e (he | hready) hsmooth
    · rw [hsmooth.1] at he
      cases he
    · refine absurd ⟨hrests.stopped, ?_, ?_⟩ hready
      · rw [hrests.selected]
        exact h.traced.positive
      · rw [hrests.selected]
        exact hrests.task

/-- Resuming for a step at an address that is not patched: one native instruction. -/
theorem wp_step_follows (hspares : cpu.Spares start A) (hfree : cpu.FreeOfInt3 start)
    (h : Follows tracees cpu start A pid k s) (hpending : s.dbg.pendingBreakpointStep = none)
    (hoff : hasEntry s.dbg (s.world.regs pid).rip true = false) {policy : SignalPolicy} :
    wp (resumeAndWait tracees .step policy)
      ⟨fun info t => info.reason = .singleStep ∧ Follows tracees cpu start A pid (k + 1) t,
        fun e t => e.Smooth → Follows tracees cpu start A pid k t, fun _ _ => True⟩ s := by
  have hinstalled := h.settled.installed hpending
  have hfetch : s.world.memory pid (cpu.native start k).1.rip ≠ some int3 := by
    intro hmark
    obtain ⟨p, hp, happlied, -⟩ := h.traced.shows.applied_of_int3 hmark (hfree k)
    obtain ⟨bp, hbp, rfl⟩ := Option.map_eq_some_iff.mp hp
    rw [h.traced.regs, hasEntry, hbp] at hoff
    simp [hinstalled _ bp hbp] at hoff
  refine wp_resumeAndWait (fun faults e _ => h.faults faults) (fun faults signal _ _ _ => ?_)
  rw [h.rests.selected]
  have hflying := h.traced.resumed .step signal (s.dbg.pendingSignals.erase pid) faults
  refine wp_mono (wp_stepped hflying hspares (Session.resumed_mode ..) hfetch) ?_
    (fun e t he hsmooth => absurd hsmooth he) (fun _ _ _ => trivial)
  intro info t hstepped
  refine ⟨hstepped.reason, hstepped.traced, hstepped.rests,
    settled_of_installed ?_ fun a bp hbp => ?_⟩
  · rw [hstepped.pending]
    exact hpending
  · rw [hstepped.table] at hbp
    exact hinstalled a bp hbp

/-- Where `continue_execution` stops: at the first breakpoint the native run meets. -/
structure Reaches (tracees : Tracees) (cpu : Cpu) (start : UserRegs × Memory) (A : Set Addr)
    (pid : Pid) (k : Nat) (s : Session) (info : StopInfo) (t : Session) (stop : Nat) : Prop where
  follows : Follows tracees cpu start A pid stop t
  later : k ≤ stop
  reason : info.reason = .breakpoint
  address : info.breakpointAddress = some (cpu.native start stop).1.rip
  arrived : (cpu.native start stop).1.rip ∈ s.dbg.breakpointsByAddress
  first : ∀ i, k ≤ i → i < stop → (cpu.native start i).1.rip ∉ s.dbg.breakpointsByAddress

/-- Resuming with every breakpoint in place: the native run up to the first of them. -/
theorem wp_continue_follows (hspares : cpu.Spares start A) (hfree : cpu.FreeOfInt3 start)
    (h : Follows tracees cpu start A pid k s) (hpending : s.dbg.pendingBreakpointStep = none)
    {policy : SignalPolicy} :
    wp (resumeAndWait tracees .cont policy)
      ⟨fun info t => ∃ stop, Reaches tracees cpu start A pid k s info t stop,
        fun e t => e.Smooth → Follows tracees cpu start A pid k t, fun _ _ => True⟩ s := by
  refine wp_resumeAndWait (fun faults e _ => h.faults faults) (fun faults signal _ _ _ => ?_)
  rw [h.rests.selected]
  have hflying := h.traced.resumed .cont signal (s.dbg.pendingSignals.erase pid) faults
  refine wp_mono (wp_trapped hflying hspares hfree (Session.resumed_mode ..)
    (h.settled.installed hpending)) ?_ (fun e t he hsmooth => absurd hsmooth he)
    (fun _ _ _ => trivial)
  rintro info t ⟨j, htrapped⟩
  refine ⟨k + j, ⟨htrapped.traced, htrapped.rests, htrapped.settled⟩, Nat.le_add_right k j,
    htrapped.reason, htrapped.address, htrapped.arrived, fun i hki hi => ?_⟩
  obtain ⟨i, rfl⟩ := Nat.exists_eq_add_of_le hki
  exact htrapped.first i (by omega)

/-- Where the native run goes on: behind the instruction of a displaced step. -/
def Session.resumesAt (s : Session) (k : Nat) : Nat :=
  if s.dbg.pendingBreakpointStep.isSome then k + 1 else k

theorem follows_continueExecution (hspares : cpu.Spares start A) (hfree : cpu.FreeOfInt3 start)
    (h : Follows tracees cpu start A pid k s) (policy : SignalPolicy) :
    wp (continueExecution tracees policy)
      ⟨fun info t => ∃ stop, Reaches tracees cpu start A pid (s.resumesAt k) s info t stop,
        fun e t => e.Smooth → ∃ k', Follows tracees cpu start A pid k' t, fun _ _ => True⟩ s := by
  refine wp_continueExecution (fun e _ => ⟨k, h⟩) (fun hpending => ?_) fun p hp _ _ _ => ?_
  · rw [Session.resumesAt, hpending]
    exact wp_mono (wp_continue_follows hspares hfree h hpending) (fun _ _ ht => ht)
      (fun _ t ht hsmooth => ⟨k, ht hsmooth⟩) (fun _ _ _ => trivial)
  rw [Session.resumesAt, hp]
  refine wp_mono (wp_stepOver_follows hspares hfree h hp) ?_
    (fun _ t ht hsmooth => ⟨k, ht hsmooth⟩) (fun _ _ _ => trivial)
  rintro info t ⟨hreason, hfollows, hnone, hsame⟩
  dsimp only
  rw [if_neg (not_not.mpr hreason)]
  refine wp_mono (wp_continue_follows hspares hfree hfollows hnone) ?_
    (fun _ u hu hsmooth => ⟨k + 1, hu hsmooth⟩) (fun _ _ _ => trivial)
  rintro info u ⟨stop, hu⟩
  exact ⟨stop, hu.follows, hu.later, hu.reason, hu.address, (hsame _).mp hu.arrived,
    fun i hki hi hmem => hu.first i hki hi ((hsame _).mpr hmem)⟩

theorem follows_singleStep (hspares : cpu.Spares start A) (hfree : cpu.FreeOfInt3 start)
    (h : Follows tracees cpu start A pid k s)
    (hoff : hasEntry s.dbg (s.world.regs pid).rip true = false) (policy : SignalPolicy) :
    wp (singleStep tracees policy)
      ⟨fun info t => info.reason = .singleStep ∧ Follows tracees cpu start A pid (k + 1) t,
        fun e t => e.Smooth → Follows tracees cpu start A pid k t, fun _ _ => True⟩ s := by
  refine wp_singleStep (fun e _ => h) (fun hpending => ?_) fun p hp _ _ _ => ?_
  · exact wp_step_follows hspares hfree h hpending hoff
  · exact wp_mono (wp_stepOver_follows hspares hfree h hp) (fun _ _ ht => ⟨ht.1, ht.2.1⟩)
      (fun _ _ ht => ht) (fun _ _ _ => trivial)

theorem follows_addBreakpoint (h : Follows tracees cpu start A pid k s) {address : Addr}
    (hinside : address ∈ A) :
    wp (addBreakpoint address) ⟨fun _ t => Follows tracees cpu start A pid k t,
      fun _ t => Follows tracees cpu start A pid k t, fun _ _ => True⟩ s := by
  refine wp_addBreakpoint (fun faults original _ _ _ hnew hacc horiginal => ?_)
    (fun faults e => h.faults faults)
  rw [h.rests.selected] at hacc horiginal ⊢
  have htasks := h.traced.tasks
  rw [space_eq htasks] at hacc horiginal
  have hold : s.dbg.breakpointsByAddress[address]? = none := by simpa using hnew
  have hnative : (cpu.native start k).2 address = some original := by
    rw [← h.traced.shows.logical, logical, patches, hold]
    exact horiginal
  refine ⟨?_, ⟨h.rests.stopped, h.rests.selected, h.rests.task⟩, ⟨fun a bp hbp hout => ?_, fun p hp => ?_⟩⟩
  · refine h.traced.patched rfl rfl ⟨rfl, rfl, rfl⟩ ⟨rfl, rfl⟩ patches_insert
      (poke_memory htasks _ _) (fun _ => hinside) (fun p hp => by cases hp; rfl) hnative.symm
      fun a bp hbp => ?_
    by_cases ha : a = address
    · exact ha ▸ Lowlevel.bound_of_accessible hacc
    · exact h.traced.bounded a bp (by simpa [Debugger.insertBreakpoint,
        ExtTreeMap.getElem?_insert, Ne.symm ha] using hbp)
  · by_cases ha : a = address
    · subst ha
      simp only [Debugger.insertBreakpoint, ExtTreeMap.getElem?_insert_self] at hbp
      cases hbp
      cases hout
    · exact h.settled.lifted a bp (by simpa [Debugger.insertBreakpoint,
        ExtTreeMap.getElem?_insert, Ne.symm ha] using hbp) hout
  · obtain ⟨htid, haddress, bp, hbp, hout⟩ := h.settled.pending p hp
    have hne : address ≠ p.address := by
      rintro rfl
      rw [hold] at hbp
      cases hbp
    refine ⟨htid, haddress, bp, ?_, hout⟩
    simpa [Debugger.insertBreakpoint, ExtTreeMap.getElem?_insert, hne] using hbp

theorem clearPendingStep_eq (d : Debugger) (address : Addr) :
    d.clearPendingStep address =
      { d with pendingBreakpointStep :=
          d.pendingBreakpointStep.filter fun step => step.address ≠ address } := by
  obtain ⟨_, _, _, _, _, _, _, _, pending, _, _, _, _, _, _⟩ := d
  rcases pending with _ | step
  · rfl
  · by_cases ha : step.address = address
    · simp [Debugger.clearPendingStep, Option.filter, ha]
    · simp [Debugger.clearPendingStep, Option.filter, ha]

/-- Forgetting a breakpoint with its displaced step. -/
theorem Settled.erase (h : Settled pid s) {t : Session} {address : Addr}
    (htable : t.dbg.breakpointsByAddress = s.dbg.breakpointsByAddress.erase address)
    (hpending : t.dbg.pendingBreakpointStep =
      s.dbg.pendingBreakpointStep.filter fun step => step.address ≠ address)
    (hregs : t.world.regs = s.world.regs) : Settled pid t := by
  constructor
  · intro a bp hbp hout
    rw [htable, ExtTreeMap.getElem?_erase] at hbp
    have hlifted := h.lifted a bp
    rw [hpending]
    grind
  · intro p hp
    rw [hpending, Option.filter_eq_some_iff] at hp
    have hne : address ≠ p.address := fun heq => by simp [heq] at hp
    obtain ⟨htid, haddress, bp, hbp, hout⟩ := h.pending p hp.1
    refine ⟨htid, by rw [hregs]; exact haddress, bp, ?_, hout⟩
    simpa [htable, ExtTreeMap.getElem?_erase, hne] using hbp

theorem follows_removeBreakpoint (h : Follows tracees cpu start A pid k s) (id : Nat) :
    wp (removeBreakpoint id) ⟨fun _ t => Follows tracees cpu start A pid k t,
      fun _ t => Follows tracees cpu start A pid k t, fun _ _ => True⟩ s := by
  have htasks := h.traced.tasks
  have hbounded : ∀ address (a : Addr) (bp : Breakpoint),
      (s.dbg.breakpointsByAddress.erase address)[a]? = some bp → a.toNat + 8 ≤ 2 ^ 64 := by
    intro address a bp hbp
    have hold := h.traced.bounded a bp
    rw [ExtTreeMap.getElem?_erase] at hbp
    grind
  refine wp_removeBreakpoint (fun _ => h) (fun address bp faults _ hbp hin _ _ => ?_)
    (fun address _ hnone => ?_) (fun faults e => h.faults faults)
  · rw [h.rests.selected, clearPendingStep_eq]
    refine ⟨?_, ⟨h.rests.stopped, h.rests.selected, h.rests.task⟩, h.settled.erase rfl rfl rfl⟩
    refine h.traced.patched rfl rfl ⟨rfl, rfl, rfl⟩ ⟨rfl, rfl⟩ patches_erase
      (poke_memory htasks _ _) (by simp) (by simp) (h.traced.saved hbp).symm (hbounded address)
  · rw [clearPendingStep_eq]
    refine ⟨?_, ⟨h.rests.stopped, h.rests.selected, h.rests.task⟩, h.settled.erase rfl rfl rfl⟩
    refine h.traced.patched (y := s.world.memory pid address) rfl rfl ⟨rfl, rfl, rfl⟩ ⟨rfl, rfl⟩
      patches_erase (Function.update_eq_self _ _).symm (by simp) (by simp) ?_ (hbounded address)
    rw [← h.traced.shows.logical, logical]
    rcases hbp : s.dbg.breakpointsByAddress[address]? with _ | bp
    · simp [patches, hbp, seen]
    · have hout : bp.installed = false := by
        by_contra hin
        exact hnone bp hbp ⟨by simpa using hin, h.rests.stopped⟩
      simp [patches, hbp, hout, seen]

end Operations

/-! ## Runs -/

/-- The operations the run is about: breakpoints are set in `A` only, and a single step is not made
from a breakpoint that is in place. -/
def Operation.Steady (A : Set Addr) (pid : Pid) (s : Session) : Operation → Prop
  | .addBreakpoint address => address ∈ A
  | .removeBreakpoint _ | .continueExecution _ => True
  | .singleStep _ => hasEntry s.dbg (s.world.regs pid).rip true = false
  | _ => False

/-- The sessions that a debugger of the program `cpu` reaches from its start state. Whatever is
reported is a stop of the program, and no ptrace request fails. -/
inductive Debugs (tracees : Tracees) (cpu : Cpu) (start : UserRegs × Memory) (A : Set Addr)
    (pid : Pid) : Session → Prop
  | start {s : Session} (h : Started s) (hpid : s.dbg.process.pid = pid)
      (honly : ∀ tid ∈ s.dbg.process.taskStates, tid = pid)
      (hregs : s.world.regs pid = start.1) (hmemory : s.world.memory pid = start.2) :
      Debugs tracees cpu start A pid s
  | returned {s t : Session} {op : Operation} {script : List Wakeup}
      {faults : List (Option Nat)} {r : Result} (h : Debugs tracees cpu start A pid s)
      (hop : op.Steady A pid s) (hscript : Honest tracees cpu pid script)
      (hrun : op.run tracees (s.facing script faults) = .returned r t) :
      Debugs tracees cpu start A pid t
  | raised {s t : Session} {op : Operation} {script : List Wakeup}
      {faults : List (Option Nat)} {e : Exception} (h : Debugs tracees cpu start A pid s)
      (hop : op.Steady A pid s) (hscript : Honest tracees cpu pid script)
      (hrun : op.run tracees (s.facing script faults) = .raised e t) (he : e.Smooth) :
      Debugs tracees cpu start A pid t

section Runs

variable {tracees : Tracees} {cpu : Cpu} {start : UserRegs × Memory} {A : Set Addr} {pid : Pid}
  {k : Nat} {s : Session}

theorem honest_nil : Honest tracees cpu pid [] := fun _ hd => by cases hd

/-- A session starts in the start state of the program. -/
theorem follows_started (h : Started s) (hpid : s.dbg.process.pid = pid)
    (honly : ∀ tid ∈ s.dbg.process.taskStates, tid = pid)
    (hregs : s.world.regs pid = start.1) (hmemory : s.world.memory pid = start.2) :
    Follows tracees cpu start A pid 0 (s.facing [] []) := by
  have fresh : 0 < pid → pid ∈ s.dbg.process.taskStates → Rests pid s →
      s.world.tasks[pid]? = some pid → s.dbg.breakpointsByAddress = ∅ →
      s.dbg.pendingBreakpointStep = none → s.dbg.retainedProcesses = ∅ →
      s.dbg.pendingThreadStarts = ∅ → s.dbg.watchpoint = none →
      Follows tracees cpu start A pid 0 (s.facing [] []) := by
    intro hpos htracked hrests htasks htable hpending hretained hknown hwatch
    refine ⟨⟨hpos, honest_nil, hpid, honly, htracked, hretained, hknown, hwatch, htasks, hregs, ?_,
      fun a bp hbp => ?_⟩, ⟨hrests.stopped, hrests.selected, hrests.task⟩,
      settled_of_installed hpending fun a bp hbp => ?_⟩
    · show Cpu.Shows A (patches s.dbg.breakpointsByAddress) (s.world.memory pid) start.2
      rw [htable, hmemory]
      exact ⟨fun a ha => absurd rfl ha, armed_empty, rfl⟩
    · simp [Session.facing, htable] at hbp
    · simp [Session.facing, htable] at hbp
  cases h with
  | launch leader path _ hpos hdbg htasks _ _ _ =>
    rw [hdbg] at hpid
    obtain rfl : leader = pid := hpid
    refine fresh hpos ?_ ⟨?_, ?_, ?_⟩ ?_ (by rw [hdbg]; rfl) (by rw [hdbg]; rfl)
      (by rw [hdbg]; rfl) (by rw [hdbg]; rfl) (by rw [hdbg]; rfl)
    · rw [hdbg]
      simp [launched, Process.single, Process.singleTask]
    · rw [hdbg]
      rfl
    · rw [hdbg]
      rfl
    · rw [hdbg]
      simp [launched, Process.single, Process.singleTask, Process.taskState]
    · rw [htasks, getElem?_eachTask]
      simp
  | attach leader tids path _ hpos htids hdbg htasks _ _ _ =>
    rw [hdbg] at hpid
    obtain rfl : leader = pid := hpid
    refine fresh hpos ?_ ⟨?_, ?_, ?_⟩ ?_ (by rw [hdbg]; rfl) (by rw [hdbg]; rfl)
      (by rw [hdbg]; rfl) (by rw [hdbg]; rfl) (by rw [hdbg]; rfl)
    · rw [hdbg]
      exact ExtTreeMap.isSome_getElem?_iff_mem.mp (by simp [attached, getElem?_eachTask])
    · rw [hdbg]
      rfl
    · rw [hdbg]
      rfl
    · rw [hdbg]
      simp [attached, Process.taskState, getElem?_eachTask]
    · rw [htasks, getElem?_eachTask]
      simp

theorem Follows.facing (h : Follows tracees cpu start A pid k s) {script : List Wakeup}
    (hscript : Honest tracees cpu pid script) (faults : List (Option Nat)) :
    Follows tracees cpu start A pid k (s.facing script faults) where
  traced := { h.traced with honest := hscript }
  rests := ⟨h.rests.stopped, h.rests.selected, h.rests.task⟩
  settled := ⟨h.settled.lifted, h.settled.pending⟩

theorem Operation.Steady.facing {op : Operation} (h : op.Steady A pid s) (script : List Wakeup)
    (faults : List (Option Nat)) : op.Steady A pid (s.facing script faults) := by
  cases op <;> exact h

/-- Whether an operation returns or not, its tracee stays on the native run. -/
theorem follows_run (hspares : cpu.Spares start A) (hfree : cpu.FreeOfInt3 start) {op : Operation}
    (hop : op.Steady A pid s) (h : Follows tracees cpu start A pid k s) :
    wp (op.run tracees) ⟨fun _ t => ∃ k', Follows tracees cpu start A pid k' t,
      fun e t => e.Smooth → ∃ k', Follows tracees cpu start A pid k' t, fun _ _ => True⟩ s := by
  cases op with
  | addBreakpoint address =>
    simp only [Operation.run, wp_map]
    exact wp_mono (follows_addBreakpoint h hop) (fun _ _ ht => ⟨k, ht⟩) (fun _ _ ht _ => ⟨k, ht⟩)
      (fun _ _ _ => trivial)
  | removeBreakpoint id =>
    simp only [Operation.run, wp_map]
    exact wp_mono (follows_removeBreakpoint h id) (fun _ _ ht => ⟨k, ht⟩)
      (fun _ _ ht _ => ⟨k, ht⟩) (fun _ _ _ => trivial)
  | continueExecution policy =>
    simp only [Operation.run, wp_map]
    refine wp_mono (follows_continueExecution hspares hfree h policy) ?_ (fun _ _ ht => ht)
      (fun _ _ _ => trivial)
    rintro info t ⟨stop, ht⟩
    exact ⟨stop, ht.follows⟩
  | singleStep policy =>
    simp only [Operation.run, wp_map]
    exact wp_mono (follows_singleStep hspares hfree h hop policy) (fun _ _ ht => ⟨k + 1, ht.2⟩)
      (fun _ _ ht hsmooth => ⟨k, ht hsmooth⟩) (fun _ _ _ => trivial)
  | _ => exact absurd hop id

theorem Debugs.follows (hspares : cpu.Spares start A) (hfree : cpu.FreeOfInt3 start)
    (h : Debugs tracees cpu start A pid s) :
    ∃ k, Follows tracees cpu start A pid k (s.facing [] []) := by
  induction h with
  | start h hpid honly hregs hmemory => exact ⟨0, follows_started h hpid honly hregs hmemory⟩
  | @returned s t op script faults r _ hop hscript hrun ih =>
    obtain ⟨k, hk⟩ := ih
    have hfacing : Follows tracees cpu start A pid k (s.facing script faults) :=
      hk.facing hscript faults
    obtain ⟨k', ht⟩ := wp_returned (follows_run hspares hfree (hop.facing _ _) hfacing) hrun
    exact ⟨k', ht.facing honest_nil []⟩
  | @raised s t op script faults e _ hop hscript hrun he ih =>
    obtain ⟨k, hk⟩ := ih
    have hfacing : Follows tracees cpu start A pid k (s.facing script faults) :=
      hk.facing hscript faults
    obtain ⟨k', ht⟩ := wp_raised (follows_run hspares hfree (hop.facing _ _) hfacing) hrun he
    exact ⟨k', ht.facing honest_nil []⟩

/-- The memory of the tracee with the saved byte at every breakpoint that is in place. -/
def Session.logicalMemory (s : Session) : Memory :=
  logical (patches s.dbg.breakpointsByAddress) (s.world.memory s.dbg.process.pid)

theorem Follows.state_eq (h : Follows tracees cpu start A pid k s) :
    (s.world.regs pid, s.logicalMemory) = cpu.native start k := by
  refine Prod.ext h.traced.regs ?_
  rw [Session.logicalMemory, h.traced.leader]
  exact h.traced.shows.logical

/-- Breakpoints are transparent: in every session the registers and the logical memory are a state
of the native run. -/
theorem breakpoints_transparent (hspares : cpu.Spares start A) (hfree : cpu.FreeOfInt3 start)
    (h : Debugs tracees cpu start A pid s) :
    ∃ k, (s.world.regs pid, s.logicalMemory) = cpu.native start k := by
  obtain ⟨k, hk⟩ := h.follows hspares hfree
  exact ⟨k, hk.state_eq⟩

/-- `continue_execution` stops at the first breakpoint that the native run meets, and `single_step`
makes one instruction of it. -/
theorem resuming_follows_native_run (hspares : cpu.Spares start A) (hfree : cpu.FreeOfInt3 start)
    (h : Debugs tracees cpu start A pid s) :
    ∃ k, (s.world.regs pid, s.logicalMemory) = cpu.native start k ∧
      ∀ script faults policy info t, Honest tracees cpu pid script →
        (continueExecution tracees policy (s.facing script faults) = .returned info t →
          ∃ stop, (t.world.regs pid, t.logicalMemory) = cpu.native start stop ∧
            info.reason = .breakpoint ∧
            info.breakpointAddress = some (cpu.native start stop).1.rip ∧
            s.resumesAt k ≤ stop ∧ (cpu.native start stop).1.rip ∈ s.dbg.breakpointsByAddress ∧
            ∀ i, s.resumesAt k ≤ i → i < stop →
              (cpu.native start i).1.rip ∉ s.dbg.breakpointsByAddress) ∧
        (singleStep tracees policy (s.facing script faults) = .returned info t →
          hasEntry s.dbg (s.world.regs pid).rip true = false →
          (t.world.regs pid, t.logicalMemory) = cpu.native start (k + 1) ∧
            info.reason = .singleStep) := by
  obtain ⟨k, hk⟩ := h.follows hspares hfree
  refine ⟨k, hk.state_eq, fun script faults policy info t hscript => ⟨fun hrun => ?_,
    fun hrun hoff => ?_⟩⟩
  · have hfacing : Follows tracees cpu start A pid k (s.facing script faults) :=
      hk.facing hscript faults
    obtain ⟨stop, ht⟩ := wp_returned (follows_continueExecution hspares hfree hfacing policy) hrun
    exact ⟨stop, ht.follows.state_eq, ht.reason, ht.address, ht.later, ht.arrived, ht.first⟩
  · have hfacing : Follows tracees cpu start A pid k (s.facing script faults) :=
      hk.facing hscript faults
    obtain ⟨hreason, ht⟩ := wp_returned (follows_singleStep hspares hfree hfacing hoff policy) hrun
    exact ⟨ht.state_eq, hreason⟩

theorem Debugs.after (h : Debugs tracees cpu start A pid s) {op : Operation} {r : Result}
    {script : List Wakeup} (hop : op.Steady A pid s) (hscript : Honest tracees cpu pid script)
    (hrun : ((op.run tracees) (s.facing script [])).value? = some r) :
    Debugs tracees cpu start A pid (s.after tracees op script) := by
  unfold Session.after
  cases ho : op.run tracees (s.facing script []) with
  | returned r' t => exact h.returned hop hscript ho
  | raised e t => rw [ho] at hrun; cases hrun
  | blocked w t => rw [ho] at hrun; cases hrun

end Runs

/-! ## A program of `nop`s -/

namespace Nops

def cpu : Cpu where
  execute state := ({ state.1 with rip := state.1.rip + 1 }, state.2)

def start : UserRegs × Memory := ({ rip := 0x1000 }, fun _ => some 0x90)

/-- The program runs from its start into an `INT3` three instructions later. -/
def tracees : Tracees := fun s _ =>
  decide (s.world.mode 10 = some .cont ∧ s.world.regs 10 = start.1 ∧
    s.world.memory 10 0x1000 ≠ some int3 ∧ s.world.memory 10 0x1001 ≠ some int3 ∧
    s.world.memory 10 0x1002 ≠ some int3 ∧ s.world.memory 10 0x1003 = some int3)

def hit : Wakeup :=
  .report { tid := 10, status := .stopped sigtrap .none, regs := { rip := 0x1004 } }

theorem native_memory (k : Nat) : (cpu.native start k).2 = fun _ => some 0x90 := by
  induction k with
  | zero => rfl
  | succ k ih =>
    rw [Cpu.native, Function.iterate_succ_apply', ← Cpu.native]
    exact ih

theorem free : cpu.FreeOfInt3 start := by
  intro k
  rw [Cpu.fetchesInt3, native_memory]
  show ¬some (0x90 : Byte) = some int3
  decide

theorem spares : cpu.Spares start Set.univ := by
  intro k m _ _
  refine ⟨?_, fun a => ⟨fun _ => rfl, fun ha => absurd (Set.mem_univ a) ha⟩⟩
  rw [Cpu.native, Cpu.native, Function.iterate_succ_apply']
  rfl

theorem honest : Honest tracees cpu 10 [hit] := by
  intro d hd u htracees
  obtain rfl : d = _ := by simpa [hit] using hd
  simp only [tracees, decide_eq_true_eq] at htracees
  obtain ⟨hmode, hregs, h0, h1, h2, h3⟩ := htracees
  have hstate : ∀ i, cpu.execute^[i] (u.world.regs 10, u.world.memory 10) =
      ({ rip := 0x1000 + BitVec.ofNat 64 i }, u.world.memory 10) := by
    intro i
    induction i with
    | zero => rw [hregs]; rfl
    | succ i ih =>
      rw [Function.iterate_succ_apply', ih]
      simp only [cpu, Prod.mk.injEq, UserRegs.mk.injEq, and_true, true_and]
      bv_omega
  refine .trapped 3 rfl rfl (.inl hmode) (fun i hi => ?_) ?_ ?_ ?_
  · rw [hstate, Cpu.fetchesInt3]
    obtain rfl | rfl | rfl : i = 0 ∨ i = 1 ∨ i = 2 := by omega
    · exact h0
    · exact h1
    · exact h2
  · rw [hstate]
    exact h3
  · rw [hstate]
    rfl
  · rw [hstate]
    rfl

def armed : Session :=
  (Session.launch 10 start.2 start.1).after tracees (.addBreakpoint 0x1003) []

def trapped : Session := armed.after tracees (.continueExecution .suppress) [hit]

/-- The stop reported at the breakpoint. -/
def hitStop : StopInfo where
  reason := .breakpoint
  value := sigtrap
  breakpointAddress := some 0x1003
  tid := 10
  sequence := 1

theorem debugs_launch : Debugs tracees cpu start Set.univ 10 (Session.launch 10 start.2 start.1) := by
  refine .start (started_launch (by decide) _ _) rfl (fun tid htid => ?_) rfl rfl
  simp only [Session.launch, launched, Process.single, Process.singleTask,
    ExtTreeMap.mem_insert, ExtTreeMap.not_mem_empty, or_false] at htid
  exact (compare_eq_iff_eq.mp htid).symm

theorem debugs_armed : Debugs tracees cpu start Set.univ 10 armed :=
  debugs_launch.after (r := .breakpoint 1) (Set.mem_univ _) honest_nil rfl

theorem debugs_trapped : Debugs tracees cpu start Set.univ 10 trapped :=
  debugs_armed.after (r := .stop hitStop) trivial honest rfl

end Nops

theorem breakpoints_transparent_nops :
    ∃ k, (Nops.trapped.world.regs 10, Nops.trapped.logicalMemory) = Nops.cpu.native Nops.start k :=
  breakpoints_transparent Nops.spares Nops.free Nops.debugs_trapped

theorem resuming_follows_native_run_nops :
    ∃ k, (Nops.armed.world.regs 10, Nops.armed.logicalMemory) = Nops.cpu.native Nops.start k ∧
      ∃ stop, (Nops.trapped.world.regs 10, Nops.trapped.logicalMemory) =
        Nops.cpu.native Nops.start stop ∧ Nops.armed.resumesAt k ≤ stop := by
  obtain ⟨k, hk, hresume⟩ := resuming_follows_native_run Nops.spares Nops.free Nops.debugs_armed
  obtain ⟨stop, hstop, -, -, hlater, -⟩ :=
    (hresume [Nops.hit] [] .suppress Nops.hitStop Nops.trapped Nops.honest).1 rfl
  exact ⟨k, hk, stop, hstop, hlater⟩

end MiniDebugger
