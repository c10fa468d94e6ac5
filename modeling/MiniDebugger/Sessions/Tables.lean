import MiniDebugger.Overlay
import MiniDebugger.Debugger.ExecutionRules
import MiniDebugger.Debugger.Runs

/-!
# The breakpoint tables of a process

`Domain` is what the debugger keeps for one process, and `Domain.Sound` the invariant of its
breakpoint tables: the two maps are inverse to each other and an entry is lifted only for a pending
displaced step. Seen from the tracee the table is a set of patches of its memory.
-/

namespace MiniDebugger

open Function (update update_self update_of_ne)
open Std (ExtTreeMap)
open Overlay

/-! ## Domains -/

/-- What the tables keep for one process. -/
structure Domain where
  process : Process
  table : ExtTreeMap Addr Breakpoint
  ids : ExtTreeMap Nat Addr
  pending : Option PendingBreakpointStep
  /-- The thread whose debug registers hold the watchpoint. -/
  owner : Option Pid

def Debugger.domain (d : Debugger) : Domain where
  process := d.process
  table := d.breakpointsByAddress
  ids := d.breakpointIds
  pending := d.pendingBreakpointStep
  owner := d.watchpointRegisterSnapshot.map (·.tid)

def RetainedProcessDomain.domain (d : RetainedProcessDomain) : Domain where
  process := d.process
  table := d.breakpointsByAddress
  ids := d.breakpointIds
  pending := d.pendingBreakpointStep
  owner := d.watchpointRegisterSnapshot.map (·.tid)

/-- A breakpoint table as patches of the tracee's memory. -/
def patches (table : ExtTreeMap Addr Breakpoint) : Addr → Option (Patch Byte) := fun a =>
  (table[a]?).map fun bp => ⟨bp.originalByte, bp.installed⟩

/-- The tracked tasks are tasks of the process, and a live process has some. -/
structure Process.Linked (tasks : ExtTreeMap Pid Pid) (p : Process) : Prop where
  group : ∀ tid ∈ p.taskStates, tasks[tid]? = some p.pid
  positive : ∀ tid ∈ p.taskStates, 0 < tid
  inhabited : p.live → ∃ tid, tid ∈ p.taskStates

theorem Process.Linked.mono {tasks tasks' : ExtTreeMap Pid Pid} {p : Process}
    (h : p.Linked tasks)
    (htasks : ∀ tid : Pid, tasks[tid]? = some p.pid → tasks'[tid]? = some p.pid) :
    p.Linked tasks' :=
  ⟨fun tid htid => htasks tid (h.group tid htid), h.positive, h.inhabited⟩

theorem Process.Linked.track {tasks : ExtTreeMap Pid Pid} {p : Process} {tid : Pid}
    (h : p.Linked tasks) (hgroup : tasks[tid]? = some p.pid) (hpos : 0 < tid) :
    (p.track tid).Linked tasks := by
  refine ⟨fun other hother => ?_, fun other hother => ?_, fun _ => ⟨tid, Process.mem_track.mpr (.inl rfl)⟩⟩
  · rw [Process.track_pid]
    rcases Process.mem_track.mp hother with rfl | hold
    · exact hgroup
    · exact h.group other hold
  · rcases Process.mem_track.mp hother with rfl | hold
    · exact hpos
    · exact h.positive other hold

/-- A process of one task. -/
theorem Process.Linked.singleTask {tasks : ExtTreeMap Pid Pid} {p : Process} {pid : Pid}
    (hgroup : tasks[pid]? = some pid) (hpos : 0 < pid) : (p.singleTask pid).Linked tasks := by
  have hmem : ∀ tid, tid ∈ (p.singleTask pid).taskStates → tid = pid := by
    intro tid htid
    simp only [Process.singleTask] at htid
    grind
  refine ⟨fun tid htid => ?_, fun tid htid => ?_, fun _ => ⟨pid, by simp [Process.singleTask]⟩⟩
  · rw [hmem tid htid]
    exact hgroup
  · rw [hmem tid htid]
    exact hpos

namespace Domain

/-- The breakpoint maps are inverse to each other, their ids have been issued, and while the
process lives an entry is lifted only for the pending displaced step. -/
structure Sound (next : Nat) (D : Domain) : Prop where
  forward : ∀ (a : Addr) (bp : Breakpoint), D.table[a]? = some bp →
    bp.address = a ∧ D.ids[bp.id]? = some a
  backward : ∀ (i : Nat) (a : Addr), D.ids[i]? = some a →
    ∃ bp, D.table[a]? = some bp ∧ bp.id = i
  below : ∀ (i : Nat) (a : Addr), D.ids[i]? = some a → i < next
  bounded : ∀ (a : Addr) (bp : Breakpoint), D.table[a]? = some bp → a.toNat + 8 ≤ 2 ^ 64
  displaced : D.process.live → ∀ (a : Addr) (bp : Breakpoint), D.table[a]? = some bp →
    bp.installed = false → ∃ p, D.pending = some p ∧ p.address = a

/-- The watchpoint belongs to a tracked task. -/
def Owned (D : Domain) : Prop := ∀ tid, D.owner = some tid → tid ∈ D.process.taskStates

/-- Stopped, with every breakpoint in place. -/
structure Resting (D : Domain) : Prop where
  stopped : D.process.state = .stopped
  settled : D.pending = none
  installed : ∀ (a : Addr) (bp : Breakpoint), D.table[a]? = some bp → bp.installed = true

variable {next : Nat} {D : Domain}

theorem Sound.empty {p : Process} {pending : Option PendingBreakpointStep} {owner : Option Pid} :
    Sound next ⟨p, ∅, ∅, pending, owner⟩ := by
  refine ⟨?_, ?_, ?_, ?_, ?_⟩ <;> simp

/-- Nothing is lifted once no displaced step is pending. -/
theorem Sound.installed (h : D.Sound next) (hlive : D.process.live) (hpending : D.pending = none)
    {a : Addr} {bp : Breakpoint} (hbp : D.table[a]? = some bp) : bp.installed = true := by
  by_contra hout
  obtain ⟨p, hp, -⟩ := h.displaced hlive a bp hbp (by simpa using hout)
  rw [hpending] at hp
  cases hp

theorem Sound.process (h : D.Sound next) {p : Process} {owner : Option Pid}
    (hlive : p.live → D.process.live) : Sound next { D with process := p, owner } :=
  ⟨h.forward, h.backward, h.below, h.bounded, fun hp => h.displaced (hlive hp)⟩

theorem Sound.mono (h : D.Sound next) {next' : Nat} (hle : next ≤ next') : D.Sound next' :=
  { h with below := fun i a hi => (h.below i a hi).trans_le hle }

theorem Sound.insert (h : D.Sound next) {address : Addr} {original : Byte}
    (hnew : address ∉ D.table) (hbound : address.toNat + 8 ≤ 2 ^ 64) :
    Sound (next + 1) { D with
      table := D.table.insert address ⟨next, address, original, true⟩
      ids := D.ids.insert next address } := by
  have hfresh : D.ids[next]? = none := by
    rcases hn : D.ids[next]? with _ | a
    · rfl
    · exact absurd (h.below next a hn) (lt_irrefl _)
  have hnone : D.table[address]? = none := by simpa using hnew
  refine ⟨fun a bp hbp => ?_, fun i a hi => ?_, fun i a hi => ?_, fun a bp hbp => ?_,
    fun hlive a bp hbp hout => ?_⟩
  · have := h.forward a bp
    have := h.below bp.id a
    grind
  · by_cases heq : next = i
    · subst heq
      have ha : address = a := by simpa using hi
      subst ha
      exact ⟨_, ExtTreeMap.getElem?_insert_self, rfl⟩
    · obtain ⟨bp, hbp, hid⟩ := h.backward i a (by grind)
      exact ⟨bp, by grind, hid⟩
  · have := h.below i a
    grind
  · have := h.bounded a bp
    grind
  · have := h.displaced hlive a bp
    grind

theorem Sound.erase (h : D.Sound next) {i : Nat} {address : Addr}
    (hi : D.ids[i]? = some address) {pending : Option PendingBreakpointStep}
    (hpending : ∀ p, D.pending = some p → p.address ≠ address → pending = some p) :
    Sound next { D with
      table := D.table.erase address, ids := D.ids.erase i, pending } := by
  obtain ⟨bp₀, hbp₀, hid₀⟩ := h.backward i address hi
  refine ⟨fun a bp hbp => ?_, fun j a hj => ?_, fun j a hj => ?_, fun a bp hbp => ?_,
    fun hlive a bp hbp hout => ?_⟩
  · have := h.forward a bp
    grind
  · have := h.backward j a
    have := h.forward a bp₀
    grind
  · have := h.below j a
    grind
  · have := h.bounded a bp
    grind
  · have hne : address ≠ a := by grind
    obtain ⟨p, hp, ha⟩ := h.displaced hlive a bp (by grind) hout
    exact ⟨p, hpending p hp (by grind), ha⟩

/-- Lift or replace one mark. -/
theorem Sound.setInstalled (h : D.Sound next) {address : Addr} {installed : Bool}
    {pending : Option PendingBreakpointStep}
    (hpending : D.process.live → ∀ (a : Addr) (bp : Breakpoint), D.table[a]? = some bp →
      (if a = address then installed else bp.installed) = false →
      ∃ p, pending = some p ∧ p.address = a) :
    Sound next { D with
      table := D.table.modify address fun bp => { bp with installed }, pending } := by
  have hget : ∀ (a : Addr) (bp : Breakpoint),
      (D.table.modify address fun bp => { bp with installed })[a]? = some bp →
      ∃ bp₀, D.table[a]? = some bp₀ ∧ bp.id = bp₀.id ∧ bp.address = bp₀.address ∧
        bp.installed = if a = address then installed else bp₀.installed := by
    intro a bp hbp
    rw [ExtTreeMap.getElem?_modify] at hbp
    grind
  refine ⟨fun a bp hbp => ?_, fun i a hi => ?_, h.below, fun a bp hbp => ?_,
    fun hlive a bp hbp hout => ?_⟩
  · obtain ⟨bp₀, hbp₀, hid, haddr, -⟩ := hget a bp hbp
    have := h.forward a bp₀ hbp₀
    rw [hid, haddr]
    exact this
  · obtain ⟨bp₀, hbp₀, hid⟩ := h.backward i a hi
    rw [ExtTreeMap.getElem?_modify]
    by_cases ha : address = a
    · subst ha
      exact ⟨{ bp₀ with installed }, by simp [hbp₀], hid⟩
    · exact ⟨bp₀, by simp [ha, hbp₀], hid⟩
  · obtain ⟨bp₀, hbp₀, -, -, -⟩ := hget a bp hbp
    exact h.bounded a bp₀ hbp₀
  · obtain ⟨bp₀, hbp₀, -, -, hin⟩ := hget a bp hbp
    exact hpending hlive a bp₀ hbp₀ (hin ▸ hout)

theorem Sound.sameBreakpoints (h : D.Sound next) {table : ExtTreeMap Addr Breakpoint}
    (hsame : SameBreakpoints D.table table) : Sound next { D with table } := by
  have hget : ∀ (a : Addr) (bp : Breakpoint), table[a]? = some bp →
      ∃ bp₀, D.table[a]? = some bp₀ ∧ bp.id = bp₀.id ∧ bp.address = bp₀.address ∧
        bp.installed = bp₀.installed := by
    intro a bp hbp
    rcases ha : D.table[a]? with _ | bp₀
    · rw [hsame.1 a ha] at hbp
      cases hbp
    · obtain ⟨byte, hbyte, -⟩ := hsame.2 a bp₀ ha
      rw [hbyte] at hbp
      cases hbp
      exact ⟨bp₀, rfl, rfl, rfl, rfl⟩
  refine ⟨fun a bp hbp => ?_, fun i a hi => ?_, h.below, fun a bp hbp => ?_,
    fun hlive a bp hbp hout => ?_⟩
  · obtain ⟨bp₀, hbp₀, hid, haddr, -⟩ := hget a bp hbp
    have := h.forward a bp₀ hbp₀
    rw [hid, haddr]
    exact this
  · obtain ⟨bp₀, hbp₀, hid⟩ := h.backward i a hi
    obtain ⟨byte, hbyte, -⟩ := hsame.2 a bp₀ hbp₀
    exact ⟨_, hbyte, hid⟩
  · obtain ⟨bp₀, hbp₀, -⟩ := hget a bp hbp
    exact h.bounded a bp₀ hbp₀
  · obtain ⟨bp₀, hbp₀, -, -, hin⟩ := hget a bp hbp
    exact h.displaced hlive a bp₀ hbp₀ (hin ▸ hout)

end Domain

/-! ## Patches -/

section Patches

variable {table : ExtTreeMap Addr Breakpoint} {address : Addr} {bp : Breakpoint}

theorem patches_insert : patches (table.insert address bp) =
    update (patches table) address (some ⟨bp.originalByte, bp.installed⟩) := by
  funext a
  by_cases ha : a = address
  · subst ha
    simp [patches]
  · simp [patches, update_of_ne ha, ExtTreeMap.getElem?_insert, Ne.symm ha]

theorem patches_erase : patches (table.erase address) = update (patches table) address none := by
  funext a
  by_cases ha : a = address
  · subst ha
    simp [patches]
  · simp [patches, update_of_ne ha, ExtTreeMap.getElem?_erase, Ne.symm ha]

theorem patches_setInstalled {installed : Bool} (hbp : table[address]? = some bp) :
    patches (table.modify address fun bp => { bp with installed }) =
      update (patches table) address (some ⟨bp.originalByte, installed⟩) := by
  funext a
  by_cases ha : a = address
  · subst ha
    simp [patches, hbp]
  · simp [patches, update_of_ne ha, ExtTreeMap.getElem?_modify, Ne.symm ha]

theorem patches_eq_some (hbp : table[address]? = some bp) :
    patches table address = some ⟨bp.originalByte, bp.installed⟩ := by
  simp [patches, hbp]

theorem mem_of_patches (h : patches table address ≠ none) : address ∈ table := by
  rw [ExtTreeMap.mem_iff_isSome_getElem?]
  simpa [patches, Option.isSome_iff_ne_none] using h

theorem armed_empty {m : Memory} : Armed int3 (patches ∅) m := by
  intro a p hp
  simp [patches] at hp

/-- Saved bytes under a mark do not show. -/
theorem Armed.sameBreakpoints {table' : ExtTreeMap Addr Breakpoint} {m : Memory}
    (h : Armed int3 (patches table) m) (hsame : SameBreakpoints table table') :
    Armed int3 (patches table') m := by
  intro a p hp
  rcases ha : table[a]? with _ | bp
  · simp [patches, hsame.1 a ha] at hp
  · obtain ⟨byte, hbyte, hsaved⟩ := hsame.2 a bp ha
    have harmed := h a _ (patches_eq_some ha)
    rw [patches_eq_some hbyte] at hp
    cases hp
    rw [harmed]
    rcases hin : bp.installed with _ | _
    · simp [Patch.cell, hsaved hin]
    · simp [Patch.cell]

end Patches

end MiniDebugger
