import MiniDebugger.Debugger.Wait
import MiniDebugger.Debugger.BreakpointRules

/-!
# The tracee's own bytes

`ownMemory` is the memory as the tracee itself made it: between two waits a byte it has changed
becomes its own, and what the debugger writes does not count. A byte is `Planted` if it is an `INT3`
the tracee has not put there, and `Accounted` says that the breakpoint table knows every one of them.
-/

namespace MiniDebugger

open Function (update update_self update_of_ne)
open Std (ExtTreeMap)

/-- `PTRACE_EVENT_FORK` or `PTRACE_EVENT_VFORK` -/
def WaitStatus.isFork : WaitStatus → Bool
  | .stopped _ .fork | .stopped _ .vfork => true
  | _ => false

namespace World

/-- The own bytes of the reporting process: an `exec` replaces all of them. -/
def ownImage (w : World) (d : Delivery) (own : Memory) : Memory :=
  if d.status.isExec then w.memoryAfter d
  else fun a => if w.memoryAfter d a = w.memory (w.groupOf d) a then own a else w.memoryAfter d a

def ownDelivered (w : World) (d : Delivery) (own : Pid → Memory) : Pid → Memory :=
  let image := w.ownImage d (own (w.groupOf d))
  let own := update own (w.groupOf d) image
  if d.status.isFork then update own (child d) image else own

end World

/-- The own bytes of each process after the recorded reports, given those at the start. -/
def ownMemory (start : Pid → Memory) : List WaitRecord → Pid → Memory
  | [] => start
  | .waits _ _ :: history => ownMemory start history
  | .takes _ w d :: history => w.ownDelivered d (ownMemory start history)

/-- The byte is an `INT3` that the debugger wrote over another one. -/
def Planted (m own : Memory) (a : Addr) : Prop := m a = some int3 ∧ own a ≠ some int3

/-- Every `INT3` of the debugger is a breakpoint in place, and none was taken for the byte under
another one. -/
structure Accounted (table : ExtTreeMap Addr Breakpoint) (m own : Memory) : Prop where
  owned : ∀ a, Planted m own a → ∃ bp, table[a]? = some bp ∧ bp.installed = true
  saved : ∀ (a : Addr) (bp : Breakpoint), table[a]? = some bp → bp.originalByte ≠ int3

section Accounted

variable {table : ExtTreeMap Addr Breakpoint} {m own : Memory} {address : Addr} {bp : Breakpoint}

theorem accounted_empty (h : ∀ a, ¬Planted m own a) : Accounted ∅ m own := by
  refine ⟨fun a ha => absurd ha (h a), fun a bp hbp => ?_⟩
  simp at hbp

/-- A report plants nothing. -/
theorem Planted.of_report {w : World} {d : Delivery} {a : Addr}
    (h : Planted (w.memoryAfter d) (w.ownImage d own) a) :
    Planted (w.memory (w.groupOf d)) own a := by
  obtain ⟨hbyte, hown⟩ := h
  unfold World.ownImage at hown
  split at hown
  · exact absurd hbyte hown
  · dsimp only at hown
    by_cases hkept : w.memoryAfter d a = w.memory (w.groupOf d) a
    · rw [if_pos hkept] at hown
      exact ⟨hkept ▸ hbyte, hown⟩
    · rw [if_neg hkept] at hown
      exact absurd hbyte hown

theorem not_planted_of_exec {w : World} {d : Delivery} {a : Addr} (h : d.status.isExec = true) :
    ¬Planted (w.memoryAfter d) (w.ownImage d own) a := by
  rintro ⟨hbyte, hown⟩
  rw [World.ownImage, if_pos h] at hown
  exact hown hbyte

theorem Accounted.report {w : World} {d : Delivery}
    (h : Accounted table (w.memory (w.groupOf d)) own) :
    Accounted table (w.memoryAfter d) (w.ownImage d own) :=
  ⟨fun a ha => h.owned a ha.of_report, h.saved⟩

/-- Arming a breakpoint where the tracee's own byte is no `INT3`. -/
theorem Accounted.insert (h : Accounted table m own) (id : Nat) {original : Byte}
    (hnew : address ∉ table) (hbyte : m address = some original) (hown : own address ≠ some int3) :
    Accounted (table.insert address ⟨id, address, original, true⟩)
      (update m address (some int3)) own := by
  have horiginal : original ≠ int3 := by
    rintro rfl
    obtain ⟨bp, hbp, -⟩ := h.owned address ⟨hbyte, hown⟩
    exact hnew (ExtTreeMap.mem_iff_isSome_getElem?.mpr (Option.isSome_of_eq_some hbp))
  refine ⟨fun a ha => ?_, fun a bp hbp => ?_⟩
  · by_cases heq : address = a
    · subst heq
      exact ⟨_, ExtTreeMap.getElem?_insert_self, rfl⟩
    · have ha : Planted m own a := by
        rwa [Planted, update_of_ne (Ne.symm heq)] at ha
      rw [ExtTreeMap.getElem?_insert, if_neg (by simpa using heq)]
      exact h.owned a ha
  · rw [ExtTreeMap.getElem?_insert] at hbp
    split at hbp
    · cases hbp
      exact horiginal
    · exact h.saved a bp hbp

/-- Taking a breakpoint out of the table, with the byte put back or with nothing planted there. -/
theorem Accounted.erase (h : Accounted table m own) {m' : Memory}
    (hclear : ¬Planted m' own address) (hrest : ∀ a, a ≠ address → m' a = m a) :
    Accounted (table.erase address) m' own := by
  refine ⟨fun a ha => ?_, fun a bp hbp => ?_⟩
  · have hne : a ≠ address := by
      rintro rfl
      exact hclear ha
    rw [Planted, hrest a hne] at ha
    rw [ExtTreeMap.getElem?_erase, if_neg (by simpa using hne.symm)]
    exact h.owned a ha
  · rw [ExtTreeMap.getElem?_erase] at hbp
    split at hbp
    · cases hbp
    · exact h.saved a bp hbp

/-- Lifting or replacing the mark of a breakpoint. -/
theorem Accounted.setInstalled (h : Accounted table m own) (hbp : table[address]? = some bp)
    (installed : Bool) (byte : Byte) (hbyte : installed = false → byte ≠ int3) :
    Accounted (table.modify address fun bp => { bp with installed })
      (update m address (some byte)) own := by
  refine ⟨fun a ha => ?_, fun a bp' hbp' => ?_⟩
  · by_cases heq : a = address
    · subst heq
      refine ⟨{ bp with installed }, by simp [hbp], ?_⟩
      rw [Planted, update_self] at ha
      by_contra hout
      exact hbyte (by simpa using hout) (Option.some.inj ha.1)
    · rw [Planted, update_of_ne heq] at ha
      rw [ExtTreeMap.getElem?_modify, if_neg (by simpa using Ne.symm heq)]
      exact h.owned a ha
  · rw [ExtTreeMap.getElem?_modify] at hbp'
    split at hbp'
    · obtain ⟨bp₀, hbp₀, rfl⟩ := Option.map_eq_some_iff.mp hbp'
      exact h.saved address bp₀ hbp₀
    · exact h.saved a bp' hbp'

end Accounted

/-- The own bytes of a process the report is not about stay as they are. -/
theorem ownMemory_of_ne {w : World} {d : Delivery} {own : Pid → Memory} {p : Pid}
    (hp : p ≠ w.groupOf d) (hchild : d.status.isFork = true → p ≠ World.child d) :
    w.ownDelivered d own p = own p := by
  unfold World.ownDelivered
  split
  · rw [update_of_ne (hchild ‹_›), update_of_ne hp]
  · rw [update_of_ne hp]

theorem ownMemory_self {w : World} {d : Delivery} {own : Pid → Memory}
    (hchild : d.status.isFork = true → w.groupOf d ≠ World.child d) :
    w.ownDelivered d own (w.groupOf d) = w.ownImage d (own (w.groupOf d)) := by
  unfold World.ownDelivered
  split
  · rw [update_of_ne (hchild ‹_›), update_self]
  · rw [update_self]

end MiniDebugger
