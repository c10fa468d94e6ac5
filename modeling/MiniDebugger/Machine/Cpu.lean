import MiniDebugger.Kernel
import MiniDebugger.Overlay
import Mathlib.Data.Set.Defs

/-!
# A deterministic tracee

`Cpu` is a processor that executes one program: `execute` is the effect of the instruction at RIP
on the registers and the memory. `native` is its run without a debugger. Under a debugger some
bytes of the memory are patched with `INT3`; fetching one stops the program, and `Stops` lists the
stops that the kernel can report for it.

A patched run keeps step with the native one as long as the program `Spares` the patched bytes,
that is, touches them only by executing the instruction that starts there.
-/

namespace MiniDebugger

open Overlay

structure Cpu where
  execute : UserRegs × Memory → UserRegs × Memory

namespace Cpu

variable (cpu : Cpu) (start : UserRegs × Memory) (A : Set Addr)

/-- The state after `k` instructions. -/
def native (k : Nat) : UserRegs × Memory := cpu.execute^[k] start

/-- The byte at RIP is an `INT3`. -/
def fetchesInt3 (state : UserRegs × Memory) : Prop := state.2 state.1.rip = some int3

/-- The program has no `INT3` of its own. -/
def FreeOfInt3 : Prop := ∀ k, ¬fetchesInt3 (cpu.native start k)

/-- Other bytes at the addresses in `A` make no difference to an instruction that does not start
at them, and it leaves them alone. -/
def Spares : Prop :=
  ∀ k m, (∀ a ∉ A, m a = (cpu.native start k).2 a) →
    m (cpu.native start k).1.rip = (cpu.native start k).2 (cpu.native start k).1.rip →
    (cpu.execute ((cpu.native start k).1, m)).1 = (cpu.native start (k + 1)).1 ∧
    ∀ a, (a ∈ A → (cpu.execute ((cpu.native start k).1, m)).2 a = m a) ∧
      (a ∉ A → (cpu.execute ((cpu.native start k).1, m)).2 a = (cpu.native start (k + 1)).2 a)

/-- The stops of the program of `pid`: the end of a single step, or an `INT3` after `j`
instructions. -/
inductive Stops (pid : Pid) (w : World) (d : Delivery) : Prop
  | stepped (htid : d.tid = pid) (hstatus : d.status = .stopped sigtrap .none)
      (hmode : w.mode pid = some .step) (hfetch : ¬fetchesInt3 (w.regs pid, w.memory pid))
      (hnext : (d.regs, d.effect (w.memory pid)) = cpu.execute (w.regs pid, w.memory pid))
  | trapped (j : Nat) (htid : d.tid = pid) (hstatus : d.status = .stopped sigtrap .none)
      (hmode : w.mode pid = some .cont ∨ w.mode pid = some .step ∧ j = 0)
      (hrun : ∀ i < j, ¬fetchesInt3 (cpu.execute^[i] (w.regs pid, w.memory pid)))
      (hfetch : fetchesInt3 (cpu.execute^[j] (w.regs pid, w.memory pid)))
      (hregs : d.regs = { (cpu.execute^[j] (w.regs pid, w.memory pid)).1 with
        rip := (cpu.execute^[j] (w.regs pid, w.memory pid)).1.rip + 1 })
      (hmemory : d.effect (w.memory pid) = (cpu.execute^[j] (w.regs pid, w.memory pid)).2)

/-- The patched memory `m` stands for the native memory `n`. -/
structure Shows (patches : Addr → Option (Patch Byte)) (m n : Memory) : Prop where
  inside : ∀ a, patches a ≠ none → a ∈ A
  armed : Armed int3 patches m
  logical : logical patches m = n

variable {cpu start A} {patches : Addr → Option (Patch Byte)} {m n : Memory}

/-- A byte that is not the mark is the native byte. -/
theorem Shows.native_of_ne (h : Shows A patches m n) {a : Addr} (ha : m a ≠ some int3) :
    m a = n a := by
  rw [← h.logical]
  unfold Overlay.logical seen
  split
  · rename_i p hp
    split
    · rename_i happlied
      refine absurd ?_ ha
      rw [h.armed a p hp, Patch.cell, if_pos happlied]
    · rfl
  · rfl

/-- A mark that the program did not put there is a patch in place. -/
theorem Shows.applied_of_int3 (h : Shows A patches m n) {a : Addr} (ha : m a = some int3)
    (hn : n a ≠ some int3) : ∃ p, patches a = some p ∧ p.applied = true ∧ n a = some p.saved := by
  rw [← h.logical] at hn ⊢
  unfold Overlay.logical seen at hn ⊢
  split at hn
  · rename_i p hp
    split at hn
    · rename_i happlied
      exact ⟨p, hp, happlied, by simp [happlied]⟩
    · exact absurd ha hn
  · exact absurd ha hn

/-- A patch and its cell change together without changing what they stand for. -/
theorem Shows.update (h : Shows A patches m n) {a : Addr} {x : Option (Patch Byte)}
    {y : Option Byte} (hinside : x ≠ none → a ∈ A) (hcell : ∀ p, x = some p → y = some (p.cell int3))
    (hseen : seen x y = n a) :
    Shows A (Function.update patches a x) (Function.update m a y) n := by
  refine ⟨fun b hb => ?_, h.armed.update hcell, ?_⟩
  · by_cases hba : b = a
    · subst hba
      rw [Function.update_self] at hb
      exact hinside hb
    · rw [Function.update_of_ne hba] at hb
      exact h.inside b hb
  · rw [logical_update (by rw [h.logical]; exact hseen), h.logical]

/-- One instruction of the patched program is one instruction of the native program. -/
theorem Shows.execute {k : Nat} (h : Shows A patches m (cpu.native start k).2) (hspares : cpu.Spares start A)
    (hfetch : ¬fetchesInt3 ((cpu.native start k).1, m)) :
    (cpu.execute ((cpu.native start k).1, m)).1 = (cpu.native start (k + 1)).1 ∧
    Shows A patches (cpu.execute ((cpu.native start k).1, m)).2 (cpu.native start (k + 1)).2 := by
  have hlogical := congrFun h.logical
  have houtside : ∀ a ∉ A, m a = (cpu.native start k).2 a := by
    intro a ha
    rw [← hlogical a]
    have hnone : patches a = none := by_contra fun hp => ha (h.inside a hp)
    simp [Overlay.logical, seen, hnone]
  obtain ⟨hregs, hmemory⟩ := hspares k m houtside (h.native_of_ne hfetch)
  have hsame : ∀ a ∈ A, (cpu.native start (k + 1)).2 a = (cpu.native start k).2 a := by
    intro a ha
    have := ((hspares k _ (fun _ _ => rfl) rfl).2 a).1 ha
    rwa [native, Function.iterate_succ_apply', ← native]
  refine ⟨hregs, h.inside, ?_, ?_⟩
  · exact h.armed.agree fun a ha => (hmemory a).1 (h.inside a ha)
  · funext a
    by_cases ha : a ∈ A
    · rw [hsame a ha, ← hlogical a]
      simp only [Overlay.logical, (hmemory a).1 ha]
    · have hnone : patches a = none := by_contra fun hp => ha (h.inside a hp)
      simp only [Overlay.logical, seen, hnone, (hmemory a).2 ha]

/-- The patched program keeps step until it fetches an `INT3`. -/
theorem Shows.iterate (hspares : cpu.Spares start A) {k : Nat}
    (h : Shows A patches m (cpu.native start k).2) (j : Nat)
    (hrun : ∀ i < j, ¬fetchesInt3 (cpu.execute^[i] ((cpu.native start k).1, m))) :
    (cpu.execute^[j] ((cpu.native start k).1, m)).1 = (cpu.native start (k + j)).1 ∧
    Shows A patches (cpu.execute^[j] ((cpu.native start k).1, m)).2
      (cpu.native start (k + j)).2 := by
  induction j with
  | zero => exact ⟨rfl, h⟩
  | succ j ih =>
    obtain ⟨hregs, hshows⟩ := ih fun i hi => hrun i (Nat.lt_succ_of_lt hi)
    have hstate : cpu.execute^[j] ((cpu.native start k).1, m) =
        ((cpu.native start (k + j)).1, (cpu.execute^[j] ((cpu.native start k).1, m)).2) :=
      Prod.ext hregs rfl
    have hfetch := hrun j (Nat.lt_succ_self j)
    rw [hstate] at hfetch
    rw [Function.iterate_succ_apply', hstate]
    exact hshows.execute hspares hfetch

end Cpu

end MiniDebugger
