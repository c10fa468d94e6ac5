import MiniDebugger.Debugger.BreakpointRules
import MiniDebugger.Debugger.Runs

/-!
# Word access at the end of a mapping

`read_memory` reads whole words from the address it is given, and `write_byte` reads and writes the
word above its byte. Both therefore need bytes that they were not asked for: `roundUp n` of them
from the address on in place of `n`, and eight in place of one.
-/

namespace MiniDebugger

open Command

/-- The bytes of `[a, a + n)`, as far as they are mapped. -/
def span (m : Memory) (a : Addr) (n : Nat) : List (Option Byte) :=
  (List.range n).map fun i => m (a + BitVec.ofNat 64 i)

/-- The range `[a, a + n)` does not wrap and each byte of it is mapped. -/
def Mapped (m : Memory) (a : Addr) (n : Nat) : Prop :=
  a.toNat + n ≤ 2 ^ 64 ∧ ∀ i < n, (m (a + BitVec.ofNat 64 i)).isSome = true

instance (m : Memory) (a : Addr) (n : Nat) : Decidable (Mapped m a n) :=
  inferInstanceAs (Decidable (_ ∧ _))

/-- The bytes that `read_memory` reads for a request of `n`. -/
def roundUp (n : Nat) : Nat := 8 * ((n + 7) / 8)

section

variable {m : Memory} {a : Addr}

theorem accessible_iff : accessible m a = true ↔ Mapped m a 8 := by
  simp [accessible, wordAt, Mapped]

theorem Mapped.mono {n k : Nat} (h : Mapped m a n) (hk : k ≤ n) : Mapped m a k :=
  ⟨by have := h.1; omega, fun i hi => h.2 i (by omega)⟩

/-- Two adjoining ranges. -/
theorem mapped_add {n k : Nat} (hk : k = 0 ∨ a.toNat + n < 2 ^ 64) :
    Mapped m a (n + k) ↔ Mapped m a n ∧ Mapped m (a + BitVec.ofNat 64 n) k := by
  obtain rfl | hbound := hk
  · refine ⟨fun h => ⟨h, Nat.le_of_lt (a + BitVec.ofNat 64 n).isLt, fun i hi => ?_⟩, (·.1)⟩
    omega
  have hn : (a + BitVec.ofNat 64 n).toNat = a.toNat + n := by bv_omega
  constructor
  · intro h
    refine ⟨h.mono (by omega), ?_, fun i hi => ?_⟩
    · have := h.1
      omega
    · have := h.2 (n + i) (by omega)
      rwa [BitVec.ofNat_add, ← BitVec.add_assoc] at this
  · intro ⟨hlow, hhigh⟩
    refine ⟨?_, fun i hi => ?_⟩
    · have := hhigh.1
      omega
    · by_cases hlt : i < n
      · exact hlow.2 i hlt
      · have := hhigh.2 (i - n) (by omega)
        rwa [BitVec.add_assoc, ← BitVec.ofNat_add, Nat.add_sub_cancel' (by omega)] at this

theorem span_add (n k : Nat) : span m a (n + k) = span m a n ++ span m (a + BitVec.ofNat 64 n) k := by
  simp [span, List.range_add, Function.comp_def, BitVec.ofNat_add, BitVec.add_assoc]

theorem wordAt_eq_span : wordAt m a = span m a 8 := rfl

/-- Reading mapped bytes loses nothing. -/
theorem map_some_span {n : Nat} (h : Mapped m a n) :
    ((span m a n).map (·.getD 0)).map some = span m a n := by
  simp only [span, List.map_map]
  refine List.map_congr_left fun i hi => ?_
  obtain ⟨b, hb⟩ := Option.isSome_iff_exists.mp (h.2 i (List.mem_range.mp hi))
  simp [hb]

theorem take_span {n k : Nat} (hk : k ≤ n) : (span m a n).take k = span m a k := by
  simp only [span, ← List.map_take, List.take_range, Nat.min_eq_left hk]

end

namespace Lowlevel

/-! ## Requests that meet no other failure -/

section

variable {s : Session} (tid : Pid) (a : Addr)

/-- The memory that requests to `tid` go to. -/
abbrev memoryOf (s : Session) (tid : Pid) : Memory := s.world.memory (space s.world tid)

theorem peekWord_eq (hf : s.faults = []) :
    peekWord tid a s = if accessible (memoryOf s tid) a then
      .returned ((wordAt (memoryOf s tid) a).map (·.getD 0)) s
    else .raised (.ptraceError "PTRACE_PEEKDATA" eio) s := by
  simp only [peekWord, attempt, hf, bind, Command.read]
  split <;> rfl

theorem readByte_eq (hf : s.faults = []) :
    readByte tid a s = if accessible (memoryOf s tid) a then
      .returned ((memoryOf s tid a).getD 0) s
    else .raised (.ptraceError "PTRACE_PEEKDATA" eio) s := by
  simp only [readByte, bind, peekWord_eq tid a hf]
  by_cases h : accessible (memoryOf s tid) a = true
  · simp [h, wordAt, List.range_succ, pure]
  · simp only [h]
    rfl

theorem writeByte_eq (value : Byte) (hf : s.faults = []) :
    writeByte tid a value s = if accessible (memoryOf s tid) a then
      .returned () (s.poke tid a value)
    else .raised (.ptraceError "PTRACE_PEEKDATA" eio) s := by
  simp only [writeByte, bind, peekWord_eq tid a hf]
  by_cases h : accessible (memoryOf s tid) a = true
  · simp only [h, if_true, pokeWord, attempt, hf, bind, Command.read]
    exact congrArg (fun m => Outcome.returned () { s with
      world := { s.world with memory := Function.update s.world.memory (space s.world tid) m } })
      (storeWord_set h)
  · simp only [h]
    rfl

/-- The loop of `read_memory`: it gets through when every byte of its words is mapped. -/
theorem wp_words (hf : s.faults = []) {length : Nat} (hbound : a.toNat + length ≤ 2 ^ 64) :
    ∀ n offset, length ≤ offset + 8 * n → (n = 0 ∨ offset + 8 * (n - 1) < length) →
      wp (readMemory.words tid a length n offset)
        ⟨fun bytes t => t = s ∧ Mapped (memoryOf s tid) (a + BitVec.ofNat 64 offset) (8 * n) ∧
            bytes.map some = span (memoryOf s tid) (a + BitVec.ofNat 64 offset) (length - offset),
          fun _ t => t = s ∧ ¬Mapped (memoryOf s tid) (a + BitVec.ofNat 64 offset) (8 * n),
          fun _ _ => False⟩ s := by
  intro n
  induction n with
  | zero =>
    intro offset hlen _
    have hempty : length - offset = 0 := by omega
    refine ⟨rfl, ⟨?_, fun i hi => absurd hi (by omega)⟩, ?_⟩
    · exact Nat.le_of_lt (a + BitVec.ofNat 64 offset).isLt
    · simp [hempty, span]
  | succ n ih =>
    intro offset hlen hlast
    have hoffset : (a + BitVec.ofNat 64 offset).toNat = a.toNat + offset := by bv_omega
    have hnext : a + BitVec.ofNat 64 (offset + 8) = a + BitVec.ofNat 64 offset + BitVec.ofNat 64 8 := by
      rw [BitVec.ofNat_add, BitVec.add_assoc]
    have hsplit := mapped_add (m := memoryOf s tid) (a := a + BitVec.ofNat 64 offset) (n := 8)
      (k := 8 * n) (by omega)
    rw [show 8 * (n + 1) = 8 + 8 * n by omega, hsplit, ← hnext]
    simp only [readMemory.words, wp_bind]
    have hword := peekWord_eq tid (a + BitVec.ofNat 64 offset) hf
    by_cases hacc : accessible (memoryOf s tid) (a + BitVec.ofNat 64 offset) = true
    · rw [if_pos hacc] at hword
      have hmapped := accessible_iff.mp hacc
      unfold wp
      rw [hword]
      refine wp_mono (ih (offset + 8) (by omega) (by omega)) ?_ ?_ (fun _ _ h => h)
      · intro rest t ⟨ht, hrest, hbytes⟩
        refine ⟨ht, ⟨hmapped, hrest⟩, ?_⟩
        rw [List.map_append, hbytes, List.map_take, wordAt_eq_span, map_some_span hmapped,
          take_span (Nat.min_le_left 8 _), hnext]
        by_cases hshort : length - offset ≤ 8
        · have hdone : length - (offset + 8) = 0 := by omega
          rw [Nat.min_eq_right hshort, hdone]
          simp [span]
        · rw [Nat.min_eq_left (by omega), ← span_add]
          congr 1
          omega
      · intro e t ⟨ht, hrest⟩
        exact ⟨ht, fun h => hrest h.2⟩
    · rw [if_neg hacc] at hword
      unfold wp
      rw [hword]
      exact ⟨rfl, fun h => hacc (accessible_iff.mpr h.1)⟩

/-- `read_memory` returns the bytes asked for if all the bytes of their words are mapped. -/
theorem wp_readMemory (hf : s.faults = []) {n : Nat} (hbound : a.toNat + n ≤ 2 ^ 64) :
    wp (readMemory tid a n)
      ⟨fun bytes t => t = s ∧ Mapped (memoryOf s tid) a (roundUp n) ∧
          bytes.map some = span (memoryOf s tid) a n,
        fun _ t => t = s ∧ ¬Mapped (memoryOf s tid) a (roundUp n), fun _ _ => False⟩ s := by
  have := wp_words tid a hf hbound ((n + 7) / 8) 0 (by omega) (by omega)
  simpa [roundUp, readMemory] using this

end

end Lowlevel

/-! ## Exact access -/

open Lowlevel (memoryOf)

/-- `read_memory` returns the bytes of `[a, a + n)` if they are mapped and throws otherwise. -/
def ReadsExactly (s : Session) (tid : Pid) (a : Addr) (n : Nat) : Prop :=
  wp (Lowlevel.readMemory tid a n)
    ⟨fun bytes t => t = s ∧ bytes.map some = span (memoryOf s tid) a n,
      fun _ t => t = s ∧ ¬Mapped (memoryOf s tid) a n, fun _ _ => False⟩ s

/-- `write_byte` succeeds if its byte is mapped, and then changes that byte only. -/
def WritesExactly (s : Session) (tid : Pid) (a : Addr) (value : Byte) : Prop :=
  wp (Lowlevel.writeByte tid a value)
    ⟨fun _ t => t = s.poke tid a value, fun _ t => t = s ∧ ¬Mapped (memoryOf s tid) a 1,
      fun _ _ => False⟩ s

/-- The checks that `add_breakpoint` makes before it looks at the memory. -/
structure Session.AcceptsBreakpoint (s : Session) (a : Addr) : Prop where
  policy : ¬(s.dbg.forkFollowPolicy = .both ∧ s.dbg.retainedProcesses.isEmpty = true)
  ready : s.dbg.process.Ready
  vacant : s.dbg.breakpointsByAddress.contains a = false

/-- A mapped byte can hold a breakpoint. -/
def HoldsBreakpoint (s : Session) (a : Addr) : Prop :=
  wp (addBreakpoint a)
    ⟨fun _ t => t.world = (s.poke s.dbg.process.currentTid a int3).world,
      fun _ t => t = s ∧ ¬Mapped (memoryOf s s.dbg.process.currentTid) a 1, fun _ _ => False⟩ s

section

variable {s : Session} {tid : Pid} {a : Addr}

theorem readsExactly_iff (hf : s.faults = []) {n : Nat} (hbound : a.toNat + n ≤ 2 ^ 64) :
    ReadsExactly s tid a n ↔
      (Mapped (memoryOf s tid) a n → Mapped (memoryOf s tid) a (roundUp n)) := by
  have hread := Lowlevel.wp_readMemory tid a hf hbound
  constructor
  · intro h hmapped
    have := wp_and hread h
    unfold wp at this
    split at this
    · exact this.1.2.1
    · exact absurd hmapped this.2.2
    · exact this.1.elim
  · intro h
    refine wp_mono hread (fun bytes t ht => ⟨ht.1, ht.2.2⟩) (fun e t ht => ⟨ht.1, ?_⟩)
      (fun _ _ h => h)
    exact fun hmapped => ht.2 (h hmapped)

theorem writesExactly_iff (hf : s.faults = []) {value : Byte} :
    WritesExactly s tid a value ↔
      (Mapped (memoryOf s tid) a 1 → Mapped (memoryOf s tid) a 8) := by
  unfold WritesExactly wp
  rw [Lowlevel.writeByte_eq tid a value hf]
  by_cases hacc : accessible (memoryOf s tid) a = true
  · rw [if_pos hacc]
    exact iff_of_true rfl fun _ => accessible_iff.mp hacc
  · rw [if_neg hacc, ← accessible_iff]
    simp [hacc]

theorem stoppedTid_eq (h : s.dbg.process.Ready) :
    stoppedTid s = .returned s.dbg.process.currentTid s := by
  obtain ⟨tid, t, heq, rfl, rfl⟩ := returned_of_wp (x := stoppedTid) (s := s)
    (Q := fun tid t => tid = s.dbg.process.currentTid ∧ t = s)
    (wp_stoppedTid (fun _ _ _ => ⟨rfl, rfl⟩) (fun _ hnot => hnot h))
  exact heq

/-- `add_breakpoint` past its checks. -/
theorem wp_addBreakpoint_exact (hf : s.faults = []) (hs : s.AcceptsBreakpoint a)
    (Q : Post WaitCall Exception Session Nat) :
    wp (addBreakpoint a) Q s = if accessible (memoryOf s s.dbg.process.currentTid) a then
      Q.returned s.dbg.nextBreakpointId { s.poke s.dbg.process.currentTid a int3 with
        dbg := s.dbg.insertBreakpoint a ((memoryOf s s.dbg.process.currentTid a).getD 0) }
    else Q.raised (.ptraceError "PTRACE_PEEKDATA" eio) s := by
  simp only [addBreakpoint, wp_bind, wp_view, wp_ite, wp_raise]
  rw [if_neg hs.policy, wp_of_returned (stoppedTid_eq hs.ready)]
  simp only [hs.vacant, Bool.false_eq_true, if_false]
  have hread := Lowlevel.readByte_eq s.dbg.process.currentTid a hf
  have hwrite := Lowlevel.writeByte_eq s.dbg.process.currentTid a int3 hf
  by_cases hacc : accessible (memoryOf s s.dbg.process.currentTid) a = true
  · rw [if_pos hacc] at hread hwrite ⊢
    rw [wp_of_returned hread]
    dsimp only
    rw [wp_of_returned hwrite]
    rfl
  · rw [if_neg hacc] at hread ⊢
    rw [wp_of_raised hread]

/-- The byte under a new breakpoint is read and written as a word, like any other. -/
theorem holdsBreakpoint_iff (hf : s.faults = []) (hs : s.AcceptsBreakpoint a) :
    HoldsBreakpoint s a ↔ (Mapped (memoryOf s s.dbg.process.currentTid) a 1 →
      Mapped (memoryOf s s.dbg.process.currentTid) a 8) := by
  rw [HoldsBreakpoint, wp_addBreakpoint_exact hf hs, ← accessible_iff]
  by_cases hacc : accessible (memoryOf s s.dbg.process.currentTid) a = true
  · rw [if_pos hacc]
    exact iff_of_true rfl fun _ => hacc
  · rw [if_neg hacc]
    simp [hacc]

end

/-- Reading a range, writing a byte and planting a breakpoint are exact if and only if the words
they go through are mapped whenever the bytes are. -/
theorem access_exact_iff (s : Session) (tid : Pid) (a : Addr) (n : Nat) (value : Byte)
    (hfaults : s.faults = []) (hbound : a.toNat + n ≤ 2 ^ 64) :
    (ReadsExactly s tid a n ↔
      (Mapped (memoryOf s tid) a n → Mapped (memoryOf s tid) a (roundUp n))) ∧
    (WritesExactly s tid a value ↔
      (Mapped (memoryOf s tid) a 1 → Mapped (memoryOf s tid) a 8)) ∧
    (s.AcceptsBreakpoint a → (HoldsBreakpoint s a ↔
      (Mapped (memoryOf s s.dbg.process.currentTid) a 1 →
        Mapped (memoryOf s s.dbg.process.currentTid) a 8))) :=
  ⟨readsExactly_iff hfaults hbound, writesExactly_iff hfaults, holdsBreakpoint_iff hfaults⟩

/-- A process with one mapped page. -/
def Session.onePage : Session :=
  Session.launch 10 (fun a => if 0x1000 ≤ a ∧ a < 0x2000 then some 0x90 else none)
    { rip := 0x1000 }

theorem acceptsBreakpoint_onePage (a : Addr) : Session.onePage.AcceptsBreakpoint a where
  policy := by decide
  ready := ⟨rfl, by decide, by decide +kernel⟩
  vacant := by simp [Session.onePage, Session.launch, launched]

theorem access_exact_iff_inside :
    ReadsExactly Session.onePage 10 0x1ff0 10 ∧ WritesExactly Session.onePage 10 0x1ff8 0x91 ∧
      HoldsBreakpoint Session.onePage 0x1ff8 := by
  have hread := access_exact_iff Session.onePage 10 0x1ff0 10 0 rfl (by decide)
  have hwrite := access_exact_iff Session.onePage 10 0x1ff8 0 0x91 rfl (by decide)
  refine ⟨hread.1.mpr ?_, hwrite.2.1.mpr ?_, (hwrite.2.2 (acceptsBreakpoint_onePage _)).mpr ?_⟩
  · exact fun _ => by decide +kernel
  · exact fun _ => by decide +kernel
  · exact fun _ => by decide +kernel

/-- The last byte of a page can be neither read nor written nor hold a breakpoint. -/
theorem last_byte_of_page_refused :
    ¬∀ (s : Session) (tid : Pid) (a : Addr) (n : Nat) (value : Byte), s.faults = [] →
      a.toNat + n ≤ 2 ^ 64 →
      ReadsExactly s tid a n ∧ WritesExactly s tid a value ∧
        (s.AcceptsBreakpoint a → HoldsBreakpoint s a) := by
  intro h
  obtain ⟨hread, -, -⟩ := h Session.onePage 10 0x1fff 1 0 rfl (by decide)
  have hwords := (readsExactly_iff rfl (by decide)).mp hread (by decide +kernel)
  exact absurd hwords (by decide +kernel)

end MiniDebugger
