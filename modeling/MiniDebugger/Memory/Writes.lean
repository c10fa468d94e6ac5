import MiniDebugger.Memory.Words
import MiniDebugger.Sessions.Tables

/-!
# Memory writes over breakpoints

`write_memory` sends the bytes outside the breakpoint table to the tracee one by one and only then
updates the saved bytes. When it returns, the memory as the program sees it is overlaid with the
bytes. When a byte write fails, the bytes sent before it stay: the write is all or nothing if and
only if no such byte differs from the one it replaced.
-/

namespace MiniDebugger

open Command
open Function (update update_self update_of_ne)
open Std (ExtTreeMap)
open Lowlevel (memoryOf)

/-! ## Writing a list of cells -/

/-- Store the bytes of some cells, in order. -/
def storeCells (m : Memory) (cells : List (Addr × Byte)) : Memory :=
  cells.foldl (fun m cell => update m cell.1 (some cell.2)) m

/-- Cells that hold one byte for each address. -/
theorem storeCells_apply {f : Addr → Option Byte} {cells : List (Addr × Byte)} {m : Memory}
    (h : ∀ cell ∈ cells, f cell.1 = some cell.2) (a : Addr) :
    storeCells m cells a = if a ∈ cells.map Prod.fst then f a else m a := by
  induction cells generalizing m with
  | nil => rfl
  | cons cell cells ih =>
    have htail := ih (m := update m cell.1 (some cell.2)) fun c hc => h c (List.mem_cons_of_mem _ hc)
    rw [storeCells, List.foldl_cons]
    refine htail.trans ?_
    by_cases ha : a = cell.1
    · subst ha
      simp [h cell List.mem_cons_self]
    · rw [update_of_ne ha]
      simp [ha]

/-- Storing what is there changes nothing, and storing anything else does. -/
theorem storeCells_eq_iff {f : Addr → Option Byte} {cells : List (Addr × Byte)} {m : Memory}
    (h : ∀ cell ∈ cells, f cell.1 = some cell.2) :
    storeCells m cells = m ↔ ∀ cell ∈ cells, m cell.1 = some cell.2 := by
  constructor
  · intro heq cell hcell
    have := storeCells_apply (m := m) h cell.1
    rw [heq, if_pos (List.mem_map_of_mem hcell)] at this
    exact this.trans (h cell hcell)
  · intro hsame
    funext a
    rw [storeCells_apply h]
    split
    · rename_i hmem
      obtain ⟨cell, hcell, rfl⟩ := List.mem_map.mp hmem
      exact (h cell hcell).trans (hsame cell hcell).symm
    · rfl

/-- Replacing mapped bytes maps nothing and unmaps nothing. -/
theorem accessible_update {m : Memory} {a b : Addr} {value : Byte} (h : (m a).isSome = true) :
    accessible (update m a (some value)) b = accessible m b := by
  have hcell : ∀ x, (update m a (some value) x).isSome = (m x).isSome := by
    intro x
    by_cases hx : x = a
    · subst hx
      simp [h]
    · rw [update_of_ne hx]
  simp [accessible, wordAt, Function.comp_def, hcell]

/-- The `i`-th byte write fails: its read is refused, its word is not mapped, or its write is
refused. -/
def writeFails (m : Memory) (faults : List (Option Nat)) (i : Nat) (a : Addr) : Bool :=
  (faults[2 * i]?).join.isSome || !accessible m a || (faults[2 * i + 1]?).join.isSome

/-- Every cell can be written. -/
def NoFailure (m : Memory) (faults : List (Option Nat)) (cells : List (Addr × Byte)) : Prop :=
  ∀ i cell, cells[i]? = some cell → writeFails m faults i cell.1 = false

/-- The first cell that cannot be written is the `i`-th. -/
def FirstFailure (m : Memory) (faults : List (Option Nat)) (cells : List (Addr × Byte))
    (i : Nat) : Prop :=
  (∃ cell, cells[i]? = some cell ∧ writeFails m faults i cell.1 = true) ∧
  ∀ j < i, ∀ cell, cells[j]? = some cell → writeFails m faults j cell.1 = false

theorem FirstFailure.unique {m : Memory} {faults : List (Option Nat)}
    {cells : List (Addr × Byte)} {i j : Nat} (hi : FirstFailure m faults cells i)
    (hj : FirstFailure m faults cells j) : i = j := by
  obtain ⟨⟨c, hc, hfails⟩, hbefore⟩ := hi
  obtain ⟨⟨d, hd, hfails'⟩, hbefore'⟩ := hj
  rcases Nat.lt_trichotomy i j with hlt | heq | hgt
  · rw [hbefore' i hlt c hc] at hfails
    cases hfails
  · exact heq
  · rw [hbefore j hgt d hd] at hfails'
    cases hfails'

theorem writeFails_drop {m : Memory} {faults : List (Option Nat)} {i : Nat} {a : Addr} :
    writeFails m (faults.drop 2) i a = writeFails m faults (i + 1) a := by
  simp only [writeFails, List.getElem?_drop]
  rw [show 2 + 2 * i = 2 * (i + 1) by omega, show 2 + (2 * i + 1) = 2 * (i + 1) + 1 by omega]

theorem writeFails_update {m : Memory} {faults : List (Option Nat)} {i : Nat} {a b : Addr}
    {value : Byte} (h : (m a).isSome = true) :
    writeFails (update m a (some value)) faults i b = writeFails m faults i b := by
  simp only [writeFails, accessible_update h]

section

variable {m : Memory} {faults : List (Option Nat)} {cell : Addr × Byte}
  {cells : List (Addr × Byte)}

theorem NoFailure.cons (hok : writeFails m faults 0 cell.1 = false)
    (hmapped : (m cell.1).isSome = true)
    (h : NoFailure (update m cell.1 (some cell.2)) (faults.drop 2) cells) :
    NoFailure m faults (cell :: cells) := by
  intro i c hc
  cases i with
  | zero => cases hc; exact hok
  | succ i =>
    rw [← writeFails_drop, ← writeFails_update hmapped]
    exact h i c hc

theorem FirstFailure.cons {i : Nat} (hok : writeFails m faults 0 cell.1 = false)
    (hmapped : (m cell.1).isSome = true)
    (h : FirstFailure (update m cell.1 (some cell.2)) (faults.drop 2) cells i) :
    FirstFailure m faults (cell :: cells) (i + 1) := by
  obtain ⟨⟨c, hc, hfails⟩, hbefore⟩ := h
  rw [writeFails_update hmapped, writeFails_drop] at hfails
  refine ⟨⟨c, hc, hfails⟩, fun j hj d hd => ?_⟩
  cases j with
  | zero => cases hd; exact hok
  | succ j =>
    rw [← writeFails_drop, ← writeFails_update hmapped]
    exact hbefore j (by omega) d hd

theorem firstFailure_zero (h : writeFails m faults 0 cell.1 = true) :
    FirstFailure m faults (cell :: cells) 0 :=
  ⟨⟨cell, rfl, h⟩, fun j hj => absurd hj (Nat.not_lt_zero j)⟩

end

section

variable {s : Session}

/-- Which of the two ways an attempt ends is decided by the next ptrace result. -/
theorem wp_attempt_exact {operation : String} {Q : Post WaitCall Exception Session Unit}
    (returned : (s.faults[0]?).join.isSome = false →
      Q.returned () { s with faults := s.faults.drop 1 })
    (raised : ∀ errno, s.faults[0]? = some (some errno) →
      Q.raised (.ptraceError operation errno) { s with faults := s.faults.drop 1 }) :
    wp (Lowlevel.attempt operation) Q s := by
  unfold wp Lowlevel.attempt
  rcases hf : s.faults with _ | ⟨_ | errno, rest⟩
  · rw [hf] at returned
    have hdrop : { s with faults := List.drop 1 [] } = s := by rw [List.drop_nil, ← hf]
    exact hdrop ▸ returned rfl
  · rw [hf] at returned
    exact returned rfl
  · rw [hf] at raised
    exact raised errno rfl

theorem wp_writeByte_exact {tid : Pid} {a : Addr} {value : Byte}
    {Q : Post WaitCall Exception Session Unit}
    (returned : writeFails (memoryOf s tid) s.faults 0 a = false →
      (memoryOf s tid a).isSome = true →
      Q.returned () { s.poke tid a value with faults := s.faults.drop 2 })
    (raised : writeFails (memoryOf s tid) s.faults 0 a = true →
      ∀ e faults, Q.raised e { s with faults }) :
    wp (Lowlevel.writeByte tid a value) Q s := by
  simp only [Lowlevel.writeByte, Lowlevel.peekWord, wp_bind]
  refine wp_attempt_exact (fun hpeek => ?_)
    (fun errno hpeek => raised (by simp [writeFails, hpeek]) _ _)
  simp only [wp_read, wp_ite, wp_pure, wp_raise]
  split
  · rename_i hacc
    simp only [Lowlevel.pokeWord, wp_bind]
    have hskip : (s.faults.drop 1)[0]? = s.faults[1]? := by simp
    refine wp_attempt_exact (fun hpoke => ?_) (fun errno hpoke => raised ?_ _ _)
    · simp only [wp_read, wp_ite, Lowlevel.wp_modifyWorld]
      rw [if_pos hacc, Lowlevel.storeWord_set hacc, List.drop_drop]
      rw [hskip] at hpoke
      obtain ⟨b, hb⟩ := Lowlevel.mapped_of_accessible hacc
      refine returned ?_ (by simp [memoryOf, hb])
      simp only [writeFails, Nat.mul_zero, Nat.zero_add, hpeek, hpoke]
      simpa using hacc
    · rw [hskip] at hpoke
      simp [writeFails, hpoke]
  · rename_i hacc
    refine raised ?_ _ _
    simp only [writeFails]
    simp [memoryOf, hacc]

/-- Some cells of the memory of `tid` have been stored. -/
def Session.stored (s : Session) (tid : Pid) (cells : List (Addr × Byte)) : Session :=
  { s with world := { s.world with
    memory := update s.world.memory (Lowlevel.space s.world tid)
      (storeCells (memoryOf s tid) cells) } }

theorem Session.stored_memory (tid : Pid) (cells : List (Addr × Byte)) :
    (s.stored tid cells).world.memory (Lowlevel.space s.world tid) =
      storeCells (memoryOf s tid) cells :=
  update_self _ _ _

@[simp] theorem Session.stored_nil (tid : Pid) : s.stored tid [] = s := by
  simp [Session.stored, storeCells, memoryOf]

theorem Session.stored_poke (tid : Pid) (cell : Addr × Byte) (cells : List (Addr × Byte))
    (faults : List (Option Nat)) :
    { s.poke tid cell.1 cell.2 with faults }.stored tid cells =
      { s.stored tid (cell :: cells) with faults } := by
  simp [Session.stored, Session.poke, storeCells, memoryOf, Lowlevel.space]

/-- The cells that `write_memory` sends to the tracee. -/
def written (d : Debugger) (cells : List (Addr × Byte)) : List (Addr × Byte) :=
  cells.filter fun cell => !hasEntry d cell.1 true

theorem memoryOf_poke (tid : Pid) (cell : Addr × Byte) (faults : List (Option Nat)) :
    memoryOf { s.poke tid cell.1 cell.2 with faults } tid =
      update (memoryOf s tid) cell.1 (some cell.2) := by
  simp [Session.poke, memoryOf, Lowlevel.space]

/-- The loop over the cells stores all it has to, or those before the first that fails. -/
theorem wp_writeCells (tid : Pid) (cells : List (Addr × Byte)) :
    wp (forEach (writeCell tid) cells)
      ⟨fun _ t => NoFailure (memoryOf s tid) s.faults (written s.dbg cells) ∧
          ∃ faults, t = { s.stored tid (written s.dbg cells) with faults },
        fun _ t => ∃ i, FirstFailure (memoryOf s tid) s.faults (written s.dbg cells) i ∧
          ∃ faults, t = { s.stored tid ((written s.dbg cells).take i) with faults },
        fun _ _ => False⟩ s := by
  induction cells generalizing s with
  | nil => exact ⟨by simp [written, NoFailure], s.faults, by simp [written]⟩
  | cons cell cells ih =>
    simp only [forEach, writeCell, wp_bind, wp_view, wp_ite, wp_pure]
    split
    · rename_i hcell
      have hwritten : written s.dbg (cell :: cells) = cell :: written s.dbg cells := by
        simp only [written]
        exact List.filter_cons_of_pos hcell
      rw [hwritten]
      refine wp_writeByte_exact (fun hok hmapped => ?_) (fun hfails e faults => ?_)
      · refine wp_mono (ih (s := { s.poke tid cell.1 cell.2 with faults := s.faults.drop 2 }))
          ?_ ?_ (fun _ _ h => h)
        · intro _ t hended
          obtain ⟨hall, faults, ht⟩ := hended
          rw [memoryOf_poke] at hall
          exact ⟨hall.cons hok hmapped, faults, by rw [ht, Session.stored_poke]; rfl⟩
        · intro e t hended
          obtain ⟨i, hfirst, faults, ht⟩ := hended
          rw [memoryOf_poke] at hfirst
          exact ⟨i + 1, hfirst.cons hok hmapped, faults, by rw [ht, Session.stored_poke]; rfl⟩
      · exact ⟨0, firstFailure_zero hfails, faults, by simp⟩
    · rename_i hcell
      have hwritten : written s.dbg (cell :: cells) = written s.dbg cells := by
        simp only [written]
        exact List.filter_cons_of_neg hcell
      rw [hwritten]
      exact ih

/-- A breakpoint with the byte that a write puts under it. -/
def resave (f : Addr → Option Byte) (addresses : List Addr) (a : Addr) (bp : Breakpoint) :
    Breakpoint :=
  if a ∈ addresses then { bp with originalByte := (f a).getD 0 } else bp

theorem map_resave_modify {f : Addr → Option Byte} {cell : Addr × Byte}
    (hcell : f cell.1 = some cell.2) (table : ExtTreeMap Addr Breakpoint) (addresses : List Addr)
    (a : Addr) :
    ((table.modify cell.1 fun bp => { bp with originalByte := cell.2 })[a]?).map
        (resave f addresses a) = (table[a]?).map (resave f (cell.1 :: addresses) a) := by
  rw [ExtTreeMap.getElem?_modify]
  by_cases ha : cell.1 = a
  · subst ha
    rw [if_pos (by simp), Option.map_map]
    congr 1
    funext bp
    by_cases hmem : cell.1 ∈ addresses <;> simp [resave, hmem, hcell]
  · rw [if_neg (by simpa using ha)]
    congr 1
    funext bp
    simp [resave, Ne.symm ha]

theorem wp_updateSavedBytes {f : Addr → Option Byte} {cells : List (Addr × Byte)}
    (h : ∀ cell ∈ cells, f cell.1 = some cell.2) :
    wp (forEach updateSavedByte cells)
      ⟨fun _ t => ∃ table : ExtTreeMap Addr Breakpoint,
          t = { s with dbg := { s.dbg with breakpointsByAddress := table } } ∧
          ∀ a, table[a]? =
            (s.dbg.breakpointsByAddress[a]?).map (resave f (cells.map Prod.fst) a),
        fun _ _ => False, fun _ _ => False⟩ s := by
  induction cells generalizing s with
  | nil =>
    refine ⟨s.dbg.breakpointsByAddress, rfl, fun a => ?_⟩
    cases s.dbg.breakpointsByAddress[a]? <;> simp [resave]
  | cons cell cells ih =>
    simp only [forEach, updateSavedByte, wp_bind, wp_modifyDebugger]
    refine wp_mono (ih fun c hc => h c (List.mem_cons_of_mem _ hc)) ?_ (fun _ _ h => h)
      (fun _ _ h => h)
    intro _ t hended
    obtain ⟨table, ht, htable⟩ := hended
    refine ⟨table, ht, fun a => (htable a).trans ?_⟩
    exact map_resave_modify (h cell List.mem_cons_self) _ _ a

end

/-! ## `write_memory` -/

/-- A memory with some bytes from `address` on replaced. -/
def overlaid (m : Memory) (address : Addr) (bytes : List Byte) : Memory := fun a =>
  if (a - address).toNat < bytes.length then bytes[(a - address).toNat]? else m a

/-- The memory of the stopped process as the program sees it. -/
def Session.programMemory (s : Session) : Memory :=
  Overlay.logical (patches s.dbg.breakpointsByAddress) (memoryOf s s.dbg.process.currentTid)

/-- What a successful write of `bytes` at `address` leaves. -/
structure Session.Overwritten (s t : Session) (address : Addr) (bytes : List Byte) : Prop where
  program : t.programMemory = overlaid s.programMemory address bytes
  int3 : ∀ a, hasEntry s.dbg a true = true → hasEntry t.dbg a true = true ∧
    memoryOf t t.dbg.process.currentTid a = memoryOf s s.dbg.process.currentTid a
  outside : ∀ a, ¬(a - address).toNat < bytes.length →
    memoryOf t t.dbg.process.currentTid a = memoryOf s s.dbg.process.currentTid a
  others : ∀ p, p ≠ Lowlevel.space s.world s.dbg.process.currentTid →
    t.world.memory p = s.world.memory p
  entries : SameBreakpoints s.dbg.breakpointsByAddress t.dbg.breakpointsByAddress

/-- `write_memory` overlays the program's memory when it returns and has no effect when it
throws. -/
def WritesAtomically (s : Session) (address : Addr) (bytes : List Byte) : Prop :=
  wp (writeMemory address bytes)
    ⟨fun _ t => s.Overwritten t address bytes,
      fun _ t => t.world.memory = s.world.memory ∧
        t.dbg.breakpointsByAddress = s.dbg.breakpointsByAddress,
      fun _ _ => False⟩ s

/-- The checks of `write_memory`. -/
structure Session.AcceptsWrite (s : Session) (address : Addr) (bytes : List Byte) : Prop where
  ready : s.dbg.process.Ready
  nonempty : bytes.isEmpty = false
  bounded : bytes.length ≤ maxMemoryWriteBytes
  inside : address.toNat ≤ 2 ^ 64 - 1 - (bytes.length - 1)
  apart : s.dbg.pendingBreakpointStep.any
    (fun step => rangeContains address bytes.length step.address) = false
  armed : (cells address bytes).any (fun cell => hasEntry s.dbg cell.1 false) = false

/-- A byte write fails after another one has changed the tracee. -/
def TearsWrite (s : Session) (address : Addr) (bytes : List Byte) : Prop :=
  ∃ i, FirstFailure (memoryOf s s.dbg.process.currentTid) s.faults
      (written s.dbg (cells address bytes)) i ∧
    ∃ cell ∈ (written s.dbg (cells address bytes)).take i,
      memoryOf s s.dbg.process.currentTid cell.1 ≠ some cell.2

section

variable {s : Session} {address : Addr} {bytes : List Byte}

theorem getElem_cells (hlen : bytes.length ≤ maxMemoryWriteBytes) :
    ∀ cell ∈ cells address bytes, bytes[(cell.1 - address).toNat]? = some cell.2 := by
  intro cell hcell
  obtain ⟨i, hi, rfl⟩ := List.mem_mapIdx.mp hcell
  have : (address + BitVec.ofNat 64 i - address).toNat = i := by
    unfold maxMemoryWriteBytes at hlen
    bv_omega
  simp only [this, List.getElem?_eq_getElem hi]

theorem mem_cells_iff (hlen : bytes.length ≤ maxMemoryWriteBytes) (a : Addr) :
    a ∈ (cells address bytes).map Prod.fst ↔ (a - address).toNat < bytes.length := by
  constructor
  · intro h
    obtain ⟨cell, hcell, rfl⟩ := List.mem_map.mp h
    obtain ⟨hlt, -⟩ := List.getElem?_eq_some_iff.mp (getElem_cells hlen cell hcell)
    exact hlt
  · intro h
    have hback : address + BitVec.ofNat 64 (a - address).toNat = a := by bv_omega
    refine List.mem_map.mpr ⟨(a, bytes[(a - address).toNat]), ?_, rfl⟩
    exact List.mem_mapIdx.mpr ⟨(a - address).toNat, h, by rw [hback]⟩

theorem mem_written_iff (hlen : bytes.length ≤ maxMemoryWriteBytes) (a : Addr) :
    a ∈ (written s.dbg (cells address bytes)).map Prod.fst ↔
      (a - address).toNat < bytes.length ∧ hasEntry s.dbg a true = false := by
  rw [← mem_cells_iff hlen]
  simp only [written, List.mem_map, List.mem_filter]
  constructor
  · rintro ⟨cell, ⟨hcell, hentry⟩, rfl⟩
    exact ⟨⟨cell, hcell, rfl⟩, by simpa using hentry⟩
  · rintro ⟨⟨cell, hcell, rfl⟩, hentry⟩
    exact ⟨cell, ⟨hcell, by simpa using hentry⟩, rfl⟩

theorem mem_saved_iff (hlen : bytes.length ≤ maxMemoryWriteBytes) (a : Addr) :
    a ∈ ((cells address bytes).filter fun cell => hasEntry s.dbg cell.1 true).map Prod.fst ↔
      (a - address).toNat < bytes.length ∧ hasEntry s.dbg a true = true := by
  rw [← mem_cells_iff hlen]
  simp only [List.mem_map, List.mem_filter]
  constructor
  · rintro ⟨cell, ⟨hcell, hentry⟩, rfl⟩
    exact ⟨⟨cell, hcell, rfl⟩, hentry⟩
  · rintro ⟨⟨cell, hcell, rfl⟩, hentry⟩
    exact ⟨cell, ⟨hcell, hentry⟩, rfl⟩

/-- No entry in the range of an accepted write is lifted. -/
theorem Session.AcceptsWrite.installed (h : s.AcceptsWrite address bytes) {a : Addr}
    (ha : (a - address).toNat < bytes.length) : hasEntry s.dbg a false = false := by
  obtain ⟨cell, hcell, rfl⟩ := List.mem_map.mp ((mem_cells_iff h.bounded a).mpr ha)
  simpa using List.any_eq_false.mp h.armed cell hcell

/-- All bytes sent and all saved bytes updated: the program's memory is overlaid. -/
theorem Session.AcceptsWrite.overwritten (h : s.AcceptsWrite address bytes)
    {faults : List (Option Nat)} {table : ExtTreeMap Addr Breakpoint}
    (htable : ∀ a : Addr, table[a]? = (s.dbg.breakpointsByAddress[a]?).map
      (resave (fun a => bytes[(a - address).toNat]?)
        (((cells address bytes).filter fun cell => hasEntry s.dbg cell.1 true).map Prod.fst) a)) :
    s.Overwritten { s.stored s.dbg.process.currentTid (written s.dbg (cells address bytes)) with
      faults, dbg := { s.dbg with breakpointsByAddress := table } } address bytes := by
  have hf : ∀ cell ∈ written s.dbg (cells address bytes),
      bytes[(cell.1 - address).toNat]? = some cell.2 := fun cell hcell =>
    getElem_cells h.bounded cell (List.mem_of_mem_filter hcell)
  have hmemory : ∀ a, memoryOf { s.stored s.dbg.process.currentTid
      (written s.dbg (cells address bytes)) with
      faults, dbg := { s.dbg with breakpointsByAddress := table } } s.dbg.process.currentTid a =
      if (a - address).toNat < bytes.length ∧ hasEntry s.dbg a true = false then
        bytes[(a - address).toNat]?
      else memoryOf s s.dbg.process.currentTid a := by
    intro a
    have hstore := storeCells_apply (m := memoryOf s s.dbg.process.currentTid)
      (f := fun a => bytes[(a - address).toNat]?) hf a
    simp only [mem_written_iff h.bounded] at hstore
    rw [← hstore]
    simp [memoryOf, Session.stored, Lowlevel.space]
  have hnone : ∀ a : Addr, s.dbg.breakpointsByAddress[a]? = none → table[a]? = none := by
    intro a ha
    rw [htable, ha, Option.map_none]
  have hin : ∀ (a : Addr) (bp : Breakpoint), s.dbg.breakpointsByAddress[a]? = some bp →
      (a - address).toNat < bytes.length → bp.installed = true := by
    intro a bp ha hrange
    simpa [hasEntry, ha] using h.installed hrange
  have hsome : ∀ (a : Addr) (bp : Breakpoint), s.dbg.breakpointsByAddress[a]? = some bp →
      table[a]? = some (if (a - address).toNat < bytes.length then
        { bp with originalByte := (bytes[(a - address).toNat]?).getD 0 } else bp) := by
    intro a bp ha
    have hsaved := @mem_saved_iff s address bytes h.bounded a
    rw [htable, ha, Option.map_some, resave]
    by_cases hrange : (a - address).toNat < bytes.length
    · rw [if_pos (hsaved.mpr ⟨hrange, by simp [hasEntry, ha, hin a bp ha hrange]⟩), if_pos hrange]
    · rw [if_neg fun hmem => hrange (hsaved.mp hmem).1, if_neg hrange]
  refine ⟨?_, ?_, ?_, ?_, ?_, ?_⟩
  · funext a
    simp only [Session.programMemory, Overlay.logical, overlaid, patches, hmemory]
    rcases hbp : s.dbg.breakpointsByAddress[a]? with _ | bp
    · simp [hnone a hbp, hasEntry, hbp, Overlay.seen]
    · by_cases hrange : (a - address).toNat < bytes.length
      · have hinstalled := hin a bp hbp hrange
        simp only [hsome a bp hbp, if_pos hrange, Option.map_some, Overlay.seen, hinstalled, if_true]
        rw [List.getElem?_eq_getElem hrange, Option.getD_some]
      · simp only [hsome a bp hbp, hrange, false_and, if_false, Option.map_some]
  · intro a ha
    refine ⟨?_, by rw [hmemory, if_neg (by simp [ha])]⟩
    rcases hbp : s.dbg.breakpointsByAddress[a]? with _ | bp
    · simp [hasEntry, hbp] at ha
    · have hkept : bp.installed = true := by simpa [hasEntry, hbp] using ha
      simp only [hasEntry, hsome a bp hbp, Option.any_some]
      split <;> simp [hkept]
  · intro a ha
    rw [hmemory, if_neg fun hin => ha hin.1]
  · intro p hp
    exact update_of_ne hp _ _
  · exact hnone
  · intro a bp hbp
    rw [hsome a bp hbp]
    by_cases hrange : (a - address).toNat < bytes.length
    · refine ⟨_, by rw [if_pos hrange], fun hout => ?_⟩
      rw [hin a bp hbp hrange] at hout
      cases hout
    · exact ⟨bp.originalByte, by rw [if_neg hrange], fun _ => rfl⟩

/-- The two ways an accepted write ends. -/
theorem wp_writeMemory_exact (h : s.AcceptsWrite address bytes) :
    wp (writeMemory address bytes)
      ⟨fun _ t => s.Overwritten t address bytes ∧
          NoFailure (memoryOf s s.dbg.process.currentTid) s.faults
            (written s.dbg (cells address bytes)),
        fun _ t => ∃ i, FirstFailure (memoryOf s s.dbg.process.currentTid) s.faults
            (written s.dbg (cells address bytes)) i ∧
          ∃ faults, t = { s.stored s.dbg.process.currentTid
            ((written s.dbg (cells address bytes)).take i) with faults },
        fun _ _ => False⟩ s := by
  have hinside : ¬2 ^ 64 - 1 - (bytes.length - 1) < address.toNat := by
    have := h.inside
    omega
  simp only [writeMemory, wp_bind]
  rw [wp_of_returned (stoppedTid_eq h.ready)]
  simp only [wp_ite, wp_bind, wp_raise, wp_view, id, h.nonempty, h.apart, h.armed,
    Nat.not_lt.mpr h.bounded, hinside, if_false, Bool.false_eq_true]
  refine wp_mono (wp_writeCells s.dbg.process.currentTid (cells address bytes)) ?_
    (fun _ _ h => h) (fun _ _ h => h)
  intro _ t hended
  obtain ⟨hall, faults, ht⟩ := hended
  subst ht
  refine wp_mono (wp_updateSavedBytes (f := fun a => bytes[(a - address).toNat]?)
    fun cell hcell => getElem_cells h.bounded cell (List.mem_of_mem_filter hcell)) ?_
    (fun _ _ h => h.elim) (fun _ _ h => h)
  intro _ t hended
  obtain ⟨table, ht, htable⟩ := hended
  subst ht
  exact ⟨h.overwritten htable, hall⟩

/-- An accepted write is atomic if and only if no byte write fails after another one has changed
the tracee. -/
theorem writesAtomically_iff (h : s.AcceptsWrite address bytes) :
    WritesAtomically s address bytes ↔ ¬TearsWrite s address bytes := by
  have hexact := wp_writeMemory_exact h
  have hf : ∀ i, ∀ cell ∈ (written s.dbg (cells address bytes)).take i,
      bytes[(cell.1 - address).toNat]? = some cell.2 := fun i cell hcell =>
    getElem_cells h.bounded cell (List.mem_of_mem_filter (List.mem_of_mem_take hcell))
  constructor
  · intro hatomic hended
    obtain ⟨i, hfirst, cell, hcell, hchanged⟩ := hended
    have hboth := wp_and hexact hatomic
    unfold wp at hboth
    split at hboth
    · obtain ⟨⟨c, hc, hfails⟩, -⟩ := hfirst
      rw [hboth.1.2 i c hc] at hfails
      cases hfails
    · obtain ⟨⟨j, hfirst', faults, rfl⟩, hsame, -⟩ := hboth
      obtain rfl := hfirst.unique hfirst'
      refine hchanged ((storeCells_eq_iff (f := fun a => bytes[(a - address).toNat]?)
        (hf i)).mp ?_ cell hcell)
      rw [← Session.stored_memory]
      exact congrFun hsame (Lowlevel.space s.world s.dbg.process.currentTid)
    · exact hboth.1
  · intro hwhole
    refine wp_mono hexact (fun _ t ht => ht.1) ?_ (fun _ _ h => h)
    intro e t hended
    obtain ⟨i, hfirst, faults, ht⟩ := hended
    have hsame : ∀ cell ∈ (written s.dbg (cells address bytes)).take i,
        memoryOf s s.dbg.process.currentTid cell.1 = some cell.2 := by
      intro cell hcell
      by_contra hchanged
      exact hwhole ⟨i, hfirst, cell, hcell, hchanged⟩
    have hstored := (storeCells_eq_iff (f := fun a => bytes[(a - address).toNat]?) (hf i)).mpr hsame
    subst ht
    refine ⟨?_, rfl⟩
    simp only [Session.stored, hstored, memoryOf, Function.update_eq_self]

end

/-- A page with a breakpoint on its first byte. -/
def Session.patchedPage : Session := Session.onePage.after anyTracees (.addBreakpoint 0x1000) []

theorem acceptsWrite_patchedPage : Session.patchedPage.AcceptsWrite 0x1000 [1, 2] where
  ready := ⟨by decide +kernel, by decide +kernel, by decide +kernel⟩
  nonempty := rfl
  bounded := by decide
  inside := by decide
  apart := by decide +kernel
  armed := by decide +kernel

/-- A write over a breakpoint and the byte behind it. -/
theorem writesAtomically_patchedPage : WritesAtomically Session.patchedPage 0x1000 [1, 2] := by
  refine (writesAtomically_iff acceptsWrite_patchedPage).mpr ?_
  have hwritten : written Session.patchedPage.dbg (cells 0x1000 [1, 2]) = [(0x1001, 2)] := by
    decide +kernel
  unfold TearsWrite
  rw [hwritten]
  rintro ⟨i, ⟨⟨cell, hcell, -⟩, -⟩, earlier, hearlier, -⟩
  obtain rfl : i = 0 := by
    have := (List.getElem?_eq_some_iff.mp hcell).1
    simpa using this
  simp at hearlier

theorem acceptsWrite_onePage : Session.onePage.AcceptsWrite 0x1ff8 [1, 2] where
  ready := ⟨rfl, by decide, by decide +kernel⟩
  nonempty := rfl
  bounded := by decide
  inside := by decide
  apart := rfl
  armed := by decide +kernel

/-- A write that runs into the end of a mapping leaves its first byte behind. -/
theorem torn_at_end_of_page :
    ¬∀ (s : Session) (address : Addr) (bytes : List Byte), s.AcceptsWrite address bytes →
      WritesAtomically s address bytes := by
  intro h
  have hatomic := h _ _ _ acceptsWrite_onePage
  have hthrows : (writeMemory 0x1ff8 [1, 2] Session.onePage).value? = none := by decide +kernel
  have hbyte : (writeMemory 0x1ff8 [1, 2] Session.onePage).state.world.memory 10 0x1ff8 ≠
      Session.onePage.world.memory 10 0x1ff8 := by decide +kernel
  unfold WritesAtomically wp at hatomic
  cases houtcome : writeMemory 0x1ff8 [1, 2] Session.onePage with
  | returned a t => rw [houtcome] at hthrows; cases hthrows
  | raised e t =>
    rw [houtcome] at hatomic hbyte
    exact hbyte (by rw [← hatomic.1]; rfl)
  | blocked w t => rw [houtcome] at hatomic; exact hatomic

end MiniDebugger
