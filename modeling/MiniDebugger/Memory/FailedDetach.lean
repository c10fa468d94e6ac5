import MiniDebugger.Memory.Writes

/-!
# A detach that fails

`detach` puts the original bytes back, then the debug registers, and only then looks whether every
thread is stopped and releases them one by one. A failure in a later stage finds the earlier ones
done. `Undisturbed` says when no failure comes after the first effect.
-/

namespace MiniDebugger

open Command
open Function (update update_self update_of_ne)
open Std (ExtTreeMap)
open Lowlevel (memoryOf)

/-! ## Restoring the bytes -/

/-- The cells under the installed breakpoints among some entries. -/
def armedCells (entries : List (Addr × Breakpoint)) : List (Addr × Byte) :=
  (entries.filter (·.2.installed)).map fun entry => (entry.1, entry.2.originalByte)

/-- The table with the entries of some cells marked as lifted. -/
def liftCells (table : ExtTreeMap Addr Breakpoint) (cells : List (Addr × Byte)) :
    ExtTreeMap Addr Breakpoint :=
  cells.foldl (fun table cell => table.modify cell.1 fun bp => { bp with installed := false }) table

theorem getElem_liftCells {table : ExtTreeMap Addr Breakpoint} {cells : List (Addr × Byte)}
    {a : Addr} (ha : a ∈ cells.map Prod.fst ∨ (table[a]?).any Breakpoint.installed = false) :
    ((liftCells table cells)[a]?).any Breakpoint.installed = false := by
  induction cells generalizing table with
  | nil => simpa [liftCells] using ha
  | cons cell cells ih =>
    rw [liftCells, List.foldl_cons]
    apply ih
    rw [ExtTreeMap.getElem?_modify]
    by_cases hcell : cell.1 = a
    · right
      rw [if_pos (by simpa using hcell)]
      cases table[cell.1]? <;> simp
    · rw [if_neg (by simpa using hcell)]
      simpa [Ne.symm hcell] using ha

/-- Lifting an installed breakpoint changes the table. -/
theorem liftCells_ne {table : ExtTreeMap Addr Breakpoint} {cells : List (Addr × Byte)}
    {cell : Addr × Byte} (hcell : cell ∈ cells)
    (hin : (table[cell.1]?).any Breakpoint.installed = true) : liftCells table cells ≠ table := by
  intro heq
  have hlifted : ((liftCells table cells)[cell.1]?).any Breakpoint.installed = false :=
    getElem_liftCells (.inl (List.mem_map_of_mem hcell))
  rw [heq, hin] at hlifted
  cases hlifted

section

variable {s : Session}

/-- The session with the entries of some cells lifted. -/
def Session.lifted (s : Session) (tid : Pid) (cells : List (Addr × Byte)) : Session :=
  { s.stored tid cells with
    dbg := { s.dbg with breakpointsByAddress := liftCells s.dbg.breakpointsByAddress cells } }

theorem Session.lifted_poke (tid : Pid) (cell : Addr × Byte) (cells : List (Addr × Byte))
    (faults : List (Option Nat)) :
    { s.poke tid cell.1 cell.2 with
      faults, dbg := s.dbg.setInstalled cell.1 false }.lifted tid cells =
      { s.lifted tid (cell :: cells) with faults } := by
  simp [Session.lifted, Session.stored, Session.poke, storeCells, liftCells, memoryOf,
    Lowlevel.space, Debugger.setInstalled]

/-- The loop of `restore_all_breakpoints` lifts every installed breakpoint, or those before the
first byte that cannot be written. -/
theorem wp_restoreEach (tid : Pid) (entries : List (Addr × Breakpoint)) :
    wp (forEach (fun entry => restoreBreakpoint tid entry.1 entry.2) entries)
      ⟨fun _ t => NoFailure (memoryOf s tid) s.faults (armedCells entries) ∧
          t = { s.lifted tid (armedCells entries) with
            faults := s.faults.drop (2 * (armedCells entries).length) },
        fun _ t => ∃ i, FirstFailure (memoryOf s tid) s.faults (armedCells entries) i ∧
          ∃ faults, t = { s.lifted tid ((armedCells entries).take i) with faults },
        fun _ _ => False⟩ s := by
  induction entries generalizing s with
  | nil => exact ⟨by simp [armedCells, NoFailure], by simp [armedCells, Session.lifted, liftCells]⟩
  | cons entry entries ih =>
    simp only [forEach, restoreBreakpoint, wp_bind, wp_ite, wp_pure]
    split
    · rename_i hin
      have harmed : armedCells (entry :: entries) =
          (entry.1, entry.2.originalByte) :: armedCells entries := by
        simp [armedCells, hin]
      rw [harmed]
      refine wp_writeByte_exact (fun hok hmapped => ?_) (fun hfails e faults => ?_)
      · refine wp_mono (ih (s := { s.poke tid entry.1 entry.2.originalByte with
          faults := s.faults.drop 2, dbg := s.dbg.setInstalled entry.1 false })) ?_ ?_
          (fun _ _ h => h)
        · intro _ t hended
          obtain ⟨hall, ht⟩ := hended
          have hmem := memoryOf_poke (s := s) tid (entry.1, entry.2.originalByte) (s.faults.drop 2)
          refine ⟨NoFailure.cons hok hmapped (hmem ▸ hall), ?_⟩
          rw [ht, List.drop_drop]
          have := Session.lifted_poke (s := s) tid (entry.1, entry.2.originalByte)
            (armedCells entries) (s.faults.drop 2)
          rw [this, List.length_cons, Nat.mul_succ, Nat.add_comm]
        · intro e t hended
          obtain ⟨i, hfirst, faults, ht⟩ := hended
          have hmem := memoryOf_poke (s := s) tid (entry.1, entry.2.originalByte) (s.faults.drop 2)
          refine ⟨i + 1, FirstFailure.cons hok hmapped (hmem ▸ hfirst), faults, ?_⟩
          have := Session.lifted_poke (s := s) tid (entry.1, entry.2.originalByte)
            ((armedCells entries).take i) (s.faults.drop 2)
          rw [ht, this, List.take_succ_cons]
      · exact ⟨0, firstFailure_zero hfails, faults, by simp [Session.lifted, liftCells]⟩
    · rename_i hin
      have harmed : armedCells (entry :: entries) = armedCells entries := by
        simp [armedCells, hin]
      rw [harmed]
      exact ih

end

/-! ## Restoring the debug registers -/

/-- The `i`-th of the coming ptrace requests fails. -/
def refused (faults : List (Option Nat)) (i : Nat) : Bool := (faults[i]?).join.isSome

theorem refused_drop (faults : List (Option Nat)) (n i : Nat) :
    refused (faults.drop n) i = refused faults (n + i) := by
  simp [refused]

section

variable {s : Session}

/-- `replace_debug_slot` makes five requests. The slot is disabled by the second. -/
theorem wp_replaceDebugSlot (tid : Pid) (dr0 dr6 dr7 : Word) :
    wp (replaceDebugSlot tid dr0 dr6 dr7)
      ⟨fun _ t => (∀ j < 5, refused s.faults j = false) ∧
          t.dbg = s.dbg ∧ t.world.memory = s.world.memory ∧ t.faults = s.faults.drop 5 ∧
          t.world.debug tid 7 = dr7,
        fun _ t => (∃ j < 5, refused s.faults j = true) ∧
          t.dbg = s.dbg ∧ t.world.memory = s.world.memory ∧
          (refused s.faults 0 = true ∨ refused s.faults 1 = true →
            t.world.debug = s.world.debug) ∧
          (refused s.faults 0 = false → refused s.faults 1 = false →
            t.world.debug tid 7 = s.world.debug tid 7 &&& ~~~dr7Slot0Mask),
        fun _ _ => False⟩ s := by
  simp only [replaceDebugSlot, writeDebugSlot, Lowlevel.getDebugRegister, Lowlevel.setDebugRegister,
    wp_bind, wp_read, Lowlevel.wp_modifyWorld]
  refine wp_attempt_exact (fun h0 => ?_) (fun e h0 => ?_)
  · refine wp_attempt_exact (fun h1 => ?_) (fun e h1 => ?_)
    · refine wp_attempt_exact (fun h2 => ?_) (fun e h2 => ?_)
      · refine wp_attempt_exact (fun h3 => ?_) (fun e h3 => ?_)
        · refine wp_attempt_exact (fun h4 => ?_) (fun e h4 => ?_)
          · simp only [List.getElem?_drop, List.drop_drop] at h1 h2 h3 h4
            refine ⟨fun j hj => ?_, rfl, rfl, ?_, ?_⟩
            · rcases j with _ | _ | _ | _ | _ | j
              · exact h0
              · exact h1
              · exact h2
              · exact h3
              · exact h4
              · omega
            · simp only [List.drop_drop]
            · simp
          · simp only [List.getElem?_drop, List.drop_drop] at h1 h4
            exact ⟨⟨4, by omega, by simp [refused, h4]⟩, rfl, rfl, fun h => by simp_all [refused], by simp⟩
        · simp only [List.getElem?_drop, List.drop_drop] at h1 h3
          exact ⟨⟨3, by omega, by simp [refused, h3]⟩, rfl, rfl, fun h => by simp_all [refused], by simp⟩
      · simp only [List.getElem?_drop, List.drop_drop] at h1 h2
        exact ⟨⟨2, by omega, by simp [refused, h2]⟩, rfl, rfl, fun h => by simp_all [refused], by simp⟩
    · simp only [List.getElem?_drop] at h1
      exact ⟨⟨1, by omega, by simp [refused, h1]⟩, rfl, rfl, fun _ => rfl, fun _ h => by simp_all [refused]⟩
  · exact ⟨⟨0, by omega, by simp [refused, h0]⟩, rfl, rfl, fun _ => rfl, fun h _ => by simp_all [refused]⟩

end

/-! ## Releasing the threads -/

/-- What a failed detach has to leave alone: the table, the bytes, the pending displaced step and
the debug registers. -/
structure Session.Untouched (s t : Session) : Prop where
  table : t.dbg.breakpointsByAddress = s.dbg.breakpointsByAddress
  memory : t.world.memory = s.world.memory
  pending : t.dbg.pendingBreakpointStep = s.dbg.pendingBreakpointStep
  debug : t.world.debug = s.world.debug

theorem Session.Untouched.refl (s : Session) : s.Untouched s := ⟨rfl, rfl, rfl, rfl⟩

theorem Session.Untouched.trans {s t u : Session} (h : s.Untouched t) (h' : t.Untouched u) :
    s.Untouched u :=
  ⟨h'.table.trans h.table, h'.memory.trans h.memory, h'.pending.trans h.pending,
    h'.debug.trans h.debug⟩

/-- The next `n` requests succeed or find their task gone. -/
def releasable (faults : List (Option Nat)) (n : Nat) : Prop :=
  ∀ i < n, ∀ errno, faults[i]? = some (some errno) → errno = esrch

section

variable {s : Session}

theorem wp_detachTask (tid : Pid) (signal : Nat) (first : Option Exception) :
    wp (detachTask tid signal first)
      ⟨fun r t => s.Untouched t ∧ t.faults = s.faults.drop 1 ∧
          (r = none ↔ first = none ∧ releasable s.faults 1),
        fun _ _ => False, fun _ _ => False⟩ s := by
  simp only [detachTask, Lowlevel.detach, wp_handle, wp_bind]
  refine wp_attempt_exact (fun hok => ?_) (fun errno hfails => ?_)
  · refine ⟨⟨rfl, rfl, rfl, rfl⟩, rfl, (and_iff_left fun i hi errno hget => ?_).symm⟩
    obtain rfl : i = 0 := by omega
    simp [hget] at hok
  · have hone : releasable s.faults 1 ↔ errno = esrch := by
      simp [releasable, hfails]
    simp only [wp_ite, wp_bind, wp_modifyProcess, wp_pure]
    split
    · rename_i hgone
      exact ⟨⟨rfl, rfl, rfl, rfl⟩, by simp [hone, hgone]⟩
    · rename_i hother
      exact ⟨⟨rfl, rfl, rfl, rfl⟩, by simp [hone, hother]⟩

/-- The loop of `Process::detach` records an error if some request fails otherwise than with
`ESRCH`. -/
theorem wp_detachTasks (signalTid : Pid) (signal : Nat) (tids : List Pid)
    (first : Option Exception) :
    wp (detachTasks signalTid signal tids first)
      ⟨fun r t => s.Untouched t ∧ (r = none ↔ first = none ∧ releasable s.faults tids.length),
        fun _ _ => False, fun _ _ => False⟩ s := by
  induction tids generalizing s first with
  | nil => exact ⟨.refl s, by simp [releasable]⟩
  | cons tid tids ih =>
    simp only [detachTasks, wp_bind]
    refine wp_mono (wp_detachTask tid _ first) ?_ (fun _ _ h => h) (fun _ _ h => h)
    intro r t hended
    obtain ⟨hsame, hfaults, hr⟩ := hended
    refine wp_mono (ih r) ?_ (fun _ _ h => h) (fun _ _ h => h)
    intro r' t' hended
    obtain ⟨hsame', hr'⟩ := hended
    refine ⟨hsame.trans hsame', ?_⟩
    rw [hr', hr, hfaults, and_assoc]
    refine and_congr_right fun _ => ⟨fun ⟨hhead, htail⟩ i hi errno hget => ?_, fun h => ?_⟩
    · cases i with
      | zero => exact hhead 0 (by omega) errno hget
      | succ i =>
        refine htail i (by simpa using hi) errno ?_
        rwa [List.getElem?_drop, Nat.add_comm]
    · refine ⟨fun i hi errno hget => h i (by simp; omega) errno hget, fun i hi errno hget => ?_⟩
      rw [List.getElem?_drop, Nat.add_comm] at hget
      exact h (i + 1) (by simpa using hi) errno hget

/-- The order in which `Process::detach` releases the tasks has each of them once. -/
theorem length_detachOrder {p : Process} (h : p.taskStates.contains p.currentTid = true) :
    (p.tids.filter (· ≠ p.currentTid) ++ [p.currentTid]).length = p.tids.length := by
  have hnodup : p.tids.Nodup := ExtTreeMap.nodup_keys
  have hmem : p.currentTid ∈ p.tids := by
    simpa [Process.tids] using h
  have herase : p.tids.filter (· ≠ p.currentTid) = p.tids.erase p.currentTid := by
    rw [hnodup.erase_eq_filter]
    exact List.filter_congr fun tid _ => by simp [bne, Bool.beq_eq_decide_eq]
  have hpos : 0 < p.tids.length := List.length_pos_of_mem hmem
  rw [List.length_append, herase, List.length_erase_of_mem hmem, List.length_singleton]
  omega

/-- No traced thread is running. -/
def Process.allStopped (p : Process) : Bool :=
  !p.taskStates.toList.any fun task => task.2 ≠ .stopped

/-- `Process::detach` fails if a thread is not stopped or cannot be released. -/
theorem wp_detachProcess_exact {signal : Nat} (horigin : s.dbg.process.origin = .attached)
    (hready : s.dbg.process.Ready) :
    wp (detachProcess signal)
      ⟨fun _ _ => s.dbg.process.allStopped = true ∧
          releasable s.faults s.dbg.process.tids.length,
        fun _ t => s.Untouched t ∧ ¬(s.dbg.process.allStopped = true ∧
          releasable s.faults s.dbg.process.tids.length),
        fun _ _ => False⟩ s := by
  have hcontains : s.dbg.process.taskStates.contains s.dbg.process.currentTid = true := by
    have := hready.current
    rw [Process.taskState] at this
    rw [ExtTreeMap.contains_eq_isSome_getElem?, this]
    rfl
  simp only [detachProcess, wp_bind, wp_view, wp_ite, wp_raise, horigin, hready.stopped, ne_eq,
    not_true_eq_false, if_false, hcontains, if_true]
  split
  · rename_i hrunning
    refine ⟨.refl s, fun h => ?_⟩
    have := h.1
    rw [Process.allStopped, Bool.not_eq_true'] at this
    rw [← Bool.not_eq_true] at this
    exact this hrunning
  · rename_i hstopped
    have hall : s.dbg.process.allStopped = true := by
      rw [Process.allStopped, Bool.not_eq_true', ← Bool.not_eq_true]
      exact hstopped
    have horder := length_detachOrder hcontains
    refine wp_mono (wp_detachTasks _ signal _ none) ?_ (fun _ _ h => h.elim) (fun _ _ h => h)
    intro first t hended
    obtain ⟨hsame, hfirst⟩ := hended
    simp only [ne_eq] at horder
    rw [horder] at hfirst
    cases first with
    | none => exact ⟨hall, (hfirst.mp rfl).2⟩
    | some e =>
      refine ⟨⟨hsame.table, hsame.memory, hsame.pending, hsame.debug⟩, fun h => ?_⟩
      cases hfirst.mpr ⟨rfl, h.2⟩

end

/-! ## `detach` -/

namespace Session

variable (s : Session)

/-- The checks that `detach` makes first. -/
structure Detachable : Prop where
  single : s.dbg.retainedProcesses.isEmpty = true
  attached : s.dbg.process.origin = .attached
  ready : s.dbg.process.Ready

/-- The bytes that `detach` restores. -/
def liftedCells : List (Addr × Byte) := armedCells s.dbg.breakpointsByAddress.toList

/-- The requests that `detach` makes before it turns to the debug registers. -/
def byteRequests : Nat := 2 * s.liftedCells.length

/-- The requests that `detach` makes before it turns to the threads. -/
def earlyRequests : Nat :=
  s.byteRequests + if s.dbg.watchpointRegisterSnapshot.isSome then 5 else 0

/-- The debug registers of the watchpoint owner cannot be restored. -/
def RegistersFail : Prop :=
  ∃ snapshot, s.dbg.watchpointRegisterSnapshot = some snapshot ∧
    (s.dbg.process.taskState snapshot.tid ≠ some .stopped ∨
      ∃ j < 5, refused s.faults (s.byteRequests + j) = true)

/-- Some thread is running or cannot be released. -/
def ReleaseFails : Prop :=
  ¬(s.dbg.process.allStopped = true ∧
    releasable (s.faults.drop s.earlyRequests) s.dbg.process.tids.length)

/-- All bytes can be restored. -/
def BytesRestorable : Prop :=
  NoFailure (memoryOf s s.dbg.process.currentTid) s.faults s.liftedCells

/-- The owner of the watchpoint is stopped and its control register can be read and written. -/
def SlotReached (snapshot : DebugRegisterSnapshot) : Prop :=
  s.dbg.process.taskState snapshot.tid = some .stopped ∧
    refused s.faults s.byteRequests = false ∧ refused s.faults (s.byteRequests + 1) = false

/-- `detach` does not fail once it has restored a byte, dropped a pending displaced step or
disabled the watchpoint. -/
structure Undisturbed : Prop where
  bytes : ∀ i, FirstFailure (memoryOf s s.dbg.process.currentTid) s.faults s.liftedCells i → i = 0
  lifted : s.BytesRestorable → s.liftedCells ≠ [] ∨ s.dbg.pendingBreakpointStep ≠ none →
    ¬s.RegistersFail ∧ ¬s.ReleaseFails
  registers : s.BytesRestorable → ∀ snapshot, s.dbg.watchpointRegisterSnapshot = some snapshot →
    s.SlotReached snapshot → ¬s.RegistersFail ∧ ¬s.ReleaseFails

/-- The watchpoint is armed, and the registers saved for it are not. -/
def WatchArmed : Prop :=
  ∀ snapshot, s.dbg.watchpointRegisterSnapshot = some snapshot →
    s.world.debug snapshot.tid 7 &&& dr7Slot0EnableMask ≠ 0 ∧
      snapshot.dr7 &&& dr7Slot0EnableMask = 0

/-- A `detach` that throws leaves everything armed. -/
def FailsArmed (policy : SignalPolicy) : Prop :=
  wp (detach policy) ⟨fun _ _ => True, fun _ t => s.Untouched t, fun _ _ => False⟩ s

/-- `t` is left by a failure after all bytes have been restored. -/
structure FailedLater (t : Session) : Prop where
  restored : s.BytesRestorable
  failure : s.RegistersFail ∨ s.ReleaseFails
  table : t.dbg.breakpointsByAddress = liftCells s.dbg.breakpointsByAddress s.liftedCells
  memory : s.liftedCells = [] → t.world.memory = s.world.memory
  pending : t.dbg.pendingBreakpointStep = none
  debug : (∀ snapshot, s.dbg.watchpointRegisterSnapshot = some snapshot →
    ¬s.SlotReached snapshot) → t.world.debug = s.world.debug
  disarmed : ∀ snapshot, s.dbg.watchpointRegisterSnapshot = some snapshot →
    s.SlotReached snapshot →
      t.world.debug snapshot.tid 7 = s.world.debug snapshot.tid 7 &&& ~~~dr7Slot0Mask ∨
        t.world.debug snapshot.tid 7 = snapshot.dr7

end Session

section

variable {s : Session}

/-- The session once all bytes have been restored. -/
def Session.restored (s : Session) : Session :=
  { s.lifted s.dbg.process.currentTid s.liftedCells with
    faults := s.faults.drop s.byteRequests
    dbg := { (s.lifted s.dbg.process.currentTid s.liftedCells).dbg with
      pendingBreakpointStep := none } }

theorem Session.restored_memory (h : s.liftedCells = []) :
    s.restored.world.memory = s.world.memory := by
  simp [Session.restored, Session.lifted, h]

/-- `t` is left once the registers have been restored as well. -/
structure Session.RegistersRestored (s t : Session) : Prop where
  dbg : t.dbg = s.restored.dbg
  memory : t.world.memory = s.restored.world.memory
  faults : t.faults = s.faults.drop s.earlyRequests
  registers : ¬s.RegistersFail
  debug : (∀ snapshot, s.dbg.watchpointRegisterSnapshot = some snapshot →
    ¬s.SlotReached snapshot) → t.world.debug = s.world.debug
  dr7 : ∀ snapshot, s.dbg.watchpointRegisterSnapshot = some snapshot → s.SlotReached snapshot →
    t.world.debug snapshot.tid 7 = snapshot.dr7

/-- Releasing the threads fails only if `ReleaseFails` says so. -/
theorem wp_releaseLater {signal : Nat} {t : Session} (h : s.Detachable)
    (hbytes : s.BytesRestorable) (ht : s.RegistersRestored t) :
    wp (detachProcess signal)
      ⟨fun _ _ => ¬s.ReleaseFails, fun _ u => s.FailedLater u, fun _ _ => False⟩ t := by
  have hprocess : t.dbg.process = s.dbg.process := by rw [ht.dbg]; rfl
  refine wp_mono (wp_detachProcess_exact (by rw [hprocess]; exact h.attached)
    (by rw [hprocess]; exact h.ready)) ?_ ?_ (fun _ _ h => h)
  · intro _ u hall
    rw [hprocess, ht.faults] at hall
    exact not_not.mpr hall
  · intro e u hended
    obtain ⟨hsame, hfails⟩ := hended
    rw [hprocess, ht.faults] at hfails
    refine ⟨hbytes, .inr hfails, ?_, fun hnone => ?_, ?_, fun hnot => ?_,
      fun snapshot hsnap hreached => .inr ?_⟩
    · rw [hsame.table, ht.dbg]; rfl
    · rw [hsame.memory, ht.memory, Session.restored_memory hnone]
    · rw [hsame.pending, ht.dbg]; rfl
    · rw [hsame.debug, ht.debug hnot]
    · rw [hsame.debug, ht.dr7 snapshot hsnap hreached]

theorem refused_restored (j : Nat) :
    refused s.restored.faults j = refused s.faults (s.byteRequests + j) :=
  refused_drop s.faults s.byteRequests j

section Slot

variable {snapshot : DebugRegisterSnapshot} {t : Session}

/-- The five requests for the slot of the watchpoint succeed. -/
theorem registersRestored_of_slot (hsnap : s.dbg.watchpointRegisterSnapshot = some snapshot)
    (hstopped : s.dbg.process.taskState snapshot.tid = some .stopped)
    (hnone : ∀ j < 5, refused s.restored.faults j = false) (hdbg : t.dbg = s.restored.dbg)
    (hmemory : t.world.memory = s.restored.world.memory)
    (hfaults : t.faults = s.restored.faults.drop 5)
    (hdr7 : t.world.debug snapshot.tid 7 = snapshot.dr7) : s.RegistersRestored t := by
  refine ⟨hdbg, hmemory, ?_, ?_, fun hnot => ?_, fun other hother _ => ?_⟩
  · rw [hfaults, Session.earlyRequests, hsnap]
    exact List.drop_drop ..
  · rintro ⟨other, hother, hrunning | ⟨j, hj, hrefused⟩⟩
    · rw [hsnap] at hother
      cases hother
      exact hrunning hstopped
    · rw [← refused_restored, hnone j hj] at hrefused
      cases hrefused
  · have hzero := hnone 0 (by omega)
    have hone := hnone 1 (by omega)
    rw [refused_restored] at hzero hone
    exact absurd ⟨hstopped, hzero, hone⟩ (hnot snapshot hsnap)
  · rw [hsnap] at hother
    cases hother
    exact hdr7

/-- One of the five requests fails. -/
theorem failedLater_of_slot (hbytes : s.BytesRestorable)
    (hsnap : s.dbg.watchpointRegisterSnapshot = some snapshot)
    (hstopped : s.dbg.process.taskState snapshot.tid = some .stopped) {j : Nat} (hj : j < 5)
    (hrefused : refused s.restored.faults j = true) (hdbg : t.dbg = s.restored.dbg)
    (hmemory : t.world.memory = s.restored.world.memory)
    (hkept : refused s.restored.faults 0 = true ∨ refused s.restored.faults 1 = true →
      t.world.debug = s.restored.world.debug)
    (hdisabled : refused s.restored.faults 0 = false → refused s.restored.faults 1 = false →
      t.world.debug snapshot.tid 7 = s.restored.world.debug snapshot.tid 7 &&& ~~~dr7Slot0Mask) :
    s.FailedLater t := by
  rw [refused_restored] at hrefused
  simp only [refused_restored] at hkept hdisabled
  refine ⟨hbytes, .inl ⟨snapshot, hsnap, .inr ⟨j, hj, hrefused⟩⟩, by rw [hdbg]; rfl,
    fun hnone => by rw [hmemory, Session.restored_memory hnone], by rw [hdbg]; rfl,
    fun hnot => ?_, fun other hother hreached => ?_⟩
  · refine hkept ?_
    by_contra hboth
    simp only [not_or, Bool.not_eq_true] at hboth
    exact hnot snapshot hsnap ⟨hstopped, hboth⟩
  · rw [hsnap] at hother
    cases hother
    exact .inl (hdisabled hreached.2.1 hreached.2.2)

end Slot

/-- Restoring the registers once the bytes are restored. -/
theorem wp_restoreLater (hbytes : s.BytesRestorable) :
    wp restoreWatchpointRegisters
      ⟨fun _ t => s.RegistersRestored t, fun _ t => s.FailedLater t, fun _ _ => False⟩
      s.restored := by
  simp only [restoreWatchpointRegisters, wp_bind, wp_view]
  have hsnapshot : s.restored.dbg.watchpointRegisterSnapshot =
    s.dbg.watchpointRegisterSnapshot := rfl
  rcases hsnap : s.dbg.watchpointRegisterSnapshot with _ | snapshot
  · rw [hsnapshot, hsnap]
    refine ⟨rfl, rfl, ?_, ?_, fun _ => rfl, fun snapshot hsome => ?_⟩
    · simp [Session.restored, Session.earlyRequests, hsnap]
    · rintro ⟨snapshot, hsome, -⟩
      rw [hsnap] at hsome
      cases hsome
    · rw [hsnap] at hsome
      cases hsome
  · rw [hsnapshot, hsnap]
    simp only [wp_bind, wp_view, wp_ite, wp_raise]
    split
    next hrunning =>
      refine ⟨hbytes, .inl ⟨snapshot, hsnap, .inl hrunning⟩, rfl, Session.restored_memory, rfl,
        fun _ => rfl, fun other hother hreached => ?_⟩
      rw [hsnap] at hother
      cases hother
      exact absurd hreached.1 hrunning
    next hstopped =>
      refine wp_mono (wp_replaceDebugSlot snapshot.tid snapshot.dr0 snapshot.dr6 snapshot.dr7) ?_ ?_
        (fun _ _ h => h)
      · rintro _ t ⟨hnone, hdbg, hmemory, hfaults, hdr7⟩
        exact registersRestored_of_slot hsnap (not_not.mp hstopped) hnone hdbg hmemory hfaults hdr7
      · rintro e t ⟨⟨j, hj, hrefused⟩, hdbg, hmemory, hkept, hdisabled⟩
        exact failedLater_of_slot hbytes hsnap (not_not.mp hstopped) hj hrefused hdbg hmemory hkept
          hdisabled

/-- The ways in which `detach` ends. -/
theorem wp_detach_exact {policy : SignalPolicy} (h : s.Detachable) :
    wp (detach policy)
      ⟨fun _ _ => s.BytesRestorable ∧ ¬s.RegistersFail ∧ ¬s.ReleaseFails,
        fun _ t => s.FailedLater t ∨
          ∃ i, FirstFailure (memoryOf s s.dbg.process.currentTid) s.faults s.liftedCells i ∧
            ∃ faults, t = { s.lifted s.dbg.process.currentTid (s.liftedCells.take i) with faults },
        fun _ _ => False⟩ s := by
  simp only [detach, resumeSignal, wp_bind, wp_view, wp_ite, wp_raise, id, h.single, h.attached,
    h.ready.stopped, Bool.not_true, Bool.false_eq_true, if_false, ne_eq, not_true_eq_false]
  rw [wp_of_returned (stoppedTid_eq h.ready)]
  simp only [restoreAllBreakpoints, wp_bind, wp_view]
  rw [wp_of_returned (stoppedTid_eq h.ready)]
  dsimp only
  refine wp_mono (wp_restoreEach s.dbg.process.currentTid s.dbg.breakpointsByAddress.toList) ?_
    (fun _ _ h => .inr h) (fun _ _ h => h)
  intro _ t hended
  obtain ⟨hbytes, ht⟩ := hended
  subst ht
  refine wp_mono (wp_restoreLater hbytes) (fun _ u hu => ?_) (fun _ _ hlater => .inl hlater)
    (fun _ _ h => h)
  exact wp_mono (wp_releaseLater h hbytes hu)
    (fun _ _ hrelease => ⟨hbytes, hu.registers, hrelease⟩) (fun _ _ hlater => .inl hlater)
    (fun _ _ h => h)

/-- A check that fails comes before any effect. -/
theorem failsArmed_of_not_detachable {policy : SignalPolicy} (h : ¬s.Detachable) :
    s.FailsArmed policy := by
  simp only [Session.FailsArmed, detach, wp_bind, wp_view, wp_ite, wp_raise, id]
  split
  · exact .refl s
  rename_i hsingle
  split
  · exact .refl s
  rename_i horigin
  split
  · exact .refl s
  refine wp_stoppedTid (fun hstate hpos htask => ?_) (fun _ _ => .refl s)
  exact absurd ⟨by simpa using hsingle, not_not.mp horigin, hstate, hpos, htask⟩ h

theorem installed_of_mem_liftedCells {cell : Addr × Byte} (h : cell ∈ s.liftedCells) :
    (s.dbg.breakpointsByAddress[cell.1]?).any Breakpoint.installed = true := by
  obtain ⟨entry, hentry, rfl⟩ := List.mem_map.mp h
  obtain ⟨hmem, hin⟩ := List.mem_filter.mp hentry
  rw [ExtTreeMap.mem_toList_iff_getElem?_eq_some.mp hmem]
  exact hin

theorem not_firstFailure_of_noFailure {m : Memory} {faults : List (Option Nat)}
    {cells : List (Addr × Byte)} {i : Nat} (h : NoFailure m faults cells) :
    ¬FirstFailure m faults cells i := by
  rintro ⟨⟨cell, hcell, hfails⟩, -⟩
  rw [h i cell hcell] at hfails
  cases hfails

/-- The control register of the owner cannot be as it was. -/
theorem Session.WatchArmed.changed {t : Session} (h : s.WatchArmed)
    {snapshot : DebugRegisterSnapshot} (hsnap : s.dbg.watchpointRegisterSnapshot = some snapshot)
    (hdr7 : t.world.debug snapshot.tid 7 = s.world.debug snapshot.tid 7 &&& ~~~dr7Slot0Mask ∨
      t.world.debug snapshot.tid 7 = snapshot.dr7) : t.world.debug ≠ s.world.debug := by
  intro heq
  obtain ⟨hon, hoff⟩ := h snapshot hsnap
  rw [heq] at hdr7
  rcases hdr7 with hdisabled | hsaved
  · apply hon
    rw [hdisabled, BitVec.and_assoc, show ~~~dr7Slot0Mask &&& dr7Slot0EnableMask = 0 by decide]
    exact BitVec.and_zero
  · exact hon (hsaved ▸ hoff)

/-- A state in which `detach` fails after an effect is not left as it was. -/
theorem Session.FailsArmed.excludes {policy : SignalPolicy} (h : s.FailsArmed policy)
    (hd : s.Detachable) (hbytes : s.BytesRestorable)
    (heffect : ∀ t, s.FailedLater t → ¬s.Untouched t) : ¬s.RegistersFail ∧ ¬s.ReleaseFails := by
  have hboth := wp_and (wp_detach_exact hd) h
  unfold wp at hboth
  split at hboth
  · exact hboth.1.2
  · obtain ⟨hlater | ⟨i, hfirst, -⟩, hsame⟩ := hboth
    · exact absurd hsame (heffect _ hlater)
    · exact absurd hfirst (not_firstFailure_of_noFailure hbytes)
  · exact hboth.1.elim

end

/-- A `detach` that throws leaves the session armed if nothing fails after its first effect, and,
where the watchpoint registers are armed, only then. -/
theorem detach_fails_armed_iff (s : Session) (policy : SignalPolicy) :
    ((s.Detachable → s.Undisturbed) → s.FailsArmed policy) ∧
    (s.WatchArmed → s.FailsArmed policy → s.Detachable → s.Undisturbed) := by
  refine ⟨fun h => ?_, fun harmed h hd => ⟨fun i hfirst => ?_, fun hbytes heffect => ?_,
    fun hbytes snapshot hsnap hreached => ?_⟩⟩
  · by_cases hd : s.Detachable
    · have hundisturbed := h hd
      refine wp_mono (wp_detach_exact hd) (fun _ _ _ => trivial) ?_ (fun _ _ h => h)
      rintro e t (hlater | ⟨i, hfirst, faults, rfl⟩)
      · have hno : ¬(¬s.RegistersFail ∧ ¬s.ReleaseFails) := fun hnone =>
          hlater.failure.elim hnone.1 hnone.2
        have hempty : s.liftedCells = [] := by
          by_contra hcells
          exact hno (hundisturbed.lifted hlater.restored (.inl hcells))
        have hpending : s.dbg.pendingBreakpointStep = none := by
          by_contra hsome
          exact hno (hundisturbed.lifted hlater.restored (.inr hsome))
        refine ⟨?_, hlater.memory hempty, hlater.pending.trans hpending.symm,
          hlater.debug fun snapshot hsnap hreached => ?_⟩
        · rw [hlater.table, hempty]
          rfl
        · exact hno (hundisturbed.registers hlater.restored snapshot hsnap hreached)
      · obtain rfl := hundisturbed.bytes i hfirst
        refine ⟨rfl, ?_, rfl, rfl⟩
        simp [Session.lifted]
    · exact failsArmed_of_not_detachable hd
  · have hboth := wp_and (wp_detach_exact hd) h
    unfold wp at hboth
    split at hboth
    · exact absurd hfirst (not_firstFailure_of_noFailure hboth.1.1)
    · obtain ⟨hlater | ⟨j, hfirst', faults, rfl⟩, hsame⟩ := hboth
      · exact absurd hfirst (not_firstFailure_of_noFailure hlater.restored)
      · obtain rfl := hfirst.unique hfirst'
        by_contra hpos
        obtain ⟨⟨cell, hcell, -⟩, -⟩ := hfirst
        have hlen := (List.getElem?_eq_some_iff.mp hcell).1
        have hhead : s.liftedCells[0] ∈ s.liftedCells.take i :=
          List.mem_take_iff_getElem.mpr ⟨0, by omega, rfl⟩
        exact liftCells_ne hhead (installed_of_mem_liftedCells (List.getElem_mem _)) hsame.table
    · exact hboth.1.elim
  · refine h.excludes hd hbytes fun t hlater hsame => ?_
    rcases heffect with hcells | hpending
    · obtain ⟨cell, hcell⟩ := List.exists_mem_of_ne_nil _ hcells
      exact liftCells_ne hcell (installed_of_mem_liftedCells hcell)
        (hlater.table.symm.trans hsame.table)
    · exact hpending (hsame.pending.symm.trans hlater.pending)
  · exact h.excludes hd hbytes fun t hlater hsame =>
      harmed.changed hsnap (hlater.disarmed snapshot hsnap hreached) hsame.debug

/-- A process with one mapped page that the debugger has attached to. -/
def Session.attachedPage : Session := { Session.onePage with dbg := attached 10 [] "" 0 }

theorem started_attachedPage : Started Session.attachedPage :=
  .attach 10 [] "" _ (by decide) (by decide) rfl rfl (fun _ => rfl) (fun _ => rfl) rfl

/-- A breakpoint is set, and while the thread runs a new thread reports its initial stop. -/
def Session.newThread : Session :=
  (Session.attachedPage.after anyTracees (.addBreakpoint 0x1800) []).after anyTracees
    (.continueExecution .suppress)
    [.report { tid := 12, group := 10, status := .stopped sigstop .none }]

theorem newThread_run : ∃ log, Run anyTracees (fun _ _ => True) log Session.newThread := by
  refine ⟨_, Run.after (r := .stop ?_) (Run.after (Run.start started_attachedPage) _ _ rfl trivial)
    _ _ ?_ trivial⟩
  · exact { reason := .signal, value := sigstop, tid := 12, sequence := 1 }
  · decide +kernel

/-- The first thread still runs, so that `detach` fails, and its breakpoint is gone. -/
theorem failed_detach_disarms :
    ¬∀ (log : List Result) (s : Session), Run anyTracees (fun _ _ => True) log s →
      s.dbg.process.origin = .attached → ∀ policy script faults,
        (s.facing script faults).FailsArmed policy := by
  intro h
  obtain ⟨log, hrun⟩ := newThread_run
  have harmed := h log _ hrun (by decide +kernel) .suppress [] []
  have hthrows : (detach .suppress (Session.newThread.facing [] [])).value? = none := by
    decide +kernel
  have hlifted : hasEntry (detach .suppress (Session.newThread.facing [] [])).state.dbg 0x1800 true ≠
      hasEntry Session.newThread.dbg 0x1800 true := by decide +kernel
  unfold Session.FailsArmed wp at harmed
  cases houtcome : detach .suppress (Session.newThread.facing [] []) with
  | returned a t => rw [houtcome] at hthrows; cases hthrows
  | raised e t =>
    rw [houtcome] at harmed hlifted
    apply hlifted
    simp only [hasEntry, Outcome.state]
    rw [harmed.table]
    rfl
  | blocked w t => rw [houtcome] at harmed; exact harmed

end MiniDebugger
