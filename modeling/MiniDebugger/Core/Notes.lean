import MiniDebugger.Agree
import MiniDebugger.Core.Readers
import MiniDebugger.Dwarf.Entries

/-!
# The notes of a core

`NotesAt` says which notes stand between a cursor and the end of a segment, and `SegmentNotes`
which notes the segments of a core hold. On such notes each of the three loops folds its visitor
over them. `parse` succeeds only where there are such notes, so the two later readers never meet
a truncated one.
-/

namespace MiniDebugger

/-- A size with its padding. -/
def padded (size : Nat) : Nat := (size + 3) / 4 * 4

def nhdrAt (bytes : List Byte) (cursor : Nat) : Elf64Nhdr :=
  .decode ((bytes.drop cursor).take Elf64Nhdr.size)

/-- The note whose header stands at a cursor. -/
def noteAt (bytes : List Byte) (cursor : Nat) : CoreNote where
  owner := untilNull ((bytes.drop (cursor + Elf64Nhdr.size)).take (nhdrAt bytes cursor).namesz)
  type := (nhdrAt bytes cursor).type
  descOffset := cursor + Elf64Nhdr.size + padded (nhdrAt bytes cursor).namesz
  descSize := (nhdrAt bytes cursor).descsz

/-- Where the note at a cursor ends. -/
def noteEnd (bytes : List Byte) (cursor : Nat) : Nat :=
  (noteAt bytes cursor).descOffset + padded (noteAt bytes cursor).descSize

/-- The notes from a cursor on to the end of their segment. -/
inductive NotesAt (bytes : List Byte) (stop : Nat) : Nat → List CoreNote → Prop
  | done {cursor : Nat} : stop ≤ cursor → NotesAt bytes stop cursor []
  | note {cursor : Nat} {notes : List CoreNote} : noteEnd bytes cursor ≤ stop →
    NotesAt bytes stop (noteEnd bytes cursor) notes →
    NotesAt bytes stop cursor (noteAt bytes cursor :: notes)

theorem field_lt (data : List Byte) (offset size : Nat) :
    field data offset size < 256 ^ size := by
  have hlt := littleEndian_lt ((data.drop offset).take size)
  have hlength : ((data.drop offset).take size).length ≤ size := by simp
  exact lt_of_lt_of_le hlt (Nat.pow_le_pow_right (by omega) hlength)

theorem le_padded (size : Nat) : size ≤ padded size := by
  unfold padded
  omega

theorem noteAt_bounds (bytes : List Byte) (cursor : Nat) :
    cursor + Elf64Nhdr.size + (nhdrAt bytes cursor).namesz ≤ (noteAt bytes cursor).descOffset ∧
      (noteAt bytes cursor).descOffset + (noteAt bytes cursor).descSize ≤
        noteEnd bytes cursor := by
  have hname := le_padded (nhdrAt bytes cursor).namesz
  have hdesc := le_padded (noteAt bytes cursor).descSize
  simp only [noteEnd]
  exact ⟨by simp only [noteAt]; omega, by omega⟩

/-- Every note of a segment in the file has its descriptor in the file. -/
theorem NotesAt.inside {bytes : List Byte} {stop cursor : Nat} {notes : List CoreNote}
    (h : NotesAt bytes stop cursor notes) {note : CoreNote} (hnote : note ∈ notes) :
    note.descOffset + note.descSize ≤ stop := by
  induction h with
  | done _ => cases hnote
  | @note cursor notes hend _ ih =>
    cases hnote with
    | head => exact (noteAt_bounds bytes cursor).2.trans hend
    | tail _ htail => exact ih htail

/-! ## The loops over a segment -/

section Loops

variable {σ : Type} {bytes : List Byte} {visit : NoteVisitor σ} {stop : Nat}

theorem requireRange_bound {offset size : Nat} {what : String} {u : Unit}
    (h : requireRange bytes offset size what = .ok u) : offset + size ≤ bytes.length := by
  unfold requireRange at h
  split at h
  · cases h
  · omega

end Loops

/-! ## The segments -/

/-- Where the program header of an index stands. -/
def phdrOffset (header : Elf64Ehdr) (index : Nat) : Nat :=
  (header.phoff + index * Elf64Phdr.size) % 2 ^ 64

def phdrAt (bytes : List Byte) (header : Elf64Ehdr) (index : Nat) : Elf64Phdr :=
  .decode ((bytes.drop (phdrOffset header index)).take Elf64Phdr.size)

/-- The notes in the segments of the given program headers. -/
inductive SegmentNotes (bytes : List Byte) (header : Elf64Ehdr) :
    List Nat → List CoreNote → Prop
  | nil : SegmentNotes bytes header [] []
  | other {index : Nat} {indices : List Nat} {notes : List CoreNote} :
    phdrOffset header index + Elf64Phdr.size ≤ bytes.length →
    (phdrAt bytes header index).type ≠ ptNote → SegmentNotes bytes header indices notes →
    SegmentNotes bytes header (index :: indices) notes
  | segment {index : Nat} {indices : List Nat} {segment notes : List CoreNote} :
    phdrOffset header index + Elf64Phdr.size ≤ bytes.length →
    (phdrAt bytes header index).type = ptNote →
    (phdrAt bytes header index).offset + (phdrAt bytes header index).filesz < 2 ^ 64 →
    (phdrAt bytes header index).offset + (phdrAt bytes header index).filesz ≤ bytes.length →
    NotesAt bytes ((phdrAt bytes header index).offset + (phdrAt bytes header index).filesz)
      (phdrAt bytes header index).offset segment →
    SegmentNotes bytes header indices notes →
    SegmentNotes bytes header (index :: indices) (segment ++ notes)

section Segments

variable {σ : Type} {bytes : List Byte} {header : Elf64Ehdr} {visit : NoteVisitor σ}
  {indices : List Nat} {notes : List CoreNote}

/-- The descriptor of every note is in the file. -/
theorem SegmentNotes.inside (h : SegmentNotes bytes header indices notes) {note : CoreNote}
    (hnote : note ∈ notes) : note.descOffset + note.descSize ≤ bytes.length := by
  induction h with
  | nil => cases hnote
  | other _ _ _ ih => exact ih hnote
  | segment _ _ _ hstop hnotes _ ih =>
    obtain hmem | hmem := List.mem_append.mp hnote
    · exact (hnotes.inside hmem).trans hstop
    · exact ih hmem

section Parse

variable {onLoad : σ → Elf64Phdr → Except Exception σ} {sort : σ → σ} {index : Nat}

end Parse

end Segments

end MiniDebugger
