import Mathlib.Tactic.Common

/-!
# Rows and ranges

A matrix of rows gives each address the label of the row before it. Its rows come in sequences, each
closed by a row that only ends the row before it. `ranges` takes the sequences one by one and each
pair of consecutive rows of a sequence; `rangesFrom` goes through the rows once and keeps the row
before.
-/

namespace MiniDebugger.LineRows

variable {A L : Type}

/-- A row; one without a label gives its addresses none. -/
structure Row (A L : Type) where
  address : A
  label : Option L
  endSequence : Bool := false

/-- The addresses from `first` up to `last`. -/
structure Range (A L : Type) where
  first : A
  last : A
  label : L

/-- The sequences of a matrix; the last one may be left open. -/
def sequences : List (Row A L) → List (List (Row A L))
  | [] => []
  | row :: rows =>
    if row.endSequence then [row] :: sequences rows
    else
      match sequences rows with
      | [] => [[row]]
      | others :: later => (row :: others) :: later

theorem sequences_open {row : Row A L} (h : row.endSequence = false) (rows : List (Row A L)) :
    ∃ others later, sequences (row :: rows) = (row :: others) :: later := by
  unfold sequences
  rw [h, if_neg Bool.false_ne_true]
  cases sequences rows with
  | nil => exact ⟨[], [], rfl⟩
  | cons others later => exact ⟨others, later, rfl⟩

/-- Within a sequence only the last row can end it. -/
theorem open_of_mem_sequences {rows sequence before : List (Row A L)} {row next : Row A L}
    {after : List (Row A L)} (h : sequence ∈ sequences rows)
    (hsplit : sequence = before ++ row :: next :: after) : row.endSequence = false := by
  induction rows generalizing sequence before with
  | nil => cases h
  | cons first rows ih =>
    unfold sequences at h
    split at h
    next hend =>
      obtain rfl | hlater := List.mem_cons.mp h
      · have hlength := congrArg List.length hsplit
        simp at hlength
        omega
      · exact ih hlater hsplit
    next hopen =>
      have hopen : first.endSequence = false := Bool.eq_false_iff.mpr hopen
      split at h
      next hnil =>
        obtain rfl := List.mem_singleton.mp h
        have hlength := congrArg List.length hsplit
        simp at hlength
        omega
      next others later hcons =>
        obtain rfl | hlater := List.mem_cons.mp h
        · cases before with
          | nil =>
            cases hsplit
            exact hopen
          | cons other before =>
            obtain ⟨_, hothers⟩ := List.cons.inj hsplit
            exact ih (hcons ▸ List.mem_cons_self) hothers
        · exact ih (hcons ▸ List.mem_cons_of_mem _ hlater) hsplit

variable [LT A] [DecidableLT A]

/-- The range of a row, when another follows at a higher address. -/
def rangeTo (next row : Row A L) : Option (Range A L) :=
  if row.address < next.address then row.label.map fun label => ⟨row.address, next.address, label⟩
  else none

/-- The ranges of the consecutive rows of a sequence. -/
def sequenceRanges : List (Row A L) → List (Range A L)
  | [] => []
  | [_] => []
  | row :: next :: rows => (rangeTo next row).toList ++ sequenceRanges (next :: rows)

def ranges (rows : List (Row A L)) : List (Range A L) := (sequences rows).flatMap sequenceRanges

/-- The row that the next one ends. -/
def Row.open (row : Row A L) : Option (Row A L) := if row.endSequence then none else some row

/-- One pass over the rows, with the row before. -/
def rangesFrom : Option (Row A L) → List (Row A L) → List (Range A L)
  | _, [] => []
  | previous, row :: rows =>
    (previous.bind (rangeTo row)).toList ++ rangesFrom row.open rows

theorem rangeTo_eq_some {next row : Row A L} {range : Range A L} :
    rangeTo next row = some range ↔ row.address < next.address ∧ row.address = range.first ∧
      next.address = range.last ∧ row.label = some range.label := by
  unfold rangeTo
  split
  next hless =>
    rw [Option.map_eq_some_iff]
    refine ⟨?_, ?_⟩
    · intro ⟨label, hlabel, hrange⟩
      cases hrange
      exact ⟨hless, rfl, rfl, hlabel⟩
    · intro ⟨_, hfirst, hlast, hlabel⟩
      refine ⟨range.label, hlabel, ?_⟩
      rw [hfirst, hlast]
  next hless =>
    refine ⟨?_, fun h => absurd h.1 hless⟩
    intro h
    cases h

/-- The ranges of a sequence are those of its consecutive rows. -/
theorem mem_sequenceRanges {rows : List (Row A L)} {range : Range A L} :
    range ∈ sequenceRanges rows ↔ ∃ before row next after,
      rows = before ++ row :: next :: after ∧ rangeTo next row = some range := by
  induction rows with
  | nil =>
    refine ⟨fun h => (nomatch h), ?_⟩
    intro ⟨before, row, next, after, hrows, _⟩
    simp at hrows
  | cons first rows ih =>
    cases rows with
    | nil =>
      refine ⟨fun h => (nomatch h), ?_⟩
      intro ⟨before, row, next, after, hrows, _⟩
      have hlength := congrArg List.length hrows
      simp at hlength
      omega
    | cons second rows =>
      rw [sequenceRanges, List.mem_append, Option.mem_toList, ih]
      refine ⟨?_, ?_⟩
      · rintro (hfirst | ⟨before, row, next, after, hrows, hrange⟩)
        · exact ⟨[], first, second, rows, rfl, hfirst⟩
        · exact ⟨first :: before, row, next, after, by rw [hrows, List.cons_append], hrange⟩
      · intro ⟨before, row, next, after, hrows, hrange⟩
        cases before with
        | nil =>
          cases hrows
          exact .inl hrange
        | cons other before =>
          obtain ⟨_, hrows⟩ := List.cons.inj hrows
          exact .inr ⟨before, row, next, after, hrows, hrange⟩

/-- A range belongs to two consecutive rows of one sequence. -/
theorem mem_ranges {rows : List (Row A L)} {range : Range A L} :
    range ∈ ranges rows ↔ ∃ sequence ∈ sequences rows, ∃ before row next after,
      sequence = before ++ row :: next :: after ∧ rangeTo next row = some range := by
  unfold ranges
  rw [List.mem_flatMap]
  simp only [mem_sequenceRanges]

theorem first_lt_last {rows : List (Row A L)} {range : Range A L} (h : range ∈ ranges rows) :
    range.first < range.last := by
  obtain ⟨_, _, _, row, next, _, _, hrange⟩ := mem_ranges.mp h
  obtain ⟨hless, hfirst, hlast, _⟩ := rangeTo_eq_some.mp hrange
  rwa [← hfirst, ← hlast]

/-- An open row ends where the next row begins. -/
theorem ranges_cons_cons {previous : Row A L} (h : previous.endSequence = false) (row : Row A L)
    (rows : List (Row A L)) : ranges (previous :: row :: rows) =
      (rangeTo row previous).toList ++ ranges (row :: rows) := by
  have hfirst : ∃ others later, sequences (row :: rows) = (row :: others) :: later := by
    cases hrow : row.endSequence with
    | false => exact sequences_open hrow rows
    | true =>
      refine ⟨[], sequences rows, ?_⟩
      rw [sequences, if_pos hrow]
  obtain ⟨others, later, hsequences⟩ := hfirst
  unfold ranges
  rw [sequences, h, if_neg Bool.false_ne_true, hsequences]
  simp [sequenceRanges]

/-- A row that ends a sequence begins no range. -/
theorem ranges_cons_of_end {row : Row A L} (h : row.endSequence = true) (rows : List (Row A L)) :
    ranges (row :: rows) = ranges rows := by
  unfold ranges
  rw [sequences, if_pos h]
  simp [sequenceRanges]

/-- The one pass finds the ranges of all sequences. -/
theorem rangesFrom_eq (rows : List (Row A L)) : rangesFrom none rows = ranges rows ∧
    ∀ previous : Row A L, previous.endSequence = false →
      rangesFrom (some previous) rows = ranges (previous :: rows) := by
  induction rows with
  | nil =>
    refine ⟨rfl, ?_⟩
    intro previous h
    simp [rangesFrom, ranges, sequences, sequenceRanges, h]
  | cons row rows ih =>
    have hrest : rangesFrom row.open rows = ranges (row :: rows) := by
      cases hrow : row.endSequence with
      | false =>
        rw [Row.open, hrow, if_neg Bool.false_ne_true]
        exact ih.2 row hrow
      | true =>
        rw [Row.open, if_pos hrow, ranges_cons_of_end hrow]
        exact ih.1
    refine ⟨?_, ?_⟩
    · rw [rangesFrom, hrest]
      rfl
    · intro previous h
      rw [rangesFrom, hrest, ranges_cons_cons h]
      rfl

end MiniDebugger.LineRows
