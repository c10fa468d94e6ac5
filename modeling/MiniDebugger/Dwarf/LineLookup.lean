import MiniDebugger.Checks
import MiniDebugger.Dwarf.LineTable

/-!
# Looking up an address

`find_virtual_address` asks one range whether it contains the address, `find_virtual_file` asks all.
They agree on every address exactly when the ends of the ranges are covered: where a range reaches
past the end of a later one into a gap, the addresses there have a range and are not found.
-/

namespace MiniDebugger

open Intervals

namespace LineTable

variable {table : LineTable} {address : Word}

theorem pairwise_first (table : LineTable) :
    table.ranges.Pairwise fun left right => left.first.toNat ≤ right.first.toNat := by
  refine table.sorted.imp fun hbefore => ?_
  obtain hless | ⟨hsame, _⟩ := hbefore
  · exact Nat.le_of_lt hless
  · exact Nat.le_of_eq (congrArg BitVec.toNat hsame)

/-- The range that `find_virtual_address` finds. -/
def rangeAt (table : LineTable) (address : Word) : Option LineRange :=
  lookup (fun range : LineRange => range.first.toNat) (fun range => range.last.toNat) table.ranges
    address.toNat

theorem findVirtualAddress_eq (table : LineTable) (address : Word) :
    table.findVirtualAddress address = (table.rangeAt address).map LineRange.location := by
  have hstarted : (fun range : LineRange => decide ¬address < range.first) =
      fun range => decide (range.first.toNat ≤ address.toNat) := by
    funext range
    exact decide_eq_decide.mpr Nat.not_lt
  unfold findVirtualAddress rangeAt lookup lastStarted
  rw [hstarted]
  cases hlast : (table.ranges.takeWhile fun range =>
      decide (range.first.toNat ≤ address.toNat)).getLast? with
  | none => rfl
  | some range =>
    have hfirst : range.first.toNat ≤ address.toNat := by
      simpa using List.mem_takeWhile_imp (List.mem_of_getLast? hlast)
    simp only [Option.filter_some]
    by_cases hcontains : address.toNat < range.last.toNat
    · rw [if_neg (fun h => h.elim (Nat.not_lt.mpr hfirst) (Nat.not_le.mpr hcontains)),
        if_pos (decide_eq_true hcontains)]
      rfl
    · rw [if_pos (.inr (Nat.not_lt.mp hcontains)), if_neg (by simpa using hcontains)]
      rfl

/-- A scan that has an owner keeps it or fails. -/
theorem ownerFrom_some_ne_none (address : Word) (index : Nat) (ranges : List LineRange) :
    ownerFrom address (some index) ranges ≠ .ok none := by
  induction ranges with
  | nil =>
    intro h
    cases h
  | cons range ranges ih =>
    unfold ownerFrom
    split
    · exact ih
    · dsimp only
      split
      · intro h
        cases h
      · exact ih

theorem not_contains_iff {range : LineRange} :
    ¬range.Contains address ↔ address < range.first ∨ range.last ≤ address := by
  unfold LineRange.Contains
  rw [Classical.not_and_iff_not_or_not, BitVec.not_le, BitVec.not_lt]

/-- The scan has no owner for an address exactly when no range contains it. -/
theorem ownerFrom_eq_none (address : Word) (ranges : List LineRange) :
    ownerFrom address none ranges = .ok none ↔ ∀ range ∈ ranges, ¬range.Contains address := by
  induction ranges with
  | nil => simp [ownerFrom, pure, Except.pure]
  | cons range ranges ih =>
    unfold ownerFrom
    rw [List.forall_mem_cons, not_contains_iff]
    split
    next houtside => simp [houtside, ih]
    next hinside =>
      refine iff_of_false (ownerFrom_some_ne_none _ _ _) ?_
      intro h
      exact hinside h.1

/-- The lookup of an address finds a range that contains it whenever there is one, as does the scan
for its file. -/
structure FindsEveryAddress (table : LineTable) : Prop where
  complete : ∀ address, (table.findVirtualAddress address).isSome ↔
    ∃ range ∈ table.ranges, range.Contains address
  sound : ∀ address location, table.findVirtualAddress address = some location →
    ∃ range ∈ table.ranges, range.Contains address ∧ range.location = location
  owner : ∀ address, (table.findVirtualAddress address).isSome ↔
    ownerFrom address none table.ranges ≠ .ok none

/-- Every range ends no later than each later one, unless the range after the later one begins
before the later one has ended. -/
def EndsCovered (table : LineTable) : Prop :=
  ∀ before range after, table.ranges = before ++ range :: after → ∀ earlier ∈ before,
    earlier.last ≤ range.last ∨ ∃ next ∈ after.head?, next.first ≤ range.last

theorem endsCovered_iff (table : LineTable) :
    table.EndsCovered ↔ Intervals.EndsCovered (fun range : LineRange => range.first.toNat)
      (fun range => range.last.toNat) table.ranges := Iff.rfl

theorem complete_iff (table : LineTable) :
    (∀ address, (table.findVirtualAddress address).isSome ↔
      ∃ range ∈ table.ranges, range.Contains address) ↔ table.EndsCovered := by
  rw [endsCovered_iff, ← lookup_complete_iff table.pairwise_first table.nonempty]
  have hfound : ∀ address, (table.findVirtualAddress address).isSome =
      (table.rangeAt address).isSome := by
    intro address
    rw [findVirtualAddress_eq, Option.isSome_map]
  refine ⟨?_, ?_⟩
  · intro h a
    by_cases ha : a < 2 ^ 64
    · have hword := h ⟨a, ha⟩
      rw [hfound] at hword
      exact hword
    · -- no range reaches a number that is not an address
      have hoff : ∀ range : LineRange, ¬a < range.last.toNat := by
        intro range hlt
        have := range.last.isLt
        omega
      refine iff_of_false ?_ ?_
      · intro hsome
        obtain ⟨range, hrange⟩ := Option.isSome_iff_exists.mp hsome
        exact hoff range (contains_of_lookup table.pairwise_first hrange).2.2
      · intro ⟨range, _, _, hlast⟩
        exact hoff range hlast
  · intro h address
    rw [hfound]
    exact h address.toNat

theorem findsEveryAddress_iff_endsCovered (table : LineTable) :
    table.FindsEveryAddress ↔ table.EndsCovered := by
  rw [← complete_iff]
  refine ⟨FindsEveryAddress.complete, ?_⟩
  intro hcomplete
  refine ⟨hcomplete, ?_, ?_⟩
  · intro address location hfound
    rw [findVirtualAddress_eq] at hfound
    obtain ⟨range, hrange, hlocation⟩ := Option.map_eq_some_iff.mp hfound
    obtain ⟨hmem, hcontains⟩ := contains_of_lookup table.pairwise_first hrange
    exact ⟨range, hmem, hcontains, hlocation⟩
  · intro address
    rw [hcomplete, ne_eq, ownerFrom_eq_none]
    simp

/-- Two sequences of one unit, the second within the first. -/
def nested : LineTable where
  fileTables := [⟨false, ["a.c".toList]⟩]
  ranges := [⟨0x1000, 0x2000, ⟨"a.c".toList, 1, 0⟩, 0⟩, ⟨0x1400, 0x1500, ⟨"a.c".toList, 2, 0⟩, 0⟩]
  nonempty := by decide
  sorted := by decide
  owned := by decide

/-- The address `0x1800` lies in the first range and has an owner, and is not found. -/
theorem not_findsEveryAddress_nested : ¬nested.FindsEveryAddress := by
  intro h
  have hmissing : nested.findVirtualAddress 0x1800 = none := by decide
  have hfound := (h.complete 0x1800).mpr ⟨nested.ranges.head (by decide), by decide, by decide⟩
  rw [hmissing] at hfound
  cases hfound

end LineTable

end MiniDebugger
