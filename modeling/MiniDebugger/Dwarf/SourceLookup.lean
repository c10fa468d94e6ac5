import MiniDebugger.Dwarf.LineLookup

/-!
# Looking up a source line

`find_virtual_source` returns the lowest address where a range of the line begins. Looked up again,
that address gives the last of the ranges that begin there: the line and the file that were asked
for exactly when that range is one of them.
-/

namespace MiniDebugger

open Intervals Checks

/-- A range of the line and file that are asked for. -/
def LineRange.Matches (range : LineRange) (file : FilePath) (line : Word) : Prop :=
  range.location.line = line ∧ LineTable.matchesFile file range.location.file = true

instance (range : LineRange) (file : FilePath) (line : Word) :
    Decidable (range.Matches file line) := by
  unfold LineRange.Matches
  exact inferInstance

namespace LineTable

variable {table : LineTable} {file : FilePath} {line : Word}

def qualified (file : FilePath) : Bool := file.isAbsolute || file.hasParentPath

/-- The lowest address so far. -/
def lower (best : Option Word) (range : LineRange) : Option Word :=
  match best with
  | none => some range.first
  | some address => some (if range.first < address then range.first else address)

theorem foldl_lower_eq_some (ranges : List LineRange) (best : Option Word) (address : Word) :
    ranges.foldl lower best = some address ↔
      (best = some address ∨ ∃ range ∈ ranges, range.first = address) ∧
      (∀ other ∈ best, address ≤ other) ∧ ∀ range ∈ ranges, address ≤ range.first := by
  induction ranges generalizing best with
  | nil =>
    simp only [List.foldl_nil, List.not_mem_nil, false_and, exists_false, or_false, false_implies,
      implies_true, and_true]
    refine ⟨?_, And.left⟩
    intro h
    refine ⟨h, ?_⟩
    intro other hother
    rw [h] at hother
    cases hother
    exact BitVec.le_refl _
  | cons range ranges ih =>
    rw [List.foldl_cons, ih]
    cases best with
    | none =>
      simp only [lower, Option.some.injEq, Option.mem_def, List.mem_cons, reduceCtorEq, false_or,
        false_implies, implies_true, true_and, forall_eq', exists_eq_or_imp, forall_eq_or_imp]
    | some other =>
      simp only [lower, Option.some.injEq, Option.mem_def, List.mem_cons, forall_eq',
        exists_eq_or_imp, forall_eq_or_imp]
      split
      next hless => grind
      next hless => grind

/-- The matching ranges have one file, the one matched before. -/
def OneFile (matched : Option FilePath) (ranges : List LineRange) : Prop :=
  ∃ identity, (∀ file ∈ matched, file = identity) ∧
    ∀ range ∈ ranges, range.location.file.lexicallyNormal = identity

theorem oneFile_cons (matched : Option FilePath) (range : LineRange) (ranges : List LineRange) :
    OneFile matched (range :: ranges) ↔
      (∀ file ∈ matched, file = range.location.file.lexicallyNormal) ∧
        OneFile (some range.location.file.lexicallyNormal) ranges := by
  unfold OneFile
  refine ⟨?_, ?_⟩
  · intro ⟨identity, hmatched, hranges⟩
    obtain ⟨rfl, hothers⟩ := List.forall_mem_cons.mp hranges
    refine ⟨hmatched, range.location.file.lexicallyNormal, ?_, hothers⟩
    intro file hfile
    cases hfile
    rfl
  · intro ⟨hmatched, identity, hfirst, hothers⟩
    obtain rfl := hfirst _ rfl
    exact ⟨_, hmatched, List.forall_mem_cons.mpr ⟨rfl, hothers⟩⟩

theorem any_ne_iff (matched : Option FilePath) (identity : FilePath) :
    matched.any (· ≠ identity) = true ↔ ¬∀ file ∈ matched, file = identity := by
  cases matched <;> simp

/-- A scan that returns has met one file, and has kept the lowest address. -/
theorem sourceFrom_eq_ok {best : Option Word} {matched : Option FilePath}
    {ranges : List LineRange} {result : Option Word} :
    sourceFrom file line best matched ranges = .ok result ↔
      (qualified file = true ∨
        OneFile matched (ranges.filter fun range => range.Matches file line)) ∧
      (ranges.filter fun range => range.Matches file line).foldl lower best = result := by
  induction ranges generalizing best matched with
  | nil =>
    unfold sourceFrom
    rw [pure_eq_ok]
    refine ⟨fun h => ⟨.inr ?_, h⟩, And.right⟩
    cases matched <;> simp [OneFile]
  | cons range ranges ih =>
    by_cases hmatches : range.Matches file line
    · have hnext : sourceFrom file line best matched (range :: ranges) =
          if qualified file then sourceFrom file line (lower best range) matched ranges
          else if matched.any (· ≠ range.location.file.lexicallyNormal) then
            .error (.runtimeError ("ambiguous source file for line lookup: " ++ String.ofList file))
          else sourceFrom file line (lower best range)
            (some range.location.file.lexicallyNormal) ranges := by
        conv_lhs => unfold sourceFrom
        rw [if_neg (not_not.mpr hmatches.1), hmatches.2]
        cases best <;> rfl
      rw [hnext, List.filter_cons_of_pos (by simpa using hmatches), List.foldl_cons, oneFile_cons]
      by_cases hqualified : qualified file = true
      · rw [if_pos hqualified, ih]
        simp [hqualified]
      · rw [if_neg hqualified]
        by_cases hother : ∀ file ∈ matched, file = range.location.file.lexicallyNormal
        · rw [if_neg (fun h => (any_ne_iff _ _).mp h hother), ih, and_iff_right hother]
        · rw [if_pos ((any_ne_iff _ _).mpr hother)]
          simp only [hqualified, hother, false_and, or_false, reduceCtorEq, Bool.false_eq_true]
    · have hskip : sourceFrom file line best matched (range :: ranges) =
          sourceFrom file line best matched ranges := by
        conv_lhs => unfold sourceFrom
        split
        · rfl
        next hline =>
          rw [if_pos]
          by_contra hfile
          exact hmatches ⟨not_not.mp hline, by simpa using hfile⟩
      rw [hskip, List.filter_cons_of_neg (by simpa using hmatches), ih]

/-- A query by name alone that matches two files. -/
def Ambiguous (table : LineTable) (file : FilePath) (line : Word) : Prop :=
  qualified file = false ∧ ∃ left ∈ table.ranges, ∃ right ∈ table.ranges,
    left.Matches file line ∧ right.Matches file line ∧
      left.location.file.lexicallyNormal ≠ right.location.file.lexicallyNormal

/-- The lowest address where a matching range begins. -/
structure IsLowest (table : LineTable) (file : FilePath) (line address : Word) : Prop where
  begins : ∃ range ∈ table.ranges, range.Matches file line ∧ range.first = address
  lowest : ∀ range ∈ table.ranges, range.Matches file line → address ≤ range.first

theorem oneFile_iff_not_ambiguous (table : LineTable) (file : FilePath) (line : Word) :
    (qualified file = true ∨
      OneFile none (table.ranges.filter fun range => range.Matches file line)) ↔
      ¬table.Ambiguous file line := by
  unfold Ambiguous OneFile
  refine ⟨?_, ?_⟩
  · intro hone ⟨hunqualified, left, hleft, right, hright, hmatches, hmatches', hne⟩
    obtain hqualified | ⟨identity, _, hall⟩ := hone
    · rw [hunqualified] at hqualified
      cases hqualified
    · refine hne ((hall left ?_).trans (hall right ?_).symm)
      · exact List.mem_filter.mpr ⟨hleft, decide_eq_true hmatches⟩
      · exact List.mem_filter.mpr ⟨hright, decide_eq_true hmatches'⟩
  · intro hnot
    by_cases hqualified : qualified file = true
    · exact .inl hqualified
    · refine .inr ?_
      cases hmatching : table.ranges.filter fun range => range.Matches file line with
      | nil => exact ⟨[], by simp, by simp⟩
      | cons first others =>
        have hmem : ∀ range ∈ first :: others, range ∈ table.ranges ∧ range.Matches file line := by
          intro range hrange
          rw [← hmatching] at hrange
          obtain ⟨hin, hmatches⟩ := List.mem_filter.mp hrange
          exact ⟨hin, of_decide_eq_true hmatches⟩
        refine ⟨first.location.file.lexicallyNormal, by simp, ?_⟩
        intro range hrange
        by_contra hne
        obtain ⟨hin, hmatches⟩ := hmem range hrange
        obtain ⟨hin', hmatches'⟩ := hmem first (by simp)
        exact hnot ⟨by simpa using hqualified, range, hin, first, hin', hmatches, hmatches', hne⟩

theorem findVirtualSource_eq_some {address : Word} :
    table.findVirtualSource file line = .ok (some address) ↔
      (file ≠ [] ∧ line ≠ 0 ∧ ¬table.Ambiguous file line) ∧
        table.IsLowest file line address := by
  unfold findVirtualSource
  by_cases hquery : file = [] ∨ line = 0
  · rw [if_pos hquery]
    refine iff_of_false (fun h => by cases h) ?_
    intro ⟨⟨hfile, hline, _⟩, _⟩
    exact hquery.elim hfile hline
  · obtain ⟨hfile, hline⟩ := not_or.mp hquery
    rw [if_neg hquery, sourceFrom_eq_ok, foldl_lower_eq_some, oneFile_iff_not_ambiguous]
    have hlowest : ((none = some address ∨ ∃ range ∈ table.ranges.filter
          fun range => range.Matches file line, range.first = address) ∧
        (∀ other ∈ (none : Option Word), address ≤ other) ∧
        ∀ range ∈ table.ranges.filter fun range => range.Matches file line,
          address ≤ range.first) ↔ table.IsLowest file line address := by
      refine ⟨?_, ?_⟩
      · intro ⟨hbegins, _, hlowest⟩
        obtain hnone | ⟨range, hrange, hfirst⟩ := hbegins
        · cases hnone
        · obtain ⟨hin, hmatches⟩ := List.mem_filter.mp hrange
          refine ⟨⟨range, hin, of_decide_eq_true hmatches, hfirst⟩, ?_⟩
          intro other hother hmatches'
          exact hlowest other (List.mem_filter.mpr ⟨hother, decide_eq_true hmatches'⟩)
      · intro h
        obtain ⟨range, hin, hmatches, hfirst⟩ := h.begins
        refine ⟨.inr ⟨range, List.mem_filter.mpr ⟨hin, decide_eq_true hmatches⟩, hfirst⟩,
          by simp, ?_⟩
        intro other hother
        obtain ⟨hin', hmatches'⟩ := List.mem_filter.mp hother
        exact h.lowest other hin' (of_decide_eq_true hmatches')
    rw [hlowest]
    exact and_congr_left fun _ => ⟨fun h => ⟨hfile, hline, h⟩, fun h => h.2.2⟩

/-! ## The way back -/

/-- The last of the ranges that begin at one address is the one found there. -/
theorem findVirtualAddress_of_split {before after : List LineRange} {range : LineRange}
    (hranges : table.ranges = before ++ range :: after)
    (hlast : ∀ later ∈ after, later.first ≠ range.first) :
    table.findVirtualAddress range.first = some range.location := by
  have hsorted := table.pairwise_first
  rw [hranges] at hsorted
  obtain ⟨_, hrest, hcross⟩ := List.pairwise_append.mp hsorted
  have hlookup : lastStarted (fun range : LineRange => range.first.toNat) table.ranges
      range.first.toNat = some range := by
    rw [hranges]
    refine lastStarted_eq_of_split ?_ (le_refl _) ?_
    · intro earlier hearlier
      exact hcross earlier hearlier range (by simp)
    · intro later hlater
      have hmem := List.mem_of_mem_head? hlater
      have hle := List.rel_of_pairwise_cons hrest hmem
      have hne : range.first.toNat ≠ later.first.toNat := fun h =>
        hlast later hmem (BitVec.eq_of_toNat_eq h.symm)
      exact lt_of_le_of_ne hle hne
  have hnonempty : range.first.toNat < range.last.toNat :=
    table.nonempty range (by rw [hranges]; simp)
  rw [findVirtualAddress_eq]
  unfold rangeAt lookup
  rw [hlookup]
  simp [hnonempty]

/-- There is a last range among those that begin where some range does. -/
theorem exists_last_beginning {range : LineRange} (hrange : range ∈ table.ranges) :
    ∃ before last after, table.ranges = before ++ last :: after ∧ last.first = range.first ∧
      ∀ later ∈ after, later.first ≠ last.first := by
  obtain ⟨started, later, hsplit, hstarted, hlater, _⟩ :=
    exists_split table.pairwise_first range.first.toNat
  have hmem : range ∈ started := by
    rw [hsplit] at hrange
    obtain h | h := List.mem_append.mp hrange
    · exact h
    · exact absurd (hlater range h) (lt_irrefl _)
  obtain ⟨before, last, rfl⟩ : ∃ before last, started = before ++ [last] :=
    ⟨_, _, (List.dropLast_concat_getLast (List.ne_nil_of_mem hmem)).symm⟩
  have hranges : table.ranges = before ++ last :: later := by
    rw [hsplit]
    simp
  have hlast : last.first = range.first := by
    obtain hbefore | hsame := List.mem_append.mp hmem
    · have hsorted := table.pairwise_first
      rw [hranges] at hsorted
      have hle := (List.pairwise_append.mp hsorted).2.2 range hbefore last (by simp)
      exact BitVec.eq_of_toNat_eq (le_antisymm (hstarted last (by simp)) hle)
    · rw [List.mem_singleton.mp hsame]
  refine ⟨before, last, later, hranges, hlast, ?_⟩
  intro other hother heq
  have hless := hlater other hother
  rw [heq, hlast] at hless
  exact lt_irrefl _ hless

/-- An address that was found for a line leads back to the line. -/
structure RoundTrips (table : LineTable) (file : FilePath) (line : Word) : Prop where
  reverse : ∀ address, table.findVirtualSource file line = .ok (some address) →
    ∃ location, table.findVirtualAddress address = some location ∧ location.line = line ∧
      matchesFile file location.file = true
  lowest : ∀ address, table.findVirtualSource file line = .ok (some address) →
    table.IsLowest file line address
  reported : ∀ loadBias path source,
    sourceAddressInModule (some table) loadBias path file line = .ok (some source) →
    source.line = line ∧ matchesFile file source.file = true
  mapped : ∀ bias path, sourceAddressInModule (some table) (.ok bias) path file line ≠
    .error (.runtimeError "reverse source lookup resolved an unmapped line-table address")

/-- The last of the ranges that begin where the lowest matching range begins matches, too. -/
def LastMatches (table : LineTable) (file : FilePath) (line : Word) : Prop :=
  ∀ before range after, table.ranges = before ++ range :: after →
    (∀ later ∈ after, later.first ≠ range.first) → table.IsLowest file line range.first →
    range.Matches file line

theorem reverse_iff (table : LineTable) (file : FilePath) (line : Word) :
    (∀ address, table.findVirtualSource file line = .ok (some address) →
      ∃ location, table.findVirtualAddress address = some location ∧ location.line = line ∧
        matchesFile file location.file = true) ↔
      (file ≠ [] → line ≠ 0 → ¬table.Ambiguous file line → table.LastMatches file line) := by
  refine ⟨?_, ?_⟩
  · intro hreverse hfile hline hone before range after hranges hlast hlowest
    obtain ⟨location, hfound, hmatches⟩ := hreverse range.first
      (findVirtualSource_eq_some.mpr ⟨⟨hfile, hline, hone⟩, hlowest⟩)
    rw [findVirtualAddress_of_split hranges hlast] at hfound
    cases hfound
    exact hmatches
  · intro hlastMatches address hfound
    obtain ⟨⟨hfile, hline, hone⟩, hlowest⟩ := findVirtualSource_eq_some.mp hfound
    obtain ⟨range, hrange, _, rfl⟩ := hlowest.begins
    obtain ⟨before, last, after, hranges, hfirst, hlast⟩ := exists_last_beginning hrange
    rw [← hfirst] at hlowest ⊢
    exact ⟨last.location, findVirtualAddress_of_split hranges hlast,
      hlastMatches hfile hline hone before last after hranges hlast hlowest⟩

/-- A runtime address is looked up as the address of the table it was made from. -/
theorem findRuntimeAddress_of_source {bias address virtual : Word}
    (hvirtual : table.findVirtualSource file line = .ok (some virtual))
    (h : table.findRuntimeSource (.ok bias) file line = .ok (some address)) :
    table.findRuntimeAddress (.ok bias) address = .ok (table.findVirtualAddress virtual) := by
  unfold findRuntimeSource at h
  rw [hvirtual, ok_bind] at h
  dsimp only at h
  rw [ok_bind, throw_bind, ite_throw_eq_ok, pure_eq_ok] at h
  obtain ⟨hfits, hsum⟩ := h
  cases hsum
  have hbias := bias.isLt
  have hle : ¬virtual + bias < bias := by
    rw [BitVec.lt_def, BitVec.toNat_add_of_lt (by omega)]
    omega
  unfold findRuntimeAddress
  rw [ok_bind, if_neg hle, BitVec.add_sub_cancel]
  rfl

/-- A runtime address that is found was made from an address of the table, with the load bias. -/
theorem exists_virtual_of_findRuntimeSource {loadBias : Except Exception Word} {address : Word}
    (h : table.findRuntimeSource loadBias file line = .ok (some address)) :
    ∃ virtual bias, table.findVirtualSource file line = .ok (some virtual) ∧
      loadBias = .ok bias := by
  obtain ⟨found, hfound, h⟩ := bind_eq_ok.mp h
  cases found with
  | none => cases h
  | some virtual =>
    obtain ⟨bias, hbias, _⟩ := bind_eq_ok.mp h
    exact ⟨virtual, bias, hfound, hbias⟩

/-- What is reported is the location that the address was found to have. -/
theorem exists_location_of_sourceAddressInModule {loadBias : Except Exception Word} {path : String}
    {source : ModuleResolvedSourceAddress}
    (h : sourceAddressInModule (some table) loadBias path file line = .ok (some source)) :
    ∃ address location, table.findVirtualSource file line = .ok (some address) ∧
      table.findVirtualAddress address = some location ∧ source.file = location.file ∧
      source.line = location.line := by
  unfold sourceAddressInModule at h
  dsimp only at h
  split at h
  · cases h
  · obtain ⟨found, hfound, h⟩ := bind_eq_ok.mp h
    cases found with
    | none => cases h
    | some address =>
      obtain ⟨virtual, bias, hvirtual, rfl⟩ := exists_virtual_of_findRuntimeSource hfound
      dsimp only at h
      rw [findRuntimeAddress_of_source hvirtual hfound, ok_bind] at h
      cases hlocation : table.findVirtualAddress virtual with
      | none =>
        rw [hlocation] at h
        cases h
      | some location =>
        rw [hlocation] at h
        cases h
        exact ⟨virtual, location, hvirtual, hlocation, rfl, rfl⟩

/-- A scan fails with the text of an ambiguous query only. -/
theorem sourceFrom_eq_error {best : Option Word} {matched : Option FilePath}
    {ranges : List LineRange} {e : Exception}
    (h : sourceFrom file line best matched ranges = .error e) :
    e = .runtimeError ("ambiguous source file for line lookup: " ++ String.ofList file) := by
  induction ranges generalizing best matched with
  | nil => cases h
  | cons range ranges ih =>
    unfold sourceFrom at h
    dsimp only at h
    split at h
    · exact ih h
    · split at h
      · exact ih h
      · split at h
        · exact ih h
        · split at h
          · cases h
            rfl
          · exact ih h

theorem ambiguous_ne_unmapped (file : FilePath) :
    Exception.runtimeError ("ambiguous source file for line lookup: " ++ String.ofList file) ≠
      .runtimeError "reverse source lookup resolved an unmapped line-table address" := by
  intro h
  have htext := congrArg String.toList (Exception.runtimeError.inj h)
  simp at htext

theorem findVirtualSource_ne_unmapped (table : LineTable) (file : FilePath) (line : Word) :
    table.findVirtualSource file line ≠
      .error (.runtimeError "reverse source lookup resolved an unmapped line-table address") := by
  intro h
  unfold findVirtualSource at h
  split at h
  · cases h
  · exact ambiguous_ne_unmapped file (sourceFrom_eq_error h).symm

/-- The address of a line is found in the table, whatever line it is found to have. -/
theorem isSome_findVirtualAddress_of_source {virtual : Word}
    (h : table.findVirtualSource file line = .ok (some virtual)) :
    ∃ location, table.findVirtualAddress virtual = some location := by
  obtain ⟨range, hrange, _, rfl⟩ := (findVirtualSource_eq_some.mp h).2.begins
  obtain ⟨before, last, after, hranges, hfirst, hlast⟩ := exists_last_beginning hrange
  rw [← hfirst]
  exact ⟨last.location, findVirtualAddress_of_split hranges hlast⟩

theorem sourceAddressInModule_ne_unmapped (table : LineTable) (bias : Word) (path : String)
    (file : FilePath) (line : Word) :
    sourceAddressInModule (some table) (.ok bias) path file line ≠
      .error (.runtimeError "reverse source lookup resolved an unmapped line-table address") := by
  intro h
  unfold sourceAddressInModule at h
  dsimp only at h
  split at h
  · cases h
  · cases hfound : table.findRuntimeSource (.ok bias) file line with
    | error e =>
      rw [hfound] at h
      cases h
      cases hvirtual : table.findVirtualSource file line with
      | error e =>
        have he : table.findRuntimeSource (.ok bias) file line = .error e := by
          unfold findRuntimeSource
          rw [hvirtual]
          rfl
        rw [hfound] at he
        cases he
        exact findVirtualSource_ne_unmapped table file line hvirtual
      | ok virtual =>
        unfold findRuntimeSource at hfound
        rw [hvirtual, ok_bind] at hfound
        cases virtual with
        | none => cases hfound
        | some virtual =>
          dsimp only at hfound
          rw [ok_bind] at hfound
          split at hfound
          · exact absurd (Exception.runtimeError.inj (Except.error.inj hfound)) (by decide)
          · cases hfound
    | ok found =>
      rw [hfound, ok_bind] at h
      cases found with
      | none => cases h
      | some address =>
        obtain ⟨virtual, _, hvirtual, _⟩ := exists_virtual_of_findRuntimeSource hfound
        obtain ⟨location, hlocation⟩ := isSome_findVirtualAddress_of_source hvirtual
        dsimp only at h
        rw [findRuntimeAddress_of_source hvirtual hfound, hlocation] at h
        cases h

/-- The address of a line leads back to the line exactly when the last of the ranges that begin at
the address is one of the line's. -/
theorem roundTrips_iff (table : LineTable) (file : FilePath) (line : Word) :
    table.RoundTrips file line ↔
      (file ≠ [] → line ≠ 0 → ¬table.Ambiguous file line → table.LastMatches file line) := by
  rw [← reverse_iff]
  refine ⟨RoundTrips.reverse, ?_⟩
  intro hreverse
  refine ⟨hreverse, ?_, ?_, ?_⟩
  · intro address hfound
    exact (findVirtualSource_eq_some.mp hfound).2
  · intro loadBias path source hsource
    obtain ⟨address, location, hfound, hlocation, hfile, hline⟩ :=
      exists_location_of_sourceAddressInModule hsource
    obtain ⟨location', hlocation', hmatches⟩ := hreverse address hfound
    rw [hlocation] at hlocation'
    cases hlocation'
    rw [hfile, hline]
    exact hmatches
  · intro bias path
    exact sourceAddressInModule_ne_unmapped table bias path file line

/-- Two sequences of one unit that begin at one address. -/
def shared : LineTable where
  fileTables := [⟨false, ["a.c".toList]⟩]
  ranges := [⟨0x1000, 0x1100, ⟨"a.c".toList, 5, 0⟩, 0⟩, ⟨0x1000, 0x1200, ⟨"a.c".toList, 7, 0⟩, 0⟩]
  nonempty := by decide
  sorted := by decide
  owned := by decide

/-- Line 5 begins at `0x1000`, where line 7 is found. -/
theorem not_roundTrips_shared : ¬shared.RoundTrips "a.c".toList 5 := by
  intro h
  obtain ⟨location, hfound, hline, _⟩ := h.reverse 0x1000 (by decide)
  have hseven : shared.findVirtualAddress 0x1000 = some ⟨"a.c".toList, 7, 0⟩ := by decide
  rw [hseven] at hfound
  cases hfound
  exact absurd hline (by decide)

end LineTable

end MiniDebugger
