import Mathlib.Data.List.TakeWhile
import Mathlib.Order.Lattice
import Mathlib.Tactic.Common

/-!
# Lookup in sorted intervals

Half-open intervals, sorted by where they start, looked up at a point: the last interval that starts
at the point or before it is the only one asked whether it contains the point.

`lookup_complete_iff` says for which intervals this finds a container whenever there is one: an
interval that reaches past a later one is harmless only as long as another starts no later than the
later one ends.
-/

namespace MiniDebugger.Intervals

variable {α ρ : Type} [LinearOrder α] (start stop : ρ → α)

/-- The last interval that starts at a point or before it. -/
def lastStarted (ranges : List ρ) (a : α) : Option ρ :=
  (ranges.takeWhile fun r => start r ≤ a).getLast?

def lookup (ranges : List ρ) (a : α) : Option ρ :=
  (lastStarted start ranges a).filter fun r => a < stop r

/-- Every interval ends no later than each later one, or another starts before the later one has
ended. -/
def EndsCovered (ranges : List ρ) : Prop :=
  ∀ before r after, ranges = before ++ r :: after → ∀ q ∈ before,
    stop q ≤ stop r ∨ ∃ s ∈ after.head?, start s ≤ stop r

variable {start stop} {ranges : List ρ} {a : α} {r : ρ}

/-- Sorted intervals fall into those that have started and those that have not. -/
theorem exists_split (hsorted : ranges.Pairwise fun q r => start q ≤ start r) (a : α) :
    ∃ started later, ranges = started ++ later ∧ (∀ q ∈ started, start q ≤ a) ∧
      (∀ q ∈ later, a < start q) ∧ lastStarted start ranges a = started.getLast? := by
  refine ⟨ranges.takeWhile fun r => start r ≤ a, ranges.dropWhile fun r => start r ≤ a,
    List.takeWhile_append_dropWhile.symm, ?_, ?_, rfl⟩
  · intro q hq
    simpa using List.mem_takeWhile_imp hq
  · intro q hq
    have hdrop : (ranges.dropWhile fun r => start r ≤ a).Pairwise fun q r => start q ≤ start r :=
      hsorted.sublist (List.dropWhile_sublist _)
    cases hlater : ranges.dropWhile fun r => start r ≤ a with
    | nil =>
      rw [hlater] at hq
      cases hq
    | cons first later =>
      have hfirst : a < start first := by
        have hne : (ranges.dropWhile fun r => decide (start r ≤ a)) ≠ [] := by
          rw [hlater]
          exact List.cons_ne_nil _ _
        have hhead := List.head_dropWhile_not (fun r => decide (start r ≤ a)) hne
        simpa [hlater] using hhead
      rw [hlater] at hq hdrop
      obtain rfl | hq := List.mem_cons.mp hq
      · exact hfirst
      · exact lt_of_lt_of_le hfirst (List.rel_of_pairwise_cons hdrop hq)

theorem lastStarted_eq_of_split {before after : List ρ}
    (hbefore : ∀ q ∈ before, start q ≤ a) (hr : start r ≤ a)
    (hafter : ∀ s ∈ after.head?, a < start s) :
    lastStarted start (before ++ r :: after) a = some r := by
  have hstarted : ∀ q ∈ before ++ [r], decide (start q ≤ a) = true := by
    intro q hq
    obtain hq | hq := List.mem_append.mp hq
    · exact decide_eq_true (hbefore q hq)
    · rw [List.mem_singleton.mp hq]
      exact decide_eq_true hr
  have hnone : after.takeWhile (fun q => decide (start q ≤ a)) = [] := by
    cases after with
    | nil => rfl
    | cons s after =>
      have hs := hafter s rfl
      rw [List.takeWhile_cons_of_neg]
      simpa using hs
  have happend : before ++ r :: after = (before ++ [r]) ++ after := by simp
  unfold lastStarted
  rw [happend, List.takeWhile_append_of_pos hstarted, hnone, List.append_nil,
    List.getLast?_concat]

/-- What is found contains the point. -/
theorem contains_of_lookup (hsorted : ranges.Pairwise fun q r => start q ≤ start r)
    (h : lookup start stop ranges a = some r) : r ∈ ranges ∧ start r ≤ a ∧ a < stop r := by
  obtain ⟨started, later, hsplit, hstarted, _, hlast⟩ := exists_split hsorted a
  unfold lookup at h
  rw [hlast, Option.filter_eq_some_iff] at h
  have hmem := List.mem_of_getLast? h.1
  refine ⟨?_, hstarted r hmem, by simpa using h.2⟩
  rw [hsplit]
  exact List.mem_append_left _ hmem

theorem lookup_isSome_of_covered (hsorted : ranges.Pairwise fun q r => start q ≤ start r)
    (hcovered : EndsCovered start stop ranges) {q : ρ} (hq : q ∈ ranges) (hstart : start q ≤ a)
    (hstop : a < stop q) : (lookup start stop ranges a).isSome := by
  obtain ⟨started, later, hsplit, hstarted, hlater, hlast⟩ := exists_split hsorted a
  have hmem : q ∈ started := by
    rw [hsplit] at hq
    obtain hq | hq := List.mem_append.mp hq
    · exact hq
    · exact absurd (hlater q hq) (not_lt_of_ge hstart)
  obtain ⟨before, r, hbefore⟩ : ∃ before r, started = before ++ [r] :=
    ⟨_, _, (List.dropLast_concat_getLast (List.ne_nil_of_mem hmem)).symm⟩
  have hcontains : a < stop r := by
    rw [hbefore] at hmem
    obtain hq | hq := List.mem_append.mp hmem
    · have hranges : ranges = before ++ r :: later := by
        rw [hsplit, hbefore]
        simp
      obtain hends | ⟨s, hs, hnext⟩ := hcovered before r later hranges q hq
      · exact lt_of_lt_of_le hstop hends
      · exact lt_of_lt_of_le (hlater s (List.mem_of_mem_head? hs)) hnext
    · rwa [← List.mem_singleton.mp hq]
  unfold lookup
  rw [hlast, hbefore, List.getLast?_concat]
  simp [hcontains]

/-- The lookup finds a container of every point that has one exactly when ends are covered. -/
theorem lookup_complete_iff (hsorted : ranges.Pairwise fun q r => start q ≤ start r)
    (hnonempty : ∀ r ∈ ranges, start r < stop r) :
    (∀ a, (lookup start stop ranges a).isSome ↔ ∃ r ∈ ranges, start r ≤ a ∧ a < stop r) ↔
      EndsCovered start stop ranges := by
  refine ⟨?_, ?_⟩
  · intro hcomplete before r after hranges q hq
    by_contra hnot
    obtain ⟨hpast, hgap⟩ := not_or.mp hnot
    have hle : start q ≤ start r := by
      rw [hranges] at hsorted
      exact (List.pairwise_append.mp hsorted).2.2 q hq r (by simp)
    have hr : start r < stop r := hnonempty r (by rw [hranges]; simp)
    -- the end of the later interval is a point of the earlier one alone
    have hfound := (hcomplete (stop r)).mpr ⟨q, by rw [hranges]; simp [hq],
      hle.trans hr.le, lt_of_not_ge hpast⟩
    have hbefore : ∀ q ∈ before, start q ≤ stop r := by
      intro q' hq'
      rw [hranges] at hsorted
      exact ((List.pairwise_append.mp hsorted).2.2 q' hq' r (by simp)).trans hr.le
    have hlast : lastStarted start ranges (stop r) = some r := by
      rw [hranges]
      refine lastStarted_eq_of_split hbefore hr.le fun s hs => ?_
      exact lt_of_not_ge fun hnext => hgap ⟨s, hs, hnext⟩
    unfold lookup at hfound
    rw [hlast] at hfound
    simp at hfound
  · intro hcovered a
    refine ⟨?_, ?_⟩
    · intro hfound
      obtain ⟨r, hr⟩ := Option.isSome_iff_exists.mp hfound
      obtain ⟨hmem, hcontains⟩ := contains_of_lookup hsorted hr
      exact ⟨r, hmem, hcontains⟩
    · intro ⟨q, hq, hstart, hstop⟩
      exact lookup_isSome_of_covered hsorted hcovered hq hstart hstop

end MiniDebugger.Intervals
