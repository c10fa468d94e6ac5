import Mathlib.Data.List.Sort
import Mathlib.Data.Prod.Lex
import Mathlib.Tactic.Common

/-!
# One representative for each group

A list is sorted by group and, within a group, by rank; then every element whose group is that of
the element kept last is dropped. What remains has one element for each group, one of least rank.
Which of several elements of least rank remains is up to the sort: `exists_merged` says that any
preference can come true for all groups at once.
-/

namespace MiniDebugger.Representatives

variable {α γ ρ : Type} [LinearOrder γ] [LinearOrder ρ]

/-- The elements that are kept behind `kept`. -/
def uniqueAfter (same : α → α → Bool) (kept : α) : List α → List α
  | [] => []
  | x :: rest =>
    if same kept x then uniqueAfter same kept rest else x :: uniqueAfter same x rest

/-- `std::unique` -/
def unique (same : α → α → Bool) : List α → List α
  | [] => []
  | x :: rest => x :: uniqueAfter same x rest

/-- No element is to stand in front of one before it. -/
def Sorted (group : α → γ) (rank : α → ρ) (l : List α) : Prop :=
  l.Pairwise fun x y => group x < group y ∨ group x = group y ∧ rank x ≤ rank y

/-- What is left of `entries` after some sort. -/
def Merged (group : α → γ) (rank : α → ρ) (entries kept : List α) : Prop :=
  ∃ sorted, sorted.Perm entries ∧ Sorted group rank sorted ∧
    kept = unique (fun x y => group x = group y) sorted

variable {group : α → γ} {rank : α → ρ} {entries kept l : List α} {x : α}

theorem uniqueAfter_sublist (same : α → α → Bool) (x : α) (l : List α) :
    (uniqueAfter same x l).Sublist l := by
  fun_induction uniqueAfter same x l with
  | case1 => exact .slnil
  | case2 x y rest _ ih => exact ih.cons y
  | case3 x y rest _ ih => exact ih.cons_cons y

theorem unique_sublist (same : α → α → Bool) (l : List α) : (unique same l).Sublist l := by
  cases l with
  | nil => exact .slnil
  | cons x rest => exact (uniqueAfter_sublist same x rest).cons_cons x

/-- Behind a kept element follow the representatives of the later groups. -/
theorem mem_uniqueAfter (h : Sorted group rank (x :: l)) {s : α}
    (hs : s ∈ uniqueAfter (fun x y => group x = group y) x l) :
    group x < group s ∧ ∀ e ∈ l, group e = group s → rank s ≤ rank e := by
  induction l generalizing x with
  | nil => cases hs
  | cons y rest ih =>
    unfold uniqueAfter at hs
    obtain ⟨hfirst, hrest⟩ := List.pairwise_cons.mp h
    by_cases hsame : group x = group y
    · rw [if_pos (by simpa using hsame)] at hs
      obtain ⟨hlt, hleast⟩ := ih (h.sublist (.cons_cons x (.cons y (.refl rest)))) hs
      refine ⟨hlt, fun e he hgroup => ?_⟩
      obtain rfl | he := List.mem_cons.mp he
      · exact absurd (hsame.trans hgroup) hlt.ne
      · exact hleast e he hgroup
    · rw [if_neg (by simpa using hsame)] at hs
      have hxy : group x < group y := (hfirst y List.mem_cons_self).resolve_right (hsame ·.1)
      obtain rfl | hs := List.mem_cons.mp hs
      · refine ⟨hxy, fun e he hgroup => ?_⟩
        obtain rfl | he := List.mem_cons.mp he
        · exact le_rfl
        · obtain hlt | hle := List.rel_of_pairwise_cons hrest he
          · exact absurd hgroup hlt.ne'
          · exact hle.2
      · obtain ⟨hlt, hleast⟩ := ih hrest hs
        refine ⟨hxy.trans hlt, fun e he hgroup => ?_⟩
        obtain rfl | he := List.mem_cons.mp he
        · exact absurd hgroup hlt.ne
        · exact hleast e he hgroup

/-- Every group has a representative, `x` among them. -/
theorem exists_mem_uniqueAfter (x : α) {e : α} (he : e ∈ l) :
    ∃ s ∈ x :: uniqueAfter (fun x y => group x = group y) x l, group s = group e := by
  induction l generalizing x with
  | nil => cases he
  | cons y rest ih =>
    unfold uniqueAfter
    by_cases hsame : group x = group y
    · rw [if_pos (by simpa using hsame)]
      obtain rfl | he := List.mem_cons.mp he
      · exact ⟨x, List.mem_cons_self, hsame⟩
      · exact ih x he
    · rw [if_neg (by simpa using hsame)]
      obtain rfl | he := List.mem_cons.mp he
      · exact ⟨e, List.mem_cons_of_mem x List.mem_cons_self, rfl⟩
      · obtain ⟨s, hs, hgroup⟩ := ih y he
        exact ⟨s, List.mem_cons_of_mem x hs, hgroup⟩

namespace Merged

theorem mem (h : Merged group rank entries kept) {s : α} (hs : s ∈ kept) : s ∈ entries := by
  obtain ⟨sorted, hperm, _, rfl⟩ := h
  exact hperm.subset ((unique_sublist _ sorted).subset hs)

/-- A representative has the least rank of its group. -/
theorem rank_le (h : Merged group rank entries kept) {s e : α} (hs : s ∈ kept) (he : e ∈ entries)
    (hgroup : group e = group s) : rank s ≤ rank e := by
  obtain ⟨sorted, hperm, hsorted, rfl⟩ := h
  have he := hperm.symm.subset he
  cases sorted with
  | nil => cases he
  | cons x rest =>
    obtain rfl | hs := List.mem_cons.mp hs
    · obtain rfl | he := List.mem_cons.mp he
      · exact le_rfl
      · obtain hlt | hle := List.rel_of_pairwise_cons hsorted he
        · exact absurd hgroup hlt.ne'
        · exact hle.2
    · obtain ⟨hlt, hleast⟩ := mem_uniqueAfter hsorted hs
      obtain rfl | he := List.mem_cons.mp he
      · exact absurd hgroup hlt.ne
      · exact hleast e he hgroup

theorem exists_mem (h : Merged group rank entries kept) {e : α} (he : e ∈ entries) :
    ∃ s ∈ kept, group s = group e := by
  obtain ⟨sorted, hperm, _, rfl⟩ := h
  have he := hperm.symm.subset he
  cases sorted with
  | nil => cases he
  | cons x rest =>
    obtain rfl | he := List.mem_cons.mp he
    · exact ⟨e, List.mem_cons_self, rfl⟩
    · exact exists_mem_uniqueAfter x he

theorem group_le (h : Merged group rank entries kept) :
    kept.Pairwise fun s t => group s ≤ group t := by
  obtain ⟨sorted, _, hsorted, rfl⟩ := h
  refine (hsorted.sublist (unique_sublist _ sorted)).imp ?_
  intro s t hst
  exact hst.elim le_of_lt fun h => h.1.le

end Merged

/-- Sorting always succeeds. -/
theorem exists_sorted (group : α → γ) (rank : α → ρ) (entries : List α) :
    ∃ sorted, sorted.Perm entries ∧ Sorted group rank sorted := by
  refine ⟨entries.mergeSort fun x y => toLex (group x, rank x) ≤ toLex (group y, rank y),
    List.mergeSort_perm _ _, ?_⟩
  refine (List.pairwise_mergeSort ?_ ?_ entries).imp fun {x y} h => ?_
  · intro x y z hxy hyz
    exact decide_eq_true (le_trans (of_decide_eq_true hxy) (of_decide_eq_true hyz))
  · intro x y
    simpa using le_total (toLex (group x, rank x)) (toLex (group y, rank y))
  · exact Prod.Lex.toLex_le_toLex.mp (of_decide_eq_true h)

/-- Some sort prefers an element that has `bad` in every group where it can. -/
theorem exists_merged (group : α → γ) (rank : α → ρ) (bad : α → Prop) (entries : List α) :
    ∃ kept, Merged group rank entries kept ∧ ∀ s ∈ kept, ∀ e ∈ entries, group e = group s →
      rank e = rank s → bad e → bad s := by
  classical
  obtain ⟨sorted, hperm, hsorted⟩ :=
    exists_sorted group (fun x => toLex (rank x, decide (¬bad x))) entries
  refine ⟨unique (fun x y => group x = group y) sorted, ⟨sorted, hperm, ?_, rfl⟩, ?_⟩
  · refine hsorted.imp fun {x y} h => h.imp_right fun ⟨hgroup, hrank⟩ => ⟨hgroup, ?_⟩
    obtain hlt | ⟨heq, _⟩ := Prod.Lex.toLex_le_toLex.mp hrank
    · exact hlt.le
    · exact heq.le
  · intro s hs e he hgroup hrank hbad
    have hle := Merged.rank_le ⟨sorted, hperm, hsorted, rfl⟩ hs he hgroup
    obtain hlt | ⟨_, hle⟩ := Prod.Lex.toLex_le_toLex.mp hle
    · exact absurd hrank hlt.ne'
    · by_contra hgood
      simp only [hbad, hgood, not_true_eq_false, not_false_eq_true, decide_true, decide_false] at hle
      exact absurd hle (by decide)

end MiniDebugger.Representatives
