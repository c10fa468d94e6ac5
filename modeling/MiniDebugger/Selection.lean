import Mathlib.Order.Basic
import Mathlib.Data.List.Basic
import Mathlib.Order.Lattice
import Mathlib.Tactic.Common

/-!
# Choosing the highest rank in one pass

`scanBest` walks over a list, keeps the element of the highest rank so far and gives up as soon as
an element ties with it. This says exactly when giving up early is right: `Highest` and `Tied`
describe the list as a whole, `Clash` what the walk gives up on, and `scanBest_correct_iff` that the
two agree unless a tie stands before the one element that would have settled it.
-/

namespace MiniDebugger

variable {α κ : Type*} [LinearOrder κ] (rank : α → κ)

/-- The best element of a list, from a best one so far; `none` when two elements tied on the way. -/
def scanBest : Option α → List α → Option (Option α)
  | best, [] => some best
  | none, x :: xs => scanBest (some x) xs
  | some best, x :: xs =>
    if rank best < rank x then scanBest (some x) xs
    else if rank x = rank best then none
    else scanBest (some best) xs

/-- Every other element ranks below `a`. -/
def Highest (xs : List α) (a : α) : Prop := a ∈ xs ∧ ∀ x ∈ xs, x ≠ a → rank x < rank a

/-- Two elements share the highest rank. -/
def Tied (xs : List α) : Prop :=
  ∃ a ∈ xs, ∃ b ∈ xs, a ≠ b ∧ rank a = rank b ∧ ∀ x ∈ xs, rank x ≤ rank a

/-- Some element shares the highest rank before it. -/
def Clash (xs : List α) : Prop :=
  ∃ l b r, xs = l ++ b :: r ∧ ∃ a ∈ l, rank a = rank b ∧ ∀ x ∈ l, rank x ≤ rank a

variable {rank} {xs l r : List α} {a b : α}

theorem Clash.append (h : Clash rank xs) (ys : List α) : Clash rank (xs ++ ys) := by
  obtain ⟨l, b, r, rfl, htie⟩ := h
  exact ⟨l, b, r ++ ys, by simp, htie⟩

theorem not_clash_nil : ¬Clash rank ([] : List α) := by
  rintro ⟨l, b, r, h, -⟩
  simp at h

theorem not_clash_singleton : ¬Clash rank [a] := by
  rintro ⟨l, b, r, h, c, hc, -⟩
  cases l with
  | nil => cases hc
  | cons x l => simp at h

/-- An element below the next one decides nothing. -/
theorem clash_cons_of_lt (h : rank a < rank b) :
    Clash rank (a :: b :: xs) ↔ Clash rank (b :: xs) := by
  constructor
  · rintro ⟨l, c, r, hsplit, d, hd, htie, hmax⟩
    cases l with
    | nil => cases hd
    | cons y l =>
      obtain ⟨rfl, hrest⟩ := List.cons.inj hsplit
      cases l with
      | nil =>
        -- the clash would be between the two elements themselves
        obtain ⟨rfl, -⟩ := List.cons.inj hrest
        rw [List.mem_singleton.mp hd] at htie
        exact absurd htie h.ne
      | cons z l =>
        obtain ⟨rfl, htail⟩ := List.cons.inj hrest
        refine ⟨b :: l, c, r, by rw [htail]; rfl, d, ?_, htie, fun x hx => hmax x (.tail _ hx)⟩
        obtain rfl | hd := List.mem_cons.mp hd
        · exact absurd (hmax b (by simp)) h.not_ge
        · exact hd
  · rintro ⟨l, c, r, hsplit, d, hd, htie, hmax⟩
    cases l with
    | nil => cases hd
    | cons y l =>
      obtain ⟨rfl, hrest⟩ := List.cons.inj hsplit
      refine ⟨a :: b :: l, c, r, by rw [hrest]; rfl, d, .tail _ hd, htie, ?_⟩
      intro x hx
      obtain rfl | hx := List.mem_cons.mp hx
      · exact h.le.trans (hmax b (by simp))
      · exact hmax x hx

/-- Nor does one below the element before it. -/
theorem clash_cons_cons_of_lt (h : rank b < rank a) :
    Clash rank (a :: b :: xs) ↔ Clash rank (a :: xs) := by
  constructor
  · rintro ⟨l, c, r, hsplit, d, hd, htie, hmax⟩
    cases l with
    | nil => cases hd
    | cons y l =>
      obtain ⟨rfl, hrest⟩ := List.cons.inj hsplit
      cases l with
      | nil =>
        obtain ⟨rfl, -⟩ := List.cons.inj hrest
        rw [List.mem_singleton.mp hd] at htie
        exact absurd htie h.ne'
      | cons z l =>
        obtain ⟨rfl, htail⟩ := List.cons.inj hrest
        refine ⟨a :: l, c, r, by rw [htail]; rfl, d, ?_, htie, ?_⟩
        · obtain rfl | hd := List.mem_cons.mp hd
          · simp
          · obtain rfl | hd := List.mem_cons.mp hd
            · exact absurd (hmax a (by simp)) h.not_ge
            · exact .tail _ hd
        · intro x hx
          obtain rfl | hx := List.mem_cons.mp hx
          · exact hmax x (by simp)
          · exact hmax x (.tail _ (.tail _ hx))
  · rintro ⟨l, c, r, hsplit, d, hd, htie, hmax⟩
    cases l with
    | nil => cases hd
    | cons y l =>
      obtain ⟨rfl, hrest⟩ := List.cons.inj hsplit
      refine ⟨a :: b :: l, c, r, by rw [hrest]; rfl, d, ?_, htie, ?_⟩
      · obtain rfl | hd := List.mem_cons.mp hd
        · simp
        · exact .tail _ (.tail _ hd)
      · intro x hx
        obtain rfl | hx := List.mem_cons.mp hx
        · exact hmax x (by simp)
        · obtain rfl | hx := List.mem_cons.mp hx
          · exact h.le.trans (hmax a (by simp))
          · exact hmax x (.tail _ hx)

/-- The walk gives up exactly on a clash. -/
theorem scanBest_some_eq_none_iff : scanBest rank (some a) xs = none ↔ Clash rank (a :: xs) := by
  induction xs generalizing a with
  | nil => exact ⟨nofun, fun h => (not_clash_singleton h).elim⟩
  | cons b xs ih =>
    unfold scanBest
    obtain hlt | heq | hgt := lt_trichotomy (rank a) (rank b)
    · rw [if_pos hlt, ih, clash_cons_of_lt hlt]
    · rw [if_neg heq.not_lt, if_pos heq.symm]
      exact ⟨fun _ => ⟨[a], b, xs, rfl, a, by simp, heq, by simp⟩, fun _ => rfl⟩
    · rw [if_neg hgt.not_gt, if_neg hgt.ne, ih, clash_cons_cons_of_lt hgt]

theorem scanBest_eq_none_iff : scanBest rank none xs = none ↔ Clash rank xs := by
  cases xs with
  | nil => exact ⟨nofun, fun h => (not_clash_nil h).elim⟩
  | cons a xs => exact scanBest_some_eq_none_iff

theorem scanBest_some_mem {best : Option α} (h : scanBest rank (some a) xs = some best) :
    ∃ b ∈ a :: xs, best = some b ∧ ∀ x ∈ a :: xs, rank x ≤ rank b := by
  induction xs generalizing a with
  | nil =>
    cases h
    exact ⟨a, by simp, rfl, by simp⟩
  | cons b xs ih =>
    unfold scanBest at h
    obtain hlt | heq | hgt := lt_trichotomy (rank a) (rank b)
    · rw [if_pos hlt] at h
      obtain ⟨c, hc, rfl, hmax⟩ := ih h
      refine ⟨c, .tail _ hc, rfl, ?_⟩
      intro x hx
      obtain rfl | hx := List.mem_cons.mp hx
      · exact hlt.le.trans (hmax b (by simp))
      · exact hmax x hx
    · rw [if_neg heq.not_lt, if_pos heq.symm] at h
      cases h
    · rw [if_neg hgt.not_gt, if_neg hgt.ne] at h
      obtain ⟨c, hc, rfl, hmax⟩ := ih h
      refine ⟨c, ?_, rfl, ?_⟩
      · obtain rfl | hc := List.mem_cons.mp hc
        · simp
        · exact .tail _ (.tail _ hc)
      · intro x hx
        obtain rfl | hx := List.mem_cons.mp hx
        · exact hmax x (by simp)
        · obtain rfl | hx := List.mem_cons.mp hx
          · exact hgt.le.trans (hmax a (by simp))
          · exact hmax x (.tail _ hx)

/-- Where the walk gets through, it found nothing in nothing and else the highest rank. -/
theorem scanBest_cases {best : Option α} (h : scanBest rank none xs = some best) :
    xs = [] ∧ best = none ∨ ∃ b ∈ xs, best = some b ∧ ∀ x ∈ xs, rank x ≤ rank b := by
  cases xs with
  | nil =>
    cases h
    exact .inl ⟨rfl, rfl⟩
  | cons a xs => exact .inr (scanBest_some_mem h)

/-- The walk can be interrupted. -/
theorem scanBest_append (best : Option α) (xs ys : List α) :
    scanBest rank best (xs ++ ys) = (scanBest rank best xs).bind (scanBest rank · ys) := by
  induction xs generalizing best with
  | nil => rfl
  | cons x xs ih =>
    cases best with
    | none => exact ih (some x)
    | some b =>
      rw [List.cons_append, scanBest, scanBest]
      split
      · exact ih (some x)
      · split
        · rfl
        · exact ih (some b)

/-- Of two elements that share the highest rank the second one clashes. -/
theorem clash_of_tied (h : Tied rank xs) : Clash rank xs := by
  obtain ⟨a, ha, b, hb, hne, htie, hmax⟩ := h
  obtain ⟨l, r, rfl⟩ := List.append_of_mem ha
  have hb : b ∈ l ∨ b ∈ r := by
    obtain h | h := List.mem_append.mp hb
    · exact .inl h
    · exact .inr ((List.mem_cons.mp h).resolve_left hne.symm)
  obtain hb | hb := hb
  · exact ⟨l, a, r, rfl, b, hb, htie.symm, fun x hx => (hmax x (by simp [hx])).trans_eq htie⟩
  · obtain ⟨l', r', rfl⟩ := List.append_of_mem hb
    refine ⟨l ++ a :: l', b, r', by simp, a, by simp, htie, fun x hx => hmax x ?_⟩
    simp only [List.mem_append, List.mem_cons] at hx ⊢
    tauto

theorem Highest.eq (h : Highest rank xs a) (h' : Highest rank xs b) : a = b := by
  by_contra hne
  exact lt_asymm (h.2 b h'.1 (Ne.symm hne)) (h'.2 a h.1 hne)

/-- A clash before the highest element is a clash of what stands before it. -/
theorem Highest.clash_left (hnodup : (l ++ a :: r).Nodup) (h : Highest rank (l ++ a :: r) a)
    (hclash : Clash rank (l ++ a :: r)) : Clash rank l := by
  obtain ⟨m, c, t, hsplit, d, hd, htie, hmax⟩ := hclash
  have hmem : ∀ x ∈ l ++ a :: r, rank x = rank a → x = a := by
    intro x hx hrank
    by_contra hne
    exact (h.2 x hx hne).ne hrank
  obtain ⟨s, hl, hr⟩ | ⟨s, hm, hr⟩ := List.append_eq_append_iff.mp hsplit
  · -- the clash comes at `a` or behind it
    cases s with
    | nil =>
      obtain ⟨rfl, -⟩ := List.cons.inj hr
      rw [List.append_nil] at hl
      have hda : d = a := hmem d (by simp [← hl, hd]) htie
      subst hda
      rw [hl] at hd
      exact absurd hd (fun hd => (List.nodup_append.mp hnodup).2.2 d hd d (by simp) rfl)
    | cons y s =>
      obtain ⟨rfl, htail⟩ := List.cons.inj hr
      have ha : a ∈ m := by simp [hl]
      have hd' : d ∈ l ++ a :: r := by rw [hsplit]; simp [hd]
      have hda : d = a := by
        by_contra hne
        exact (h.2 d hd' hne).not_ge (hmax a ha)
      subst hda
      have hc : c ∈ r := by rw [htail]; simp
      have hca : c = d := hmem c (by simp [hc]) htie.symm
      subst hca
      exact absurd hc (List.nodup_cons.mp (List.nodup_append.mp hnodup).2.1).1
  · cases s with
    | nil =>
      rw [List.append_nil] at hm
      subst hm
      obtain ⟨rfl, -⟩ := List.cons.inj hr
      have hda : d = c := hmem d (by simp [hd]) htie
      subst hda
      exact absurd hd (fun hd => (List.nodup_append.mp hnodup).2.2 d hd d (by simp) rfl)
    | cons y s =>
      obtain ⟨rfl, hr⟩ := List.cons.inj hr
      exact ⟨m, c, s, hm, d, hd, htie, hmax⟩

theorem scanBest_eq_of_highest (h : Highest rank xs a) (hclash : ¬Clash rank xs) :
    scanBest rank none xs = some (some a) := by
  cases hscan : scanBest rank none xs with
  | none => exact absurd (scanBest_eq_none_iff.mp hscan) hclash
  | some best =>
    obtain ⟨rfl, -⟩ | ⟨b, hb, rfl, hmax⟩ := scanBest_cases hscan
    · cases h.1
    · have hba : b = a := by
        by_contra hne
        exact (h.2 b hb hne).not_ge (hmax a h.1)
      rw [hba]

theorem highest_of_scanBest (h : scanBest rank none xs = some (some a)) : Highest rank xs a := by
  obtain ⟨-, hnone⟩ | ⟨b, hb, hbest, hmax⟩ := scanBest_cases h
  · cases hnone
  · cases hbest
    refine ⟨hb, fun x hx hne => (hmax x hx).lt_of_ne fun hrank => ?_⟩
    -- a second element of this rank would have clashed
    have hclash : Clash rank xs :=
      clash_of_tied ⟨x, hx, a, hb, hne, hrank, fun y hy => (hmax y hy).trans_eq hrank.symm⟩
    rw [scanBest_eq_none_iff.mpr hclash] at h
    cases h

theorem highest_or_tied (h : xs ≠ []) : (∃ a, Highest rank xs a) ∨ Tied rank xs := by
  obtain ⟨m, hm, hmax⟩ : ∃ m ∈ xs, ∀ x ∈ xs, rank x ≤ rank m := by
    induction xs with
    | nil => exact absurd rfl h
    | cons x xs ih =>
      by_cases hxs : xs = []
      · exact ⟨x, by simp, by simp [hxs]⟩
      · obtain ⟨m, hm, hmax⟩ := ih hxs
        obtain hle | hlt := le_or_gt (rank x) (rank m)
        · refine ⟨m, .tail _ hm, fun y hy => ?_⟩
          obtain rfl | hy := List.mem_cons.mp hy
          · exact hle
          · exact hmax y hy
        · refine ⟨x, by simp, fun y hy => ?_⟩
          obtain rfl | hy := List.mem_cons.mp hy
          · exact le_refl _
          · exact (hmax y hy).trans hlt.le
  by_cases hunique : ∀ x ∈ xs, x ≠ m → rank x < rank m
  · exact .inl ⟨m, hm, hunique⟩
  · push Not at hunique
    obtain ⟨x, hx, hne, hle⟩ := hunique
    exact .inr ⟨m, hm, x, hx, hne.symm, le_antisymm hle (hmax x hx), hmax⟩

/-- The walk is right about a list, the highest element and the tie for the highest rank, exactly
when no clash stands before a highest element. -/
theorem scanBest_correct_iff (hnodup : xs.Nodup) :
    ((∀ a, scanBest rank none xs = some (some a) ↔ Highest rank xs a) ∧
      (scanBest rank none xs = none ↔ Tied rank xs)) ↔
    ∀ a l r, Highest rank xs a → xs = l ++ a :: r → ¬Clash rank l := by
  constructor
  · rintro ⟨hbest, -⟩ a l r hhighest rfl hclash
    have hnone := scanBest_eq_none_iff.mpr (hclash.append (a :: r))
    rw [(hbest a).mpr hhighest] at hnone
    cases hnone
  · intro hearly
    have hsettled : ∀ a, Highest rank xs a → ¬Clash rank xs := by
      intro a ha hclash
      obtain ⟨l, r, rfl⟩ := List.append_of_mem ha.1
      exact hearly a l r ha rfl (ha.clash_left hnodup hclash)
    refine ⟨fun a => ⟨highest_of_scanBest, fun h => ?_⟩, fun h => ?_, fun h => ?_⟩
    · exact scanBest_eq_of_highest h (hsettled a h)
    · have hclash := scanBest_eq_none_iff.mp h
      have hne : xs ≠ [] := by
        rintro rfl
        exact not_clash_nil hclash
      have hcases : (∃ a, Highest rank xs a) ∨ Tied rank xs := highest_or_tied hne
      obtain ⟨a, ha⟩ | htied := hcases
      · exact absurd hclash (hsettled a ha)
      · exact htied
    · exact scanBest_eq_none_iff.mpr (clash_of_tied h)

/-! ## Ordered lists -/

section Ordered

variable {α κ : Type*} [LinearOrder α] [LinearOrder κ] {rank : α → κ} {xs l r : List α} {a x : α}

theorem mem_left_iff (hsorted : (l ++ a :: r).Pairwise (· < ·)) :
    x ∈ l ↔ x ∈ l ++ a :: r ∧ x < a := by
  obtain ⟨-, hright, hbetween⟩ := List.pairwise_append.mp hsorted
  constructor
  · intro hx
    exact ⟨by simp [hx], hbetween x hx a (by simp)⟩
  · rintro ⟨hx, hlt⟩
    obtain hx | hx := List.mem_append.mp hx
    · exact hx
    · obtain rfl | hx := List.mem_cons.mp hx
      · exact absurd hlt (lt_irrefl x)
      · exact absurd hlt (List.rel_of_pairwise_cons hright hx).not_gt

/-- Two elements tie for the highest rank so far, the second before `a`. -/
def TiesBefore (rank : α → κ) (xs : List α) (a : α) : Prop :=
  ∃ c ∈ xs, ∃ b ∈ xs, c < b ∧ b < a ∧ rank c = rank b ∧ ∀ x ∈ xs, x < b → rank x ≤ rank b

/-- In an ordered list the positions are the elements themselves. -/
theorem clash_iff_of_sorted (hsorted : xs.Pairwise (· < ·)) :
    Clash rank xs ↔
      ∃ c ∈ xs, ∃ b ∈ xs, c < b ∧ rank c = rank b ∧ ∀ x ∈ xs, x < b → rank x ≤ rank b := by
  constructor
  · rintro ⟨m, b, t, rfl, c, hc, htie, hmax⟩
    obtain ⟨hcmem, hcb⟩ := (mem_left_iff hsorted).mp hc
    exact ⟨c, hcmem, b, by simp, hcb, htie, fun x hx hxb =>
      htie ▸ hmax x ((mem_left_iff hsorted).mpr ⟨hx, hxb⟩)⟩
  · rintro ⟨c, hc, b, hb, hcb, htie, hmax⟩
    obtain ⟨m, t, rfl⟩ := List.append_of_mem hb
    refine ⟨m, b, t, rfl, c, (mem_left_iff hsorted).mpr ⟨hc, hcb⟩, htie, fun x hx => ?_⟩
    obtain ⟨hx, hxb⟩ := (mem_left_iff hsorted).mp hx
    exact (hmax x hx hxb).trans_eq htie.symm

theorem clash_left_iff (hsorted : (l ++ a :: r).Pairwise (· < ·)) :
    Clash rank l ↔ TiesBefore rank (l ++ a :: r) a := by
  rw [clash_iff_of_sorted (List.pairwise_append.mp hsorted).1]
  constructor
  · rintro ⟨c, hc, b, hb, hcb, htie, hmax⟩
    obtain ⟨hb, hba⟩ := (mem_left_iff hsorted).mp hb
    exact ⟨c, ((mem_left_iff hsorted).mp hc).1, b, hb, hcb, hba, htie, fun x hx hxb =>
      hmax x ((mem_left_iff hsorted).mpr ⟨hx, hxb.trans hba⟩) hxb⟩
  · rintro ⟨c, hc, b, hb, hcb, hba, htie, hmax⟩
    exact ⟨c, (mem_left_iff hsorted).mpr ⟨hc, hcb.trans hba⟩, b,
      (mem_left_iff hsorted).mpr ⟨hb, hba⟩, hcb, htie, fun x hx =>
      hmax x ((mem_left_iff hsorted).mp hx).1⟩

theorem scanBest_correct_iff_of_sorted (hsorted : xs.Pairwise (· < ·)) :
    ((∀ a, scanBest rank none xs = some (some a) ↔ Highest rank xs a) ∧
      (scanBest rank none xs = none ↔ Tied rank xs)) ↔
    ∀ a, Highest rank xs a → ¬TiesBefore rank xs a := by
  rw [scanBest_correct_iff (hsorted.imp fun h => h.ne)]
  constructor
  · intro h a ha hties
    obtain ⟨l, r, rfl⟩ := List.append_of_mem ha.1
    exact h a l r ha rfl ((clash_left_iff hsorted).mpr hties)
  · rintro h a l r ha rfl hclash
    exact h a ha ((clash_left_iff hsorted).mp hclash)

/-- The scan ends at the highest element when no tie comes before it. -/
theorem scanBest_eq_some_iff_of_sorted (hsorted : xs.Pairwise (· < ·)) :
    scanBest rank none xs = some (some a) ↔ Highest rank xs a ∧ ¬TiesBefore rank xs a := by
  constructor
  · intro hscan
    have ha := highest_of_scanBest hscan
    refine ⟨ha, fun hties => ?_⟩
    obtain ⟨l, r, rfl⟩ := List.append_of_mem ha.1
    have hclash := ((clash_left_iff hsorted).mpr hties).append (a :: r)
    rw [scanBest_eq_none_iff.mpr hclash] at hscan
    cases hscan
  · rintro ⟨ha, hties⟩
    refine scanBest_eq_of_highest ha fun hclash => hties ?_
    obtain ⟨l, r, rfl⟩ := List.append_of_mem ha.1
    exact (clash_left_iff hsorted).mp (ha.clash_left (hsorted.imp fun h => h.ne) hclash)

end Ordered

end MiniDebugger
