import MiniDebugger.Dwarf.Locations
import MiniDebugger.Dwarf.Resolution

/-!
# Caller frames in a live process and in a core

The address of a caller frame is a return address, which belongs to the instruction behind the call.
A core is inspected at the address before it, a live process at the return address itself. Both
select the same entry and the same location exactly when no scope around the entry ends at the
return address and none that starts there gets in the way.
-/

namespace MiniDebugger

open Std (ExtTreeMap)

/-! ## Ranges that meet at an address -/

/-- The range of the entry ends at the address. -/
def Die.EndsAt (die : Die) (pc : Word) : Prop := ∃ first, die.range = some (first, pc.toNat)

/-- The range of the entry starts at the address. -/
def Die.StartsAt (die : Die) (pc : Word) : Prop := ∃ last, die.range = some (pc.toNat, last)

section Range

variable {die : Die} {pc : Word}

end Range

namespace DieUnit

variable {u : DieUnit} {s s' i j p : u.Index} {pc pc' : Word} {name : String} {depth : Nat}
  {keep : u.Index → Bool}

theorem Encloses.lt (h : u.Encloses j i) : j < i := by
  induction h with
  | single hparent => exact parent_lt hparent
  | tail _ hparent ih => exact (parent_lt hparent).trans ih

variable (u) in
/-- A scope between the subprogram and the entry. -/
def Between (s i j : u.Index) : Prop := u.Encloses j i ∧ u.Encloses s j

/-- What encloses an entry is its parent or encloses that. -/
theorem encloses_cases (h : u.Encloses j i) (hparent : u.parent i = some p) :
    j = p ∨ u.Encloses j p := by
  obtain ⟨q, hq, hrest⟩ := Relation.TransGen.head'_iff.mp h
  rw [hparent] at hq
  cases hq
  exact Relation.reflTransGen_iff_eq_or_transGen.mp hrest

/-- An active chain covers the address with every scope below the subprogram. -/
theorem ActiveChain.covers (h : u.ActiveChain s pc i depth) (hj : j = i ∨ u.Encloses j i)
    (hs : u.Encloses s j) : (u.die j).Covers pc := by
  induction h with
  | subprogram =>
    obtain rfl | hj := hj
    · exact absurd hs.lt (lt_irrefl _)
    · exact absurd (hs.lt.trans hj.lt) (lt_irrefl _)
  | scope hne hscope hcovers hparent hchain ih =>
    obtain rfl | hj := hj
    · exact hcovers
    · exact ih (encloses_cases hj hparent)

theorem ActiveChain.encloses (h : u.ActiveChain s pc i depth) : i = s ∨ u.Encloses s i := by
  induction h with
  | subprogram => exact .inl rfl
  | scope hne hscope hcovers hparent hchain ih =>
    obtain rfl | ih := ih
    · exact .inr (.single hparent)
    · exact .inr (.head hparent ih)

/-- A chain is active at every address that its scopes cover. -/
theorem ActiveChain.at (h : u.ActiveChain s pc i depth)
    (hcovers : ∀ j, (j = i ∨ u.Encloses j i) → u.Encloses s j → (u.die j).Covers pc') :
    u.ActiveChain s pc' i depth := by
  induction h with
  | subprogram => exact .subprogram
  | scope hne hscope hcovered hparent hchain ih =>
    have hs := (ActiveChain.scope hne hscope hcovered hparent hchain).encloses.resolve_left hne
    refine .scope hne hscope (hcovers _ (.inl rfl) hs) hparent (ih fun j hj => hcovers j (.inr ?_))
    obtain rfl | hj := hj
    · exact .single hparent
    · exact .head hparent hj

theorem Visible.covers (h : u.Visible s pc i depth) (hj : u.Between s i j) :
    (u.die j).Covers pc := by
  obtain ⟨p, hparent, hchain⟩ := h
  exact hchain.covers (encloses_cases hj.1 hparent) hj.2

theorem Visible.at (h : u.Visible s pc i depth)
    (hcovers : ∀ j, u.Between s i j → (u.die j).Covers pc') : u.Visible s pc' i depth := by
  obtain ⟨p, hparent, hchain⟩ := h
  refine ⟨p, hparent, hchain.at fun j hj hs => hcovers j ⟨?_, hs⟩⟩
  obtain rfl | hj := hj
  · exact .single hparent
  · exact .head hparent hj

variable {ranges : List Byte}

theorem PhysicalSubprogram.tag (h : u.PhysicalSubprogram ranges pc (some s)) :
    (u.die s).tag = kDwTagSubprogram := by
  obtain ⟨base, -, hfind⟩ := h
  exact (search_ok hfind).2 s rfl

theorem PhysicalSubprogram.unique (h : u.PhysicalSubprogram ranges pc (some s))
    (h' : u.PhysicalSubprogram ranges pc (some s')) : s = s' := by
  obtain ⟨base, hbase, hfind⟩ := h
  obtain ⟨base', hbase', hfind'⟩ := h'
  rw [hbase] at hbase'
  cases hbase'
  rw [hfind] at hfind'
  exact Option.some.inj (Except.ok.inj hfind')

/-- The catalogue of the subprogram meets nothing to throw about: what it visits can be read, no two
values of a name tie, and the names are not too many. -/
structure Catalogued (u : DieUnit) (s : u.Index) (pc : Word) : Prop where
  quiet : ∀ j, (u.die j).isValue = true → u.crossesInlineScope j s = false →
    u.Quiet s pc (· ≠ "") j
  settled : ∀ name, name ≠ "" → ¬u.Ambiguous (u.physical s) s pc name ∧
    ¬u.EarlyTie (u.physical s) s pc name
  few : u.FewNames s pc

theorem Catalogued.depths (h : u.Catalogued s pc) (hne : name ≠ "") :
    u.DepthsRead (u.physical s) s pc name :=
  (quiet_physical_iff.mp h.quiet).2 name hne

variable (u) in
/-- The catalogue comes about and lists this entry of the subprogram for the name. -/
def CatalogueLists (ranges : List Byte) (pc : Word) (name : String) (s i : u.Index) : Prop :=
  ∃ entries, u.discoverScopedLocalCatalogueUnit ranges pc = .ok (some entries) ∧
    ⟨name, (u.die i).discoveryKind⟩ ∈ entries ∧ u.PhysicalSubprogram ranges pc (some s) ∧
    u.scanPhysical s pc name (List.finRange u.size) = some (some i)

theorem CatalogueLists.ne (h : u.CatalogueLists ranges pc name s i) : name ≠ "" := by
  obtain ⟨entries, hok, hmem, -, -⟩ := h
  obtain ⟨-, hnone⟩ | ⟨s', selected, -, hsome, hscanned, -⟩ := catalogue_of_ok hok
  · cases hnone
  · cases hsome
    exact ((hscanned.mem_listing _ _).mp hmem).1

variable {sections : LocationSections} {e : LocationEntry}

theorem containsPc_eq {die : Die} (hpc : pc ≠ 0) (hstarts : ¬die.StartsAt pc)
    (hends : ¬die.EndsAt pc) : die.containsPc pc = die.containsPc (pc - 1) := by
  have hsucc := toNat_sub_one hpc
  unfold Die.StartsAt Die.range at hstarts
  unfold Die.EndsAt Die.range at hends
  unfold Die.containsPc
  cases hlow : die.attribute kDwAtLowPc with
  | none => rfl
  | some low =>
    cases hhigh : die.attribute kDwAtHighPc with
    | none => rfl
    | some high =>
      rw [hlow, hhigh] at hstarts hends
      dsimp only at hstarts hends ⊢
      by_cases hform : low.form = kDwFormAddr
      · rw [if_pos hform] at hstarts hends
        simp only [Option.some.injEq, Prod.mk.injEq, exists_and_left, exists_eq', and_true,
          true_and, exists_and_right] at hstarts hends
        rw [if_neg (not_not.mpr hform), if_neg (not_not.mpr hform)]
        have hsame : ∀ last : Word, last.toNat ≠ pc.toNat →
            (decide (low.number ≤ pc) && decide (pc < last)) =
              (decide (low.number ≤ pc - 1) && decide (pc - 1 < last)) := by
          intro last hlast
          rw [Bool.eq_iff_iff]
          simp only [Bool.and_eq_true, decide_eq_true_eq, BitVec.le_def, BitVec.lt_def]
          omega
        by_cases hhform : high.form = kDwFormAddr
        · rw [if_pos hhform] at hends
          rw [if_pos hhform, if_pos hhform]
          dsimp only [Bind.bind, Except.bind, pure, Except.pure]
          rw [hsame high.number hends]
        · rw [if_neg hhform] at hends
          rw [if_neg hhform, if_neg hhform]
          unfold addUnsigned
          by_cases hover : 2 ^ 64 ≤ low.number.toNat + high.number.toNat
          · rw [if_pos hover]
            rfl
          · rw [if_neg hover]
            dsimp only [Bind.bind, Except.bind, pure, Except.pure]
            rw [hsame (low.number + high.number)]
            rw [BitVec.toNat_add, Nat.mod_eq_of_lt (by omega)]
            exact hends
      · rw [if_pos hform, if_pos hform]

variable (u) in
/-- No subprogram and no scope of the unit starts or ends at the address. -/
def NoBoundary (pc : Word) : Prop :=
  ∀ i, (u.die i).tag = kDwTagSubprogram ∨ (u.die i).isScope = true →
    ¬(u.die i).StartsAt pc ∧ ¬(u.die i).EndsAt pc

theorem NoBoundary.containsPc (h : u.NoBoundary pc) (hpc : pc ≠ 0)
    (hi : (u.die i).tag = kDwTagSubprogram ∨ (u.die i).isScope = true) :
    (u.die i).containsPc pc = (u.die i).containsPc (pc - 1) :=
  containsPc_eq hpc (h i hi).1 (h i hi).2

theorem NoBoundary.activeScopeDepthFrom (h : u.NoBoundary pc) (hpc : pc ≠ 0) (depth : Nat) :
    u.activeScopeDepthFrom s pc i depth = u.activeScopeDepthFrom s (pc - 1) i depth := by
  induction hroom : i.val using Nat.strongRecOn generalizing i depth with
  | ind room ih =>
    subst hroom
    rw [activeScopeDepthFrom_eq, activeScopeDepthFrom_eq]
    split
    · rfl
    · cases hscope : (u.die i).isScope with
      | false => rfl
      | true =>
        rw [h.containsPc hpc (.inr hscope)]
        cases hp : u.parent i with
        | none => rfl
        | some p =>
          dsimp only
          rw [ih p (parent_lt hp) (depth + 1) rfl]

theorem NoBoundary.activeScopeDepth (h : u.NoBoundary pc) (hpc : pc ≠ 0) (i : u.Index) :
    u.activeScopeDepth i s pc = u.activeScopeDepth i s (pc - 1) := by
  unfold DieUnit.activeScopeDepth
  cases u.parent i with
  | none => rfl
  | some p => exact h.activeScopeDepthFrom hpc 0

/-- Then lookups at both addresses end in the same way, errors included. -/
theorem NoBoundary.selectLocal (h : u.NoBoundary pc) (hpc : pc ≠ 0) (texts : LookupTexts)
    (name : String) : u.selectLocal texts pc name = u.selectLocal texts (pc - 1) name := by
  have hfind : u.findSubprogram texts pc = u.findSubprogram texts (pc - 1) := by
    unfold findSubprogram
    refine congrArg (fun step => List.foldlM step none _) (funext fun found => funext fun i => ?_)
    by_cases htag : (u.die i).tag = kDwTagSubprogram
    · rw [h.containsPc hpc (.inl htag)]
    · rw [if_pos htag, if_pos htag]
  have hstep : ∀ s, u.selectStep texts s pc name = u.selectStep texts s (pc - 1) name := by
    intro s
    funext selection i
    unfold selectStep
    rw [h.activeScopeDepth hpc i]
  unfold DieUnit.selectLocal
  rw [hfind]
  simp only [hstep]

end DieUnit

end MiniDebugger
