import MiniDebugger.Dwarf.LocalLookup
import MiniDebugger.Selection

/-!
# Scopes of local values

What an entry has to do with an address, said without the loops of the source: `Covers` is the
range of one entry, `ActiveChain` the chain of scopes up to the subprogram and `Candidate` an entry
of a name that is visible at the address.
-/

namespace MiniDebugger

/-- The first address of an entry and the one behind its last, as numbers. -/
def Die.range (die : Die) : Option (Nat × Nat) :=
  match die.attribute kDwAtLowPc, die.attribute kDwAtHighPc with
  | some low, some high =>
    if low.form = kDwFormAddr then
      some (low.number.toNat,
        if high.form = kDwFormAddr then high.number.toNat
        else low.number.toNat + high.number.toNat)
    else none
  | _, _ => none

/-- The entry carries a range inside the address space. -/
def Die.Ranged (die : Die) : Prop := ∃ first last, die.range = some (first, last) ∧ last < 2 ^ 64

/-- The range of the entry covers the address. -/
def Die.Covers (die : Die) (pc : Word) : Prop :=
  ∃ first last, die.range = some (first, last) ∧ first ≤ pc.toNat ∧ pc.toNat < last

section Range

variable {die : Die}

theorem Die.Ranged.hasRange (h : die.Ranged) : die.hasRange = true := by
  obtain ⟨first, last, hrange, -⟩ := h
  unfold Die.range at hrange
  unfold Die.hasRange
  split at hrange
  · split at hrange
    · simp_all
    · cases hrange
  · cases hrange

/-- The range test of the source, where the entry has a range. -/
theorem Die.Ranged.containsPc (h : die.Ranged) (pc : Word) :
    ∃ inside, die.containsPc pc = .ok inside ∧ (inside = true ↔ die.Covers pc) := by
  obtain ⟨first, last, hrange, hlast⟩ := h
  have hcovers : die.Covers pc ↔ first ≤ pc.toNat ∧ pc.toNat < last := by
    constructor
    · rintro ⟨first', last', hrange', h⟩
      rw [hrange] at hrange'
      cases hrange'
      exact h
    · exact fun h => ⟨first, last, hrange, h⟩
  rw [hcovers]
  unfold Die.range at hrange
  split at hrange
  case h_2 => cases hrange
  case h_1 low high hlow hhigh =>
    split at hrange
    case isFalse => cases hrange
    case isTrue hform =>
      cases hrange
      unfold Die.containsPc
      rw [hlow, hhigh]
      dsimp only
      rw [if_neg (not_not.mpr hform)]
      by_cases hhform : high.form = kDwFormAddr
      · rw [if_pos hhform, if_pos hhform]
        exact ⟨_, rfl, by simp [BitVec.le_def, BitVec.lt_def]⟩
      · -- the high address is an offset from the low one
        rw [if_neg hhform] at hlast
        have hadd : addUnsigned low.number high.number "DWARF high_pc" =
            .ok (low.number + high.number) := by
          unfold addUnsigned
          rw [if_neg (by omega)]
          rfl
        rw [if_neg hhform, if_neg hhform, hadd]
        refine ⟨_, rfl, ?_⟩
        have hsum : (low.number + high.number).toNat = low.number.toNat + high.number.toNat := by
          rw [BitVec.toNat_add, Nat.mod_eq_of_lt hlast]
        simp only [Bool.and_eq_true, decide_eq_true_eq, BitVec.le_def, BitVec.lt_def, hsum]

end Range

namespace DieUnit

variable (u : DieUnit)

/-- The scopes from this one up to the subprogram are active at the address; there are `depth`. -/
inductive ActiveChain (subprogram : u.Index) (pc : Word) : u.Index → Nat → Prop
  | subprogram : ActiveChain subprogram pc subprogram 0
  | scope {i p : u.Index} {depth : Nat} (hne : i ≠ subprogram) (hscope : (u.die i).isScope = true)
      (hcovers : (u.die i).Covers pc) (hparent : u.parent i = some p)
      (hchain : ActiveChain subprogram pc p depth) : ActiveChain subprogram pc i (depth + 1)

/-- The value stands in an active chain of `depth` scopes. -/
def Visible (subprogram : u.Index) (pc : Word) (i : u.Index) (depth : Nat) : Prop :=
  ∃ p, u.parent i = some p ∧ u.ActiveChain subprogram pc p depth

/-- `j` is an ancestor of `i`. -/
def Encloses (j i : u.Index) : Prop :=
  Relation.TransGen (fun child parent => u.parent child = some parent) i j

/-- Every scope around the value carries a low and a high address. -/
def RangedAround (i : u.Index) : Prop :=
  ∀ j, u.Encloses j i → (u.die j).isScope = true → (u.die j).Ranged

variable {u} {subprogram : u.Index} {pc : Word} {i p : u.Index}

/-- A chain that starts below the subprogram starts with an active scope. -/
theorem ActiveChain.inv {depth : Nat} (h : u.ActiveChain subprogram pc i depth)
    (hne : i ≠ subprogram) :
    (u.die i).isScope = true ∧ (u.die i).Covers pc ∧ ∃ p e, u.parent i = some p ∧
      depth = e + 1 ∧ u.ActiveChain subprogram pc p e := by
  cases h with
  | subprogram => exact absurd rfl hne
  | scope _ hscope hcovers hparent hchain => exact ⟨hscope, hcovers, _, _, hparent, rfl, hchain⟩

/-- A range test that gets through says whether the range covers the address. -/
theorem covers_of_containsPc {die : Die} {inside : Bool} (hrange : die.hasRange = true)
    (h : die.containsPc pc = .ok inside) : inside = true ↔ die.Covers pc := by
  have hranged : die.Ranged := by
    unfold Die.hasRange at hrange
    split at hrange
    case h_2 => cases hrange
    case h_1 low high hlow hhigh =>
      have hform : low.form = kDwFormAddr := of_decide_eq_true hrange
      unfold Die.containsPc at h
      unfold Die.Ranged Die.range
      rw [hlow, hhigh] at h ⊢
      dsimp only at h ⊢
      rw [if_neg (not_not.mpr hform)] at h
      rw [if_pos hform]
      by_cases hhform : high.form = kDwFormAddr
      · rw [if_pos hhform]
        exact ⟨_, _, rfl, high.number.isLt⟩
      · rw [if_neg hhform] at h ⊢
        refine ⟨_, _, rfl, ?_⟩
        unfold addUnsigned at h
        by_contra hover
        rw [if_pos (by omega)] at h
        cases h
  obtain ⟨inside', hcontains, hcovers⟩ := hranged.containsPc pc
  rw [h] at hcontains
  cases hcontains
  exact hcovers

/-- A walk towards the subprogram that gets through counts the scopes of the chain. -/
theorem activeScopeDepthFrom_of_ok {base : Nat} {result : Option Nat}
    (h : u.activeScopeDepthFrom subprogram pc i base = .ok result) :
    ∀ d, result = some d ↔ ∃ depth, d = base + depth ∧ u.ActiveChain subprogram pc i depth := by
  induction hroom : i.val using Nat.strongRecOn generalizing i base with
  | ind room ih =>
    subst hroom
    rw [activeScopeDepthFrom] at h
    by_cases hsub : i = subprogram
    · rw [if_pos hsub] at h
      cases h
      subst hsub
      refine fun d => ⟨fun h => ?_, ?_⟩
      · cases h
        exact ⟨0, rfl, .subprogram⟩
      · rintro ⟨depth, rfl, hchain⟩
        cases hchain with
        | subprogram => rfl
        | scope hne _ _ _ _ => exact absurd rfl hne
    · rw [if_neg hsub] at h
      cases hisScope : (u.die i).isScope with
      | false =>
        rw [hisScope] at h
        cases h
        refine fun d => ⟨nofun, ?_⟩
        rintro ⟨depth, -, hchain⟩
        rw [(hchain.inv hsub).1] at hisScope
        cases hisScope
      | true =>
        have hscope : ¬(!true) = true := by simp
        rw [hisScope, if_neg hscope] at h
        cases hrange : (u.die i).hasRange with
        | false =>
          rw [hrange] at h
          cases h
        | true =>
          rw [hrange, if_neg hscope] at h
          cases hcontains : (u.die i).containsPc pc with
          | error e =>
            rw [hcontains] at h
            cases h
          | ok inside =>
            have hcovers := covers_of_containsPc hrange hcontains
            rw [hcontains] at h
            dsimp only [Bind.bind, Except.bind] at h
            cases inside with
            | false =>
              cases h
              refine fun d => ⟨nofun, ?_⟩
              rintro ⟨depth, -, hchain⟩
              exact absurd (hcovers.mpr (hchain.inv hsub).2.1) (by simp)
            | true =>
              rw [if_neg hscope] at h
              split at h
              case h_1 hparent =>
                cases h
                refine fun d => ⟨nofun, ?_⟩
                rintro ⟨depth, -, hchain⟩
                obtain ⟨-, -, p, e, hsome, -⟩ := hchain.inv hsub
                rw [hparent] at hsome
                cases hsome
              case h_2 p hparent =>
                have hdepth := ih p (parent_lt hparent) h rfl
                refine fun d => ⟨fun hd => ?_, ?_⟩
                · obtain ⟨depth, rfl, hchain⟩ := (hdepth d).mp hd
                  exact ⟨depth + 1, by omega, .scope hsub hisScope (hcovers.mp rfl) hparent hchain⟩
                · rintro ⟨depth, rfl, hchain⟩
                  obtain ⟨-, -, q, e, hq, rfl, hchain⟩ := hchain.inv hsub
                  rw [hparent] at hq
                  cases hq
                  exact (hdepth _).mpr ⟨e, by omega, hchain⟩

/-- `active_scope_depth` is the depth of a visible value. -/
theorem activeScopeDepth_of_ok {result : Option Nat}
    (h : u.activeScopeDepth i subprogram pc = .ok result) (depth : Nat) :
    result = some depth ↔ u.Visible subprogram pc i depth := by
  unfold activeScopeDepth at h
  unfold Visible
  cases hparent : u.parent i with
  | none =>
    rw [hparent] at h
    cases h
    simp
  | some p =>
    rw [hparent] at h
    rw [activeScopeDepthFrom_of_ok h]
    simp

/-- The walk gets through where the scopes have ranges. -/
theorem activeScopeDepthFrom_of_ranged (subprogram : u.Index) (pc : Word)
    (hscope : (u.die i).isScope = true → (u.die i).Ranged) (hranged : u.RangedAround i)
    (base : Nat) : ∃ result, u.activeScopeDepthFrom subprogram pc i base = .ok result := by
  -- by induction on the index, which falls towards the root
  induction hroom : i.val using Nat.strongRecOn generalizing i base with
  | ind room ih =>
    subst hroom
    rw [activeScopeDepthFrom]
    by_cases hsub : i = subprogram
    · rw [if_pos hsub]
      exact ⟨_, rfl⟩
    · rw [if_neg hsub]
      cases hisScope : (u.die i).isScope with
      | false => exact ⟨none, rfl⟩
      | true =>
        have hthis := hscope hisScope
        obtain ⟨inside, hcontains, -⟩ := hthis.containsPc pc
        rw [hthis.hasRange, hcontains]
        cases inside with
        | false => exact ⟨none, rfl⟩
        | true =>
          rw [if_neg (by simp), if_neg (by simp)]
          dsimp only [Bind.bind, Except.bind]
          rw [if_neg (by simp)]
          split
          case h_1 => exact ⟨none, rfl⟩
          case h_2 p hparent =>
            have hencl : u.Encloses p i := .single hparent
            exact ih p (parent_lt hparent) (hranged p hencl)
              (fun j hj => hranged j (.trans hencl hj)) (base + 1) rfl

theorem activeScopeDepth_of_ranged (subprogram : u.Index) (pc : Word)
    (hranged : u.RangedAround i) : ∃ result, u.activeScopeDepth i subprogram pc = .ok result := by
  unfold activeScopeDepth
  cases hparent : u.parent i with
  | none => exact ⟨none, rfl⟩
  | some p =>
    have hencl : u.Encloses p i := .single hparent
    exact activeScopeDepthFrom_of_ranged subprogram pc (hranged p hencl)
      (fun j hj => hranged j (.trans hencl hj)) 0

/-! ## Candidates of a name -/

variable (u) in
/-- The entry has this name, its own or that of the entry it is an instance of. -/
def Named (i : u.Index) (name : String) : Prop :=
  ∃ value, u.attributeWithAbstractOrigin i kDwAtName = .ok (some value) ∧ value.text = name

variable (u) in
/-- A value of that name among those to keep is visible at this depth. -/
def Candidate (keep : u.Index → Bool) (subprogram : u.Index) (pc : Word) (name : String)
    (i : u.Index) (depth : Nat) : Prop :=
  (u.die i).isValue = true ∧ keep i = true ∧ u.Named i name ∧ u.Visible subprogram pc i depth

variable (u) in
/-- Every other candidate is less deep. -/
def Deepest (keep : u.Index → Bool) (subprogram : u.Index) (pc : Word) (name : String)
    (i : u.Index) : Prop :=
  ∃ depth, u.Candidate keep subprogram pc name i depth ∧
    ∀ j e, u.Candidate keep subprogram pc name j e → j ≠ i → e < depth

variable (u) in
/-- Two candidates share the largest depth. -/
def Ambiguous (keep : u.Index → Bool) (subprogram : u.Index) (pc : Word) (name : String) : Prop :=
  ∃ i j depth, i ≠ j ∧ u.Candidate keep subprogram pc name i depth ∧
    u.Candidate keep subprogram pc name j depth ∧
    ∀ k e, u.Candidate keep subprogram pc name k e → e ≤ depth

variable (u) in
/-- Two candidates before the deepest one share a depth that none before the second exceeds. -/
def EarlyTie (keep : u.Index → Bool) (subprogram : u.Index) (pc : Word) (name : String) : Prop :=
  ∃ i, u.Deepest keep subprogram pc name i ∧ ∃ j k depth, j < k ∧ k < i ∧
    u.Candidate keep subprogram pc name j depth ∧ u.Candidate keep subprogram pc name k depth ∧
    ∀ m e, m < k → u.Candidate keep subprogram pc name m e → e ≤ depth

variable (u) in
/-- The depth of a candidate, computed. -/
def candidateDepth (keep : u.Index → Bool) (subprogram : u.Index) (pc : Word) (name : String)
    (i : u.Index) : Option Nat :=
  if (u.die i).isValue && keep i then
    match u.attributeWithAbstractOrigin i kDwAtName with
    | .ok (some value) =>
      if value.text = name then (u.activeScopeDepth i subprogram pc).toOption.join else none
    | _ => none
  else none

theorem candidateDepth_eq_some_iff {keep : u.Index → Bool} {name : String} {depth : Nat}
    (hread : (u.die i).isValue = true → keep i = true → u.Named i name →
      ∃ depth, u.activeScopeDepth i subprogram pc = .ok depth) :
    u.candidateDepth keep subprogram pc name i = some depth ↔
      u.Candidate keep subprogram pc name i depth := by
  unfold candidateDepth Candidate Named
  split
  case isFalse hkeep =>
    simp only [Bool.and_eq_true] at hkeep
    exact ⟨nofun, fun h => absurd ⟨h.1, h.2.1⟩ hkeep⟩
  case isTrue hkeep =>
    rw [Bool.and_eq_true] at hkeep
    split
    case h_2 hname =>
      refine ⟨nofun, ?_⟩
      rintro ⟨-, -, ⟨value, hvalue, -⟩, -⟩
      exact absurd hvalue (hname value)
    case h_1 value hname =>
      split
      case isFalse htext =>
        refine ⟨nofun, ?_⟩
        rintro ⟨-, -, ⟨value', hvalue, htext'⟩, -⟩
        rw [hname] at hvalue
        cases hvalue
        exact absurd htext' htext
      case isTrue htext =>
        have hnamed : u.Named i name := ⟨value, hname, htext⟩
        obtain ⟨result, hresult⟩ := hread hkeep.1 hkeep.2 hnamed
        rw [hresult, ← activeScopeDepth_of_ok hresult]
        exact ⟨fun h => ⟨hkeep.1, hkeep.2, hnamed, h⟩, fun h => h.2.2.2⟩

theorem Candidate.of_depth {keep : u.Index → Bool} {name : String} {depth : Nat}
    (h : u.candidateDepth keep subprogram pc name i = some depth) :
    u.Candidate keep subprogram pc name i depth := by
  refine (candidateDepth_eq_some_iff fun hvalue hkeep hnamed => ?_).mp h
  obtain ⟨value, hname, htext⟩ := hnamed
  unfold candidateDepth at h
  rw [hvalue, hkeep, hname] at h
  cases hread : u.activeScopeDepth i subprogram pc with
  | ok result => exact ⟨result, rfl⟩
  | error e =>
    rw [hread] at h
    simp [Except.toOption] at h

end DieUnit

end MiniDebugger
