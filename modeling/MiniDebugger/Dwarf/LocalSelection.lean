import MiniDebugger.Dwarf.LocalScopes

/-!
# Inspection selects the deepest candidate

The selection loop is a `scanBest` over the candidates in the order of the unit, so it is right
about them except for a tie that a deeper candidate further on would have settled. It throws at a
value whose name or scopes cannot be read, wherever that value stands.
-/

namespace MiniDebugger

namespace DieUnit

variable (u : DieUnit)

/-- The candidates in the order of the unit. -/
def candidates (keep : u.Index → Bool) (subprogram : u.Index) (pc : Word) (name : String) :
    List u.Index :=
  (List.finRange u.size).filter fun i => (u.candidateDepth keep subprogram pc name i).isSome

/-- The depth of a candidate. -/
def depthOf (keep : u.Index → Bool) (subprogram : u.Index) (pc : Word) (name : String)
    (i : u.Index) : Nat :=
  (u.candidateDepth keep subprogram pc name i).getD 0

/-- Every scope around the values of that name carries a low and a high address. -/
def ScopesRanged (keep : u.Index → Bool) (name : String) : Prop :=
  ∀ i, (u.die i).isValue = true → keep i = true → u.Named i name → u.RangedAround i

/-- The names of the values to keep can be read. -/
def NamesResolve (keep : u.Index → Bool) : Prop :=
  ∀ i, (u.die i).isValue = true → keep i = true →
    ∃ value, u.attributeWithAbstractOrigin i kDwAtName = .ok value

/-- The depths of the values of that name can be read. -/
def DepthsRead (keep : u.Index → Bool) (subprogram : u.Index) (pc : Word) (name : String) : Prop :=
  ∀ i, (u.die i).isValue = true → keep i = true → u.Named i name →
    ∃ depth, u.activeScopeDepth i subprogram pc = .ok depth

variable {u} {keep : u.Index → Bool} {subprogram i : u.Index} {pc : Word} {name : String}
  {depth : Nat}

theorem ScopesRanged.depthsRead (h : u.ScopesRanged keep name) (subprogram : u.Index) (pc : Word) :
    u.DepthsRead keep subprogram pc name := by
  intro i hvalue hkeep hnamed
  exact activeScopeDepth_of_ranged subprogram pc (h i hvalue hkeep hnamed)

theorem depthOf_of_some (h : u.candidateDepth keep subprogram pc name i = some depth) :
    u.depthOf keep subprogram pc name i = depth := by
  rw [depthOf, h]
  rfl

section Candidates

variable (hdepths : u.DepthsRead keep subprogram pc name)
include hdepths

theorem mem_candidates : i ∈ u.candidates keep subprogram pc name ↔
    ∃ depth, u.Candidate keep subprogram pc name i depth := by
  unfold candidates
  rw [List.mem_filter, Option.isSome_iff_exists]
  simp only [List.mem_finRange, true_and]
  exact exists_congr fun depth => candidateDepth_eq_some_iff (hdepths i)

theorem Candidate.depthOf (h : u.Candidate keep subprogram pc name i depth) :
    u.depthOf keep subprogram pc name i = depth :=
  depthOf_of_some ((candidateDepth_eq_some_iff (hdepths i)).mpr h)

theorem candidate_of_mem (h : i ∈ u.candidates keep subprogram pc name) :
    u.Candidate keep subprogram pc name i (u.depthOf keep subprogram pc name i) := by
  obtain ⟨depth, hcandidate⟩ := (mem_candidates hdepths).mp h
  rwa [hcandidate.depthOf hdepths]

theorem highest_iff_deepest :
    Highest (u.depthOf keep subprogram pc name) (u.candidates keep subprogram pc name) i ↔
      u.Deepest keep subprogram pc name i := by
  constructor
  · rintro ⟨hi, hall⟩
    refine ⟨_, candidate_of_mem hdepths hi, fun j e hj hne => ?_⟩
    have := hall j ((mem_candidates hdepths).mpr ⟨e, hj⟩) hne
    rwa [hj.depthOf hdepths] at this
  · rintro ⟨depth, hi, hall⟩
    refine ⟨(mem_candidates hdepths).mpr ⟨depth, hi⟩, fun j hj hne => ?_⟩
    rw [hi.depthOf hdepths]
    exact hall j _ (candidate_of_mem hdepths hj) hne

theorem tied_iff_ambiguous :
    Tied (u.depthOf keep subprogram pc name) (u.candidates keep subprogram pc name) ↔
      u.Ambiguous keep subprogram pc name := by
  constructor
  · rintro ⟨i, hi, j, hj, hne, heq, hmax⟩
    refine ⟨i, j, _, hne, candidate_of_mem hdepths hi, ?_, fun k e hk => ?_⟩
    · rw [heq]
      exact candidate_of_mem hdepths hj
    · have := hmax k ((mem_candidates hdepths).mpr ⟨e, hk⟩)
      rwa [hk.depthOf hdepths] at this
  · rintro ⟨i, j, depth, hne, hi, hj, hmax⟩
    refine ⟨i, (mem_candidates hdepths).mpr ⟨depth, hi⟩, j,
      (mem_candidates hdepths).mpr ⟨depth, hj⟩, hne, ?_, fun k hk => ?_⟩
    · rw [hi.depthOf hdepths, hj.depthOf hdepths]
    · rw [hi.depthOf hdepths]
      exact hmax k _ (candidate_of_mem hdepths hk)

theorem settled_iff :
    (∀ a, Highest (u.depthOf keep subprogram pc name) (u.candidates keep subprogram pc name) a →
      ¬TiesBefore (u.depthOf keep subprogram pc name) (u.candidates keep subprogram pc name) a) ↔
      ¬u.EarlyTie keep subprogram pc name := by
  constructor
  · rintro h ⟨i, hi, j, k, depth, hjk, hki, hj, hk, hmax⟩
    refine h i ((highest_iff_deepest hdepths).mpr hi)
      ⟨j, (mem_candidates hdepths).mpr ⟨depth, hj⟩, k, (mem_candidates hdepths).mpr ⟨depth, hk⟩,
        hjk, hki, ?_, fun m hm hlt => ?_⟩
    · rw [hj.depthOf hdepths, hk.depthOf hdepths]
    · rw [hk.depthOf hdepths]
      exact hmax m _ hlt (candidate_of_mem hdepths hm)
  · rintro h i hi ⟨j, hj, k, hk, hjk, hki, heq, hmax⟩
    refine h ⟨i, (highest_iff_deepest hdepths).mp hi, j, k, _, hjk, hki,
      candidate_of_mem hdepths hj, ?_, fun m e hlt hm => ?_⟩
    · rw [heq]
      exact candidate_of_mem hdepths hk
    · have := hmax m ((mem_candidates hdepths).mpr ⟨e, hm⟩) hlt
      rw [hm.depthOf hdepths] at this
      exact heq ▸ this

omit hdepths in
theorem candidates_sorted : (u.candidates keep subprogram pc name).Pairwise (· < ·) :=
  (List.pairwise_lt_finRange u.size).filter _

/-- The scan over the candidates is right unless there is an early tie. -/
theorem scan_candidates_iff :
    ((∀ i, scanBest (u.depthOf keep subprogram pc name) none
        (u.candidates keep subprogram pc name) = some (some i) ↔
          u.Deepest keep subprogram pc name i) ∧
      (scanBest (u.depthOf keep subprogram pc name) none
        (u.candidates keep subprogram pc name) = none ↔ u.Ambiguous keep subprogram pc name)) ↔
    ¬u.EarlyTie keep subprogram pc name := by
  rw [← settled_iff hdepths, ← scanBest_correct_iff_of_sorted candidates_sorted,
    tied_iff_ambiguous hdepths]
  simp only [highest_iff_deepest hdepths]

/-- The scan gives up on a tie, be it one that a deeper candidate would have settled. -/
theorem scan_candidates_eq_none_iff :
    scanBest (u.depthOf keep subprogram pc name) none (u.candidates keep subprogram pc name) = none ↔
      u.Ambiguous keep subprogram pc name ∨ u.EarlyTie keep subprogram pc name := by
  by_cases hearly : u.EarlyTie keep subprogram pc name
  · refine iff_of_true ?_ (.inr hearly)
    obtain ⟨i, hi, -⟩ := id hearly
    have hhigh := (highest_iff_deepest hdepths).mpr hi
    cases hscan : scanBest (u.depthOf keep subprogram pc name) none
        (u.candidates keep subprogram pc name) with
    | none => rfl
    | some best =>
      obtain ⟨hnil, -⟩ | ⟨a, -, rfl, -⟩ := scanBest_cases hscan
      · rw [hnil] at hhigh
        cases hhigh.1
      · obtain ⟨ha, hties⟩ := (scanBest_eq_some_iff_of_sorted candidates_sorted).mp hscan
        exact absurd hearly ((settled_iff hdepths).mp fun b hb => ha.eq hb ▸ hties)
  · rw [((scan_candidates_iff hdepths).mpr hearly).2, or_iff_left hearly]

end Candidates

/-! ## Values that cannot be read -/

/-- The errors of reading a name or the scopes around a value. -/
def readingErrors : List Exception :=
  [.runtimeError "inlined local abstract-origin chain is too deep",
    .runtimeError "inlined local abstract origin does not use supported DW_FORM_ref4",
    .runtimeError "inlined local abstract origin references an unknown DIE",
    .runtimeError "inlined local abstract origin is self-referential",
    .runtimeError "local scope does not use the supported DW_AT_low_pc/DW_AT_high_pc range",
    .runtimeError "DWARF high_pc overflows address space"]

variable (u) in
/-- The lookup does not throw at this entry: its name can be read and, if it is wanted, so can the
depth of its scope. -/
def Quiet (subprogram : u.Index) (pc : Word) (wanted : String → Prop) (i : u.Index) : Prop :=
  ∃ value, u.attributeWithAbstractOrigin i kDwAtName = .ok value ∧
    ∀ a ∈ value, wanted a.text → ∃ depth, u.activeScopeDepth i subprogram pc = .ok depth

section Reading

variable {wanted : String → Prop} {e : Exception}

theorem Quiet.readable (h : u.Quiet subprogram pc wanted i) (hwanted : wanted name)
    (hnamed : u.Named i name) : ∃ depth, u.activeScopeDepth i subprogram pc = .ok depth := by
  obtain ⟨value, hname, hdepth⟩ := h
  obtain ⟨a, hname', rfl⟩ := hnamed
  rw [hname] at hname'
  cases hname'
  exact hdepth a rfl hwanted

theorem attributeFrom_error {sought room : Nat} (h : u.attributeFrom sought room i = .error e) :
    e ∈ readingErrors := by
  induction room generalizing i with
  | zero =>
    cases h
    simp [readingErrors]
  | succ room ih =>
    unfold attributeFrom at h
    cases hdirect : (u.die i).attribute sought with
    | some direct =>
      rw [hdirect] at h
      cases h
    | none =>
      rw [hdirect] at h
      cases horigin : (u.die i).attribute kDwAtAbstractOrigin with
      | none =>
        rw [horigin] at h
        cases h
      | some origin =>
        rw [horigin] at h
        dsimp only at h
        split at h
        case isTrue =>
          cases h
          simp [readingErrors]
        case isFalse =>
          split at h
          case h_1 =>
            cases h
            simp [readingErrors]
          case h_2 =>
            split at h
            case isTrue =>
              cases h
              simp [readingErrors]
            case isFalse => exact ih h

theorem containsPc_error {die : Die} (h : die.containsPc pc = .error e) : e ∈ readingErrors := by
  unfold Die.containsPc at h
  split at h
  case h_2 => cases h
  case h_1 low high _ _ =>
    split at h
    case isTrue => cases h
    case isFalse =>
      by_cases hform : high.form = kDwFormAddr
      · rw [if_pos hform] at h
        cases h
      · rw [if_neg hform] at h
        unfold addUnsigned at h
        split at h
        case isTrue =>
          cases h
          simp [readingErrors]
        case isFalse => cases h

theorem activeScopeDepthFrom_error {depth : Nat}
    (h : u.activeScopeDepthFrom subprogram pc i depth = .error e) : e ∈ readingErrors := by
  induction hroom : i.val using Nat.strongRecOn generalizing i depth with
  | ind room ih =>
    subst hroom
    rw [activeScopeDepthFrom] at h
    split at h
    case isTrue => cases h
    case isFalse =>
      split at h
      case isTrue => cases h
      case isFalse =>
        split at h
        case isTrue =>
          cases h
          simp [readingErrors]
        case isFalse =>
          cases hcontains : (u.die i).containsPc pc with
          | error e' =>
            rw [hcontains] at h
            cases h
            exact containsPc_error hcontains
          | ok inside =>
            rw [hcontains] at h
            dsimp only [Bind.bind, Except.bind] at h
            split at h
            case isTrue => cases h
            case isFalse =>
              split at h
              case h_1 => cases h
              case h_2 p hparent => exact ih p (parent_lt hparent) h rfl

theorem activeScopeDepth_error (h : u.activeScopeDepth i subprogram pc = .error e) :
    e ∈ readingErrors := by
  unfold activeScopeDepth at h
  split at h
  case h_1 => cases h
  case h_2 => exact activeScopeDepthFrom_error h

/-- At an entry that is not quiet one of the two readings throws. -/
theorem quiet_or_error (wanted : String → Prop) (i : u.Index) :
    u.Quiet subprogram pc wanted i ∨ ∃ e ∈ readingErrors,
      u.attributeWithAbstractOrigin i kDwAtName = .error e ∨
      ∃ a, u.attributeWithAbstractOrigin i kDwAtName = .ok (some a) ∧ wanted a.text ∧
        u.activeScopeDepth i subprogram pc = .error e := by
  cases hname : u.attributeWithAbstractOrigin i kDwAtName with
  | error e => exact .inr ⟨e, attributeFrom_error hname, .inl rfl⟩
  | ok value =>
    cases value with
    | none => exact .inl ⟨none, hname, nofun⟩
    | some a =>
      by_cases hwanted : wanted a.text
      · cases hdepth : u.activeScopeDepth i subprogram pc with
        | error e => exact .inr ⟨e, activeScopeDepth_error hdepth, .inr ⟨a, rfl, hwanted, rfl⟩⟩
        | ok depth => exact .inl ⟨some a, hname, fun _ _ _ => ⟨depth, hdepth⟩⟩
      · refine .inl ⟨some a, hname, fun b hb htext => ?_⟩
        cases hb
        exact absurd htext hwanted

end Reading

/-! ## Inspection -/

variable (u) in
/-- Inspection looks at every value of the unit. -/
def everywhere : u.Index → Bool := fun _ => true

section Inspection

variable {texts : LookupTexts}

/-- The lookup throws at no value when all names and the depths of those asked for can be read. -/
theorem quiet_iff : (∀ j, (u.die j).isValue = true → u.Quiet subprogram pc (· = name) j) ↔
    u.NamesResolve u.everywhere ∧ u.DepthsRead u.everywhere subprogram pc name := by
  constructor
  · intro hquiet
    refine ⟨fun j hvalue _ => ?_, fun j hvalue _ hnamed => (hquiet j hvalue).readable rfl hnamed⟩
    obtain ⟨value, hname, -⟩ := hquiet j hvalue
    exact ⟨value, hname⟩
  · rintro ⟨hnames, hdepths⟩ j hvalue
    obtain ⟨value, hname⟩ := hnames j hvalue rfl
    refine ⟨value, hname, fun a ha htext => hdepths j hvalue rfl ⟨a, ?_, htext⟩⟩
    rw [hname, ha]

variable (texts) in
/-- A round throws at a value that is not quiet. -/
theorem selectStep_loud (hvalue : (u.die i).isValue = true)
    (hloud : ¬u.Quiet subprogram pc (· = name) i) (selection : LocalSelection u) :
    ∃ e ∈ readingErrors, u.selectStep texts subprogram pc name selection i = .error e := by
  obtain ⟨e, he, hread⟩ := (quiet_or_error (· = name) i).resolve_left hloud
  refine ⟨e, he, ?_⟩
  unfold selectStep
  rw [hvalue, if_neg (by simp)]
  obtain hname | ⟨a, hname, htext, hdepth⟩ := hread
  · rw [hname]
    rfl
  · rw [hname]
    dsimp only [Bind.bind, Except.bind]
    rw [if_neg (not_not.mpr htext), hdepth]

theorem quiet_of_selectStep {selection selection' : LocalSelection u}
    (h : u.selectStep texts subprogram pc name selection i = .ok selection')
    (hvalue : (u.die i).isValue = true) : u.Quiet subprogram pc (· = name) i := by
  by_contra hloud
  obtain ⟨e, -, he⟩ := selectStep_loud texts hvalue hloud selection
  rw [h] at he
  cases he

variable (u) in
/-- A value of that name stands somewhere below the subprogram. -/
def Mentions (subprogram : u.Index) (name : String) (i : u.Index) : Prop :=
  (u.die i).isValue = true ∧ u.Named i name ∧ u.isDescendantOf i subprogram = true

variable (texts) in
/-- An entry that is no candidate changes nothing but `nested_name`. -/
theorem selectStep_of_none (hquiet : (u.die i).isValue = true → u.Quiet subprogram pc (· = name) i)
    (selection : LocalSelection u)
    (h : u.candidateDepth u.everywhere subprogram pc name i = none) :
    ∃ nested, u.selectStep texts subprogram pc name selection i =
        .ok { selection with nestedName := nested } ∧
      (nested = true ↔ selection.nestedName = true ∨ u.Mentions subprogram name i) := by
  unfold selectStep Mentions
  cases hvalue : (u.die i).isValue with
  | false => exact ⟨selection.nestedName, rfl, by simp⟩
  | true =>
    obtain ⟨value, hname, hdepth⟩ := hquiet hvalue
    simp only [hname, Bool.not_true, Bool.false_eq_true, if_false, Bind.bind, Except.bind]
    cases value with
    | none => exact ⟨selection.nestedName, rfl, by simp [Named, hname]⟩
    | some value =>
      dsimp only
      split
      case isTrue htext =>
        refine ⟨selection.nestedName, rfl, ?_⟩
        simp [Named, hname, htext]
      case isFalse htext =>
        have htext : value.text = name := not_not.mp htext
        have hnamed : u.Named i name := ⟨value, hname, htext⟩
        obtain ⟨result, hresult⟩ := hdepth value rfl htext
        have hnone : result = none := by
          simpa [candidateDepth, hvalue, everywhere, hname, htext, hresult, Except.toOption] using h
        rw [hresult, hnone]
        dsimp only
        split
        case isTrue hdesc => exact ⟨true, rfl, by simp [hnamed, hdesc]⟩
        case isFalse hdesc => exact ⟨selection.nestedName, rfl, by simp [hdesc]⟩

theorem selectStep_of_some (selection : LocalSelection u)
    (h : u.candidateDepth u.everywhere subprogram pc name i = some depth) :
    u.selectStep texts subprogram pc name selection i =
      match selection.best with
      | none => .ok { selection with best := some (i, depth) }
      | some (_, bestDepth) =>
        if bestDepth < depth then .ok { selection with best := some (i, depth) }
        else if depth = bestDepth then .error (.runtimeError (texts.ambiguous ++ name))
        else .ok selection := by
  unfold candidateDepth at h
  split at h
  case isFalse => cases h
  case isTrue hvalue =>
    have hvalue : (u.die i).isValue = true := by simpa [everywhere] using hvalue
    split at h
    case h_2 => cases h
    case h_1 value hname =>
      split at h
      case isFalse => cases h
      case isTrue htext =>
        cases hdepth : u.activeScopeDepth i subprogram pc with
        | error e =>
          rw [hdepth] at h
          cases h
        | ok result =>
          rw [hdepth] at h
          have hsome : result = some depth := h
          unfold selectStep
          simp only [hvalue, hname, htext, hdepth, hsome, Bool.not_true, Bool.false_eq_true,
            if_false, ne_eq, not_true_eq_false, Bind.bind, Except.bind]
          rfl

/-- The loop scans the candidates among its entries. -/
theorem foldlM_selectStep (texts : LookupTexts) (items : List u.Index)
    (hquiet : ∀ i ∈ items, (u.die i).isValue = true → u.Quiet subprogram pc (· = name) i)
    (selection : LocalSelection u)
    (hbest : ∀ b ∈ selection.best, b.2 = u.depthOf u.everywhere subprogram pc name b.1) :
    match scanBest (u.depthOf u.everywhere subprogram pc name) (selection.best.map Prod.fst)
      (items.filter fun i => (u.candidateDepth u.everywhere subprogram pc name i).isSome) with
    | none => items.foldlM (u.selectStep texts subprogram pc name) selection =
        .error (.runtimeError (texts.ambiguous ++ name))
    | some best => ∃ nested, items.foldlM (u.selectStep texts subprogram pc name) selection =
        .ok ⟨best.map fun i => (i, u.depthOf u.everywhere subprogram pc name i), nested⟩ := by
  induction items generalizing selection with
  | nil =>
    obtain ⟨best, nested⟩ := selection
    refine ⟨nested, ?_⟩
    cases best with
    | none => rfl
    | some best => rw [Option.map_some, Option.map_some, ← hbest best rfl]; rfl
  | cons i items ih =>
    have ih := ih fun j hj => hquiet j (.tail _ hj)
    rw [List.foldlM_cons]
    cases hdepth : u.candidateDepth u.everywhere subprogram pc name i with
    | none =>
      obtain ⟨nested, hstep, -⟩ := selectStep_of_none texts (hquiet i (.head _)) selection hdepth
      rw [hstep, List.filter_cons_of_neg (by simp [hdepth])]
      exact ih { selection with nestedName := nested } hbest
    | some depth =>
      have hrank : depth = u.depthOf u.everywhere subprogram pc name i :=
        (depthOf_of_some hdepth).symm
      have hnext : ∀ b ∈ some (i, depth), b.2 = u.depthOf u.everywhere subprogram pc name b.1 := by
        intro b hb
        cases hb
        exact hrank
      rw [selectStep_of_some selection hdepth, List.filter_cons_of_pos (by simp [hdepth])]
      obtain ⟨best, nested⟩ := selection
      cases best with
      | none => exact ih ⟨some (i, depth), nested⟩ hnext
      | some best =>
        have hb := hbest best rfl
        rw [Option.map_some, scanBest]
        dsimp only
        rw [← hb, ← hrank]
        by_cases hlt : best.2 < depth
        · simp only [if_pos hlt]
          exact ih ⟨some (i, depth), nested⟩ hnext
        · by_cases heq : depth = best.2
          · simp only [if_neg hlt, if_pos heq]
            rfl
          · simp only [if_neg hlt, if_neg heq]
            exact ih ⟨some best, nested⟩ hbest

/-- The subprogram is the only one that covers the address. -/
structure Sole (u : DieUnit) (pc : Word) (subprogram : u.Index) : Prop where
  tag : (u.die subprogram).tag = kDwTagSubprogram
  only : ∀ i, (u.die i).tag = kDwTagSubprogram →
    (u.die i).containsPc pc = .ok (decide (i = subprogram))

/-- A search for the one entry that passes a test finds it. -/
theorem foldlM_find {step : Option u.Index → u.Index → Except Exception (Option u.Index)}
    (hskip : ∀ found i, i ≠ subprogram → step found i = .ok found)
    (hfind : step none subprogram = .ok (some subprogram)) :
    (List.finRange u.size).foldlM step none = .ok (some subprogram) := by
  have hrest : ∀ (items : List u.Index) found, subprogram ∉ items →
      items.foldlM step found = .ok found := by
    intro items found hnot
    induction items with
    | nil => rfl
    | cons i items ih =>
      rw [List.foldlM_cons, hskip found i (by rintro rfl; simp at hnot)]
      exact ih fun h => hnot (.tail _ h)
  have hall : ∀ items : List u.Index, items.Nodup → subprogram ∈ items →
      items.foldlM step none = .ok (some subprogram) := by
    intro items hnodup hmem
    induction items with
    | nil => cases hmem
    | cons i items ih =>
      obtain ⟨hnot, hnodup⟩ := List.nodup_cons.mp hnodup
      rw [List.foldlM_cons]
      by_cases hi : i = subprogram
      · subst hi
        rw [hfind]
        exact hrest items _ hnot
      · rw [hskip none i hi]
        exact ih hnodup ((List.mem_cons.mp hmem).resolve_left (Ne.symm hi))
  exact hall _ (List.nodup_finRange u.size) (List.mem_finRange _)

theorem Sole.findSubprogram (h : u.Sole pc subprogram) :
    u.findSubprogram texts pc = .ok (some subprogram) := by
  refine foldlM_find (fun found i hne => ?_) ?_
  · by_cases htag : (u.die i).tag = kDwTagSubprogram
    · simp only [htag, h.only i htag, decide_eq_false hne]
      rfl
    · simp only [ne_eq, htag, not_false_eq_true, if_true]
      rfl
  · simp only [h.tag, h.only subprogram h.tag, decide_true]
    rfl

/-- What the lookup returns, from the scan of the candidates. -/
theorem selectLocal_of_sole (texts : LookupTexts) (hsole : u.Sole pc subprogram)
    (hnames : u.NamesResolve u.everywhere)
    (hdepths : u.DepthsRead u.everywhere subprogram pc name) :
    match scanBest (u.depthOf u.everywhere subprogram pc name) none
      (u.candidates u.everywhere subprogram pc name) with
    | none => u.selectLocal texts pc name = .error (.runtimeError (texts.ambiguous ++ name))
    | some (some i) => u.selectLocal texts pc name = .ok (some i)
    | some none => u.selectLocal texts pc name = .error (.runtimeError (texts.outside ++ name)) ∨
        u.selectLocal texts pc name = .error (.runtimeError (texts.missing ++ name)) := by
  have hloop := foldlM_selectStep texts (List.finRange u.size)
    (fun i _ hvalue => quiet_iff.mpr ⟨hnames, hdepths⟩ i hvalue) {} (by simp)
  unfold selectLocal
  rw [hsole.findSubprogram]
  dsimp only [Bind.bind, Except.bind]
  unfold candidates
  rw [Option.map_none] at hloop
  split at hloop
  case h_1 hscan =>
    rw [hscan, hloop]
  case h_2 best hscan =>
    obtain ⟨nested, hloop⟩ := hloop
    rw [hscan, hloop]
    cases best with
    | some i => rfl
    | none =>
      cases nested with
      | true => exact .inl rfl
      | false => exact .inr rfl

/-- The lookup finds the deepest candidate and reports the tie for the largest depth, exactly when
no tie comes before the deepest candidate. -/
theorem selectLocal_iff (hsole : u.Sole pc subprogram) (hnames : u.NamesResolve u.everywhere)
    (hscopes : u.ScopesRanged u.everywhere name)
    (houtside : texts.ambiguous ≠ texts.outside) (hmissing : texts.ambiguous ≠ texts.missing) :
    ((∀ i, u.selectLocal texts pc name = .ok (some i) ↔ u.Deepest u.everywhere subprogram pc name i) ∧
      (u.selectLocal texts pc name = .error (.runtimeError (texts.ambiguous ++ name)) ↔
        u.Ambiguous u.everywhere subprogram pc name)) ↔
    ¬u.EarlyTie u.everywhere subprogram pc name := by
  rw [← scan_candidates_iff (hscopes.depthsRead subprogram pc)]
  have hlookup := selectLocal_of_sole texts hsole hnames (hscopes.depthsRead subprogram pc)
  split at hlookup
  case h_1 hscan => simp [hscan, hlookup]
  case h_2 i hscan => simp [hscan, hlookup]
  case h_3 hscan =>
    obtain hlookup | hlookup := hlookup
    · simp [hscan, hlookup, houtside.symm]
    · simp [hscan, hlookup, hmissing.symm]

end Inspection

end DieUnit

end MiniDebugger
