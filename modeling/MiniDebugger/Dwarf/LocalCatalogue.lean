import MiniDebugger.Agree
import MiniDebugger.Checks
import MiniDebugger.Dwarf.LocalSelection

/-!
# The catalogue lists the deepest candidates

The catalogue runs the scan of `LocalSelection` for all names at once, over the entries outside
inlined functions, and holds 64 names at most.
-/

namespace MiniDebugger

open Std (ExtTreeMap)

namespace DieUnit

variable {u : DieUnit} {keep : u.Index → Bool} {subprogram i : u.Index} {pc : Word} {name : String}
  {depth : Nat}

variable (u) in
/-- The catalogue leaves out what stands in instances of inlined functions. -/
def physical (subprogram : u.Index) : u.Index → Bool := fun i => !u.crossesInlineScope i subprogram

def ambiguousNameText (name : String) : String :=
  "ambiguous active local name at equal lexical depth: " ++ name

section Discovery

/-- An entry is a candidate for one name at most. -/
theorem candidateDepth_unique {other : String} (hne : other ≠ name)
    (h : u.candidateDepth keep subprogram pc name i = some depth) :
    u.candidateDepth keep subprogram pc other i = none := by
  unfold candidateDepth at h ⊢
  split at h
  case isFalse => cases h
  case isTrue hkeep =>
    rw [if_pos hkeep]
    split at h
    case h_2 => cases h
    case h_1 value hname =>
      split at h
      case isFalse => cases h
      case isTrue htext =>
        subst htext
        exact if_neg (Ne.symm hne)

/-- What a candidate of depth `depth` does to the catalogue. -/
def catalogueUpdate (selected : ExtTreeMap String CatalogueCandidate) (name : String)
    (candidate : CatalogueCandidate) : Except Exception (ExtTreeMap String CatalogueCandidate) :=
  match selected[name]? with
  | none =>
    if kMaxDiscoveredLocals ≤ selected.size then
      .error (.runtimeError "active scoped-local catalogue exceeds the bounded 64-name limit")
    else .ok (selected.insert name candidate)
  | some existing =>
    if existing.depth < candidate.depth then .ok (selected.insert name candidate)
    else if candidate.depth = existing.depth then
      .error (.runtimeError (ambiguousNameText name))
    else .ok selected

/-- The catalogue throws at no value when all names and the depths of those that are not empty can be
read. -/
theorem quiet_physical_iff :
    (∀ j, (u.die j).isValue = true → u.crossesInlineScope j subprogram = false →
      u.Quiet subprogram pc (· ≠ "") j) ↔
    u.NamesResolve (u.physical subprogram) ∧
      ∀ name, name ≠ "" → u.DepthsRead (u.physical subprogram) subprogram pc name := by
  have hphysical : ∀ {j}, u.physical subprogram j = true ↔
      u.crossesInlineScope j subprogram = false := by simp [physical]
  constructor
  · intro hquiet
    refine ⟨fun j hvalue hkeep => ?_, fun name hne j hvalue hkeep hnamed =>
      (hquiet j hvalue (hphysical.mp hkeep)).readable hne hnamed⟩
    obtain ⟨value, hname, -⟩ := hquiet j hvalue (hphysical.mp hkeep)
    exact ⟨value, hname⟩
  · rintro ⟨hnames, hdepths⟩ j hvalue hcross
    obtain ⟨value, hname⟩ := hnames j hvalue (hphysical.mpr hcross)
    refine ⟨value, hname, fun a ha hne => ?_⟩
    exact hdepths a.text hne j hvalue (hphysical.mpr hcross) ⟨a, by rw [hname, ha], rfl⟩

/-- A round throws at a value outside inlined functions that is not quiet. -/
theorem catalogueStep_loud (hvalue : (u.die i).isValue = true)
    (hcross : u.crossesInlineScope i subprogram = false)
    (hloud : ¬u.Quiet subprogram pc (· ≠ "") i) (selected : ExtTreeMap String CatalogueCandidate) :
    ∃ e ∈ readingErrors, u.catalogueStep subprogram pc selected i = .error e := by
  obtain ⟨e, he, hread⟩ := (quiet_or_error (· ≠ "") i).resolve_left hloud
  refine ⟨e, he, ?_⟩
  unfold catalogueStep
  rw [hvalue, hcross, if_neg (by simp), if_neg (by simp)]
  obtain hname | ⟨a, hname, htext, hdepth⟩ := hread
  · rw [hname]
    rfl
  · rw [hname]
    dsimp only [Bind.bind, Except.bind]
    rw [if_neg htext, hdepth]

theorem quiet_of_catalogueStep {selected selected' : ExtTreeMap String CatalogueCandidate}
    (h : u.catalogueStep subprogram pc selected i = .ok selected')
    (hvalue : (u.die i).isValue = true) (hcross : u.crossesInlineScope i subprogram = false) :
    u.Quiet subprogram pc (· ≠ "") i := by
  by_contra hloud
  obtain ⟨e, -, he⟩ := catalogueStep_loud hvalue hcross hloud selected
  rw [h] at he
  cases he

/-- One round of the loop: the entry is a candidate for one name or for none. -/
theorem catalogueStep_cases (hquiet : (u.die i).isValue = true →
      u.crossesInlineScope i subprogram = false → u.Quiet subprogram pc (· ≠ "") i)
    (selected : ExtTreeMap String CatalogueCandidate) :
    (u.catalogueStep subprogram pc selected i = .ok selected ∧
      ∀ name, name ≠ "" →
        u.candidateDepth (u.physical subprogram) subprogram pc name i = none) ∨
    ∃ name depth, name ≠ "" ∧
      u.candidateDepth (u.physical subprogram) subprogram pc name i = some depth ∧
      u.catalogueStep subprogram pc selected i =
        catalogueUpdate selected name ⟨depth, (u.die i).discoveryKind⟩ := by
  unfold catalogueStep
  cases hvalue : (u.die i).isValue with
  | false => exact .inl ⟨rfl, fun name _ => by simp [candidateDepth, hvalue]⟩
  | true =>
    cases hcross : u.crossesInlineScope i subprogram with
    | true => exact .inl ⟨rfl, fun name _ => by simp [candidateDepth, physical, hcross]⟩
    | false =>
      have hphysical : u.physical subprogram i = true := by simp [physical, hcross]
      obtain ⟨value, hname, hread⟩ := hquiet hvalue hcross
      simp only [hname, Bool.not_true, Bool.false_eq_true, if_false, Bind.bind, Except.bind]
      cases value with
      | none => exact .inl ⟨rfl, fun name _ => by simp [candidateDepth, hname]⟩
      | some value =>
        dsimp only
        by_cases hempty : value.text = ""
        · rw [if_pos hempty]
          refine .inl ⟨rfl, fun name hne => ?_⟩
          simp [candidateDepth, hname, hempty, Ne.symm hne]
        · rw [if_neg hempty]
          obtain ⟨result, hresult⟩ := hread value rfl hempty
          have hdepth : ∀ name, u.candidateDepth (u.physical subprogram) subprogram pc name i =
              if value.text = name then result else none := by
            intro name
            simp [candidateDepth, hvalue, hphysical, hname, hresult, Except.toOption]
          rw [hresult]
          cases result with
          | none => exact .inl ⟨rfl, fun name _ => by simp [hdepth]⟩
          | some depth =>
            refine .inr ⟨value.text, depth, hempty, by simp [hdepth], ?_⟩
            unfold catalogueUpdate
            cases selected[value.text]? with
            | none => rfl
            | some existing => rfl

/-- A round that gets through. -/
theorem catalogueStep_of_ok {selected selected' : ExtTreeMap String CatalogueCandidate}
    (h : u.catalogueStep subprogram pc selected i = .ok selected') :
    (selected' = selected ∧
      ∀ name, name ≠ "" →
        u.candidateDepth (u.physical subprogram) subprogram pc name i = none) ∨
    ∃ name depth, name ≠ "" ∧
      u.candidateDepth (u.physical subprogram) subprogram pc name i = some depth ∧
      catalogueUpdate selected name ⟨depth, (u.die i).discoveryKind⟩ = .ok selected' := by
  obtain ⟨hstep, hnone⟩ | ⟨name, depth, hne, hdepth, hstep⟩ :=
    catalogueStep_cases (quiet_of_catalogueStep h) selected
  · rw [hstep] at h
    cases h
    exact .inl ⟨rfl, hnone⟩
  · exact .inr ⟨name, depth, hne, hdepth, hstep.symm.trans h⟩

/-- A round does not make the catalogue larger than it may be. -/
theorem size_of_catalogueStep {selected selected' : ExtTreeMap String CatalogueCandidate}
    (hsize : selected.size ≤ kMaxDiscoveredLocals)
    (hstep : u.catalogueStep subprogram pc selected i = .ok selected') :
    selected'.size ≤ kMaxDiscoveredLocals := by
  obtain ⟨rfl, -⟩ | ⟨name, depth, -, -, hupdate⟩ := catalogueStep_of_ok hstep
  · exact hsize
  · unfold catalogueUpdate at hupdate
    cases hget : selected[name]? with
    | none =>
      rw [hget] at hupdate
      dsimp only at hupdate
      split at hupdate
      · cases hupdate
      · cases hupdate
        rw [ExtTreeMap.size_insert]
        split <;> omega
    | some existing =>
      rw [hget] at hupdate
      dsimp only at hupdate
      have hin : name ∈ selected := ExtTreeMap.mem_iff_isSome_getElem?.mpr (by simp [hget])
      split at hupdate
      · cases hupdate
        rw [ExtTreeMap.size_insert, if_pos (by simpa using hin)]
        exact hsize
      · split at hupdate
        · cases hupdate
        · cases hupdate
          exact hsize

theorem size_of_loop {items : List u.Index} {selected : ExtTreeMap String CatalogueCandidate}
    (h : items.foldlM (u.catalogueStep subprogram pc) ∅ = .ok selected) :
    selected.size ≤ kMaxDiscoveredLocals :=
  Checks.foldlM_invariant (I := fun selected => selected.size ≤ kMaxDiscoveredLocals)
    (by simp) (fun _ _ _ => size_of_catalogueStep) h

variable (u) in
/-- The scan of the candidates of a name among some entries, outside inlined functions. -/
def scanPhysical (subprogram : u.Index) (pc : Word) (name : String) (items : List u.Index) :
    Option (Option u.Index) :=
  scanBest (u.depthOf (u.physical subprogram) subprogram pc name) none
    (items.filter fun i => (u.candidateDepth (u.physical subprogram) subprogram pc name i).isSome)

variable (u) in
/-- The catalogue holds, for every name, what the scan of the entries so far has found. -/
structure Scanned (subprogram : u.Index) (pc : Word) (done : List u.Index)
    (selected : ExtTreeMap String CatalogueCandidate) : Prop where
  unnamed : selected[""]? = none
  scanned : ∀ name, name ≠ "" → ∃ best, u.scanPhysical subprogram pc name done = some best ∧
    selected[name]? = best.map fun i =>
      ⟨u.depthOf (u.physical subprogram) subprogram pc name i, (u.die i).discoveryKind⟩

theorem Scanned.start : u.Scanned subprogram pc [] ∅ :=
  ⟨by simp, fun _ _ => ⟨none, rfl, by simp⟩⟩

variable (u) in
/-- At most as many names are visible as the catalogue holds. -/
def FewNames (subprogram : u.Index) (pc : Word) : Prop :=
  ∃ names : List String, names.length ≤ kMaxDiscoveredLocals ∧ ∀ name i depth, name ≠ "" →
    u.Candidate (u.physical subprogram) subprogram pc name i depth → name ∈ names

theorem scanPhysical_append_of_none (items : List u.Index)
    (h : u.candidateDepth (u.physical subprogram) subprogram pc name i = none) :
    u.scanPhysical subprogram pc name (items ++ [i]) = u.scanPhysical subprogram pc name items := by
  unfold scanPhysical
  rw [List.filter_append, List.filter_cons_of_neg (by simp [h]), List.filter_nil, List.append_nil]

theorem scanPhysical_append_of_some {best : Option u.Index} {items : List u.Index}
    (hbest : u.scanPhysical subprogram pc name items = some best)
    (h : u.candidateDepth (u.physical subprogram) subprogram pc name i = some depth) :
    u.scanPhysical subprogram pc name (items ++ [i]) =
      scanBest (u.depthOf (u.physical subprogram) subprogram pc name) best [i] := by
  unfold scanPhysical at hbest ⊢
  rw [List.filter_append, List.filter_cons_of_pos (by simp [h]), List.filter_nil,
    scanBest_append, hbest]
  rfl

/-- The catalogue takes the entry the scan has moved to. -/
theorem Scanned.insert {done : List u.Index} {selected : ExtTreeMap String CatalogueCandidate}
    (h : u.Scanned subprogram pc done selected) (hne : name ≠ "")
    (hdepth : u.candidateDepth (u.physical subprogram) subprogram pc name i = some depth)
    (hscan : u.scanPhysical subprogram pc name (done ++ [i]) = some (some i)) :
    u.Scanned subprogram pc (done ++ [i])
      (selected.insert name ⟨depth, (u.die i).discoveryKind⟩) := by
  refine ⟨?_, fun other hother => ?_⟩
  · rw [ExtTreeMap.getElem?_insert, if_neg (by simpa using hne)]
    exact h.unnamed
  · by_cases hname : other = name
    · subst hname
      refine ⟨some i, hscan, ?_⟩
      rw [ExtTreeMap.getElem?_insert_self, Option.map_some, depthOf_of_some hdepth]
    · rw [scanPhysical_append_of_none done (candidateDepth_unique hname hdepth),
        ExtTreeMap.getElem?_insert, if_neg (by simpa using Ne.symm hname)]
      exact h.scanned other hother

/-- The catalogue stays where the scan stays. -/
theorem Scanned.stay {done : List u.Index} {selected : ExtTreeMap String CatalogueCandidate}
    (h : u.Scanned subprogram pc done selected)
    (hdepth : u.candidateDepth (u.physical subprogram) subprogram pc name i = some depth)
    (hscan : u.scanPhysical subprogram pc name (done ++ [i]) =
      u.scanPhysical subprogram pc name done) :
    u.Scanned subprogram pc (done ++ [i]) selected := by
  refine ⟨h.unnamed, fun other hother => ?_⟩
  by_cases hname : other = name
  · subst hname
    rw [hscan]
    exact h.scanned other hother
  · rw [scanPhysical_append_of_none done (candidateDepth_unique hname hdepth)]
    exact h.scanned other hother

theorem Scanned.of_ok {done : List u.Index}
    {selected selected' : ExtTreeMap String CatalogueCandidate}
    (h : u.Scanned subprogram pc done selected)
    (hstep : u.catalogueStep subprogram pc selected i = .ok selected') :
    u.Scanned subprogram pc (done ++ [i]) selected' := by
  obtain ⟨rfl, hnone⟩ | ⟨name, depth, hne, hdepth, hupdate⟩ := catalogueStep_of_ok hstep
  · refine ⟨h.unnamed, fun name hne => ?_⟩
    rw [scanPhysical_append_of_none done (hnone name hne)]
    exact h.scanned name hne
  · obtain ⟨best, hbest, hget⟩ := h.scanned name hne
    have hscan := scanPhysical_append_of_some hbest hdepth
    unfold catalogueUpdate at hupdate
    rw [hget] at hupdate
    cases best with
    | none =>
      dsimp only [Option.map_none] at hupdate
      split at hupdate
      case isTrue => cases hupdate
      case isFalse =>
        cases hupdate
        exact h.insert hne hdepth hscan
    | some j =>
      dsimp only [Option.map_some] at hupdate
      rw [scanBest, depthOf_of_some hdepth] at hscan
      split at hupdate
      case isTrue hlt =>
        cases hupdate
        rw [if_pos hlt] at hscan
        exact h.insert hne hdepth hscan
      case isFalse hlt =>
        rw [if_neg hlt] at hscan
        split at hupdate
        case isTrue => cases hupdate
        case isFalse heq =>
          cases hupdate
          rw [if_neg heq] at hscan
          exact h.stay hdepth (hscan.trans hbest.symm)

theorem Scanned.foldlM_of_ok {done : List u.Index}
    {selected selected' : ExtTreeMap String CatalogueCandidate}
    (h : u.Scanned subprogram pc done selected) {items : List u.Index}
    (hloop : items.foldlM (u.catalogueStep subprogram pc) selected = .ok selected') :
    u.Scanned subprogram pc (done ++ items) selected' := by
  induction items generalizing done selected with
  | nil =>
    cases hloop
    rwa [List.append_nil]
  | cons i items ih =>
    rw [List.foldlM_cons] at hloop
    cases hstep : u.catalogueStep subprogram pc selected i with
    | error e =>
      rw [hstep] at hloop
      cases hloop
    | ok next =>
      rw [hstep] at hloop
      rw [List.append_cons]
      exact ih (h.of_ok hstep) hloop

/-- The names in the catalogue are those of candidates among the entries so far. -/
theorem Scanned.of_mem_keys {done : List u.Index}
    {selected : ExtTreeMap String CatalogueCandidate} (h : u.Scanned subprogram pc done selected)
    (hin : name ∈ selected.keys) : name ≠ "" ∧ ∃ j ∈ done, ∃ depth,
      u.candidateDepth (u.physical subprogram) subprogram pc name j = some depth := by
  have hin : name ∈ selected := ExtTreeMap.mem_keys.mp hin
  have hne : name ≠ "" := by
    rintro rfl
    exact absurd h.unnamed (by simp [ExtTreeMap.getElem?_eq_some_getElem hin])
  obtain ⟨best, hbest, hget⟩ := h.scanned name hne
  rw [ExtTreeMap.getElem?_eq_some_getElem hin] at hget
  cases best with
  | none => cases hget
  | some j =>
    obtain ⟨hj, hsome⟩ := List.mem_filter.mp (highest_of_scanBest hbest).1
    exact ⟨hne, j, hj, Option.isSome_iff_exists.mp hsome⟩

/-- The names of the candidates among the entries so far are in the catalogue. -/
theorem Scanned.mem_keys {done : List u.Index} {selected : ExtTreeMap String CatalogueCandidate}
    (h : u.Scanned subprogram pc done selected) (hne : name ≠ "") (hi : i ∈ done)
    (hdepth : u.candidateDepth (u.physical subprogram) subprogram pc name i = some depth) :
    name ∈ selected.keys := by
  obtain ⟨best, hbest, hget⟩ := h.scanned name hne
  have hmem : i ∈ done.filter fun j =>
      (u.candidateDepth (u.physical subprogram) subprogram pc name j).isSome :=
    List.mem_filter.mpr ⟨hi, by simp [hdepth]⟩
  obtain ⟨hnil, -⟩ | ⟨a, -, rfl, -⟩ := scanBest_cases hbest
  · rw [hnil] at hmem
    cases hmem
  · exact ExtTreeMap.mem_keys.mpr (ExtTreeMap.mem_iff_isSome_getElem?.mpr (by simp [hget]))

/-- A round at a quiet entry throws about a tie the scan gives up on, or about a name too many. -/
theorem Scanned.step_error {done : List u.Index} {selected : ExtTreeMap String CatalogueCandidate}
    {e : Exception} (h : u.Scanned subprogram pc done selected)
    (hquiet : (u.die i).isValue = true → u.crossesInlineScope i subprogram = false →
      u.Quiet subprogram pc (· ≠ "") i)
    (hstep : u.catalogueStep subprogram pc selected i = .error e) :
    ∃ name depth, name ≠ "" ∧
      u.candidateDepth (u.physical subprogram) subprogram pc name i = some depth ∧
      (e = .runtimeError (ambiguousNameText name) ∧
          u.scanPhysical subprogram pc name (done ++ [i]) = none ∨
        name ∉ selected.keys ∧ kMaxDiscoveredLocals ≤ selected.size) := by
  obtain ⟨hok, -⟩ | ⟨name, depth, hne, hdepth, hupdate⟩ := catalogueStep_cases hquiet selected
  · rw [hok] at hstep
    cases hstep
  · refine ⟨name, depth, hne, hdepth, ?_⟩
    obtain ⟨best, hbest, hget⟩ := h.scanned name hne
    have hscan := scanPhysical_append_of_some hbest hdepth
    rw [hupdate] at hstep
    unfold catalogueUpdate at hstep
    rw [hget] at hstep
    cases best with
    | none =>
      right
      dsimp only [Option.map_none] at hstep hget
      split at hstep
      case isTrue hfull =>
        rw [ExtTreeMap.mem_keys, ExtTreeMap.mem_iff_isSome_getElem?, hget]
        exact ⟨nofun, hfull⟩
      case isFalse => cases hstep
    | some j =>
      left
      dsimp only [Option.map_some] at hstep
      rw [scanBest, depthOf_of_some hdepth] at hscan
      split at hstep
      case isTrue => cases hstep
      case isFalse hlt =>
        rw [if_neg hlt] at hscan
        split at hstep
        case isTrue heq =>
          cases hstep
          rw [if_pos heq] at hscan
          exact ⟨rfl, hscan⟩
        case isFalse => cases hstep

/-- A name that is not in the catalogue still fits when there are not too many. -/
theorem Scanned.room {done : List u.Index} {selected : ExtTreeMap String CatalogueCandidate}
    (h : u.Scanned subprogram pc done selected) {names : List String}
    (hlength : names.length ≤ kMaxDiscoveredLocals)
    (hnames : ∀ other j e, other ≠ "" → j ∈ done ++ [i] →
      u.Candidate (u.physical subprogram) subprogram pc other j e → other ∈ names)
    (hne : name ≠ "")
    (hdepth : u.candidateDepth (u.physical subprogram) subprogram pc name i = some depth)
    (hnew : name ∉ selected.keys) : selected.size < kMaxDiscoveredLocals := by
  have hkeys : name :: selected.keys ⊆ names := by
    intro other hother
    obtain rfl | hother := List.mem_cons.mp hother
    · exact hnames other i depth hne (by simp) (.of_depth hdepth)
    · obtain ⟨hother, j, hj, e, he⟩ := h.of_mem_keys hother
      exact hnames other j e hother (by simp [hj]) (.of_depth he)
  have hnodup : (name :: selected.keys).Nodup :=
    List.nodup_cons.mpr ⟨hnew, ExtTreeMap.nodup_keys⟩
  have := (List.subperm_of_subset hnodup hkeys).length_le
  rw [List.length_cons, ExtTreeMap.length_keys] at this
  omega

variable (hquiet : ∀ j, (u.die j).isValue = true → u.crossesInlineScope j subprogram = false →
    u.Quiet subprogram pc (· ≠ "") j)
  (hfew : u.FewNames subprogram pc)
include hquiet hfew

/-- One round keeps the catalogue in step with the scans or reports the tie one of them gave up
on. -/
theorem Scanned.step {done : List u.Index} {selected : ExtTreeMap String CatalogueCandidate}
    (h : u.Scanned subprogram pc done selected) (i : u.Index) :
    (∃ selected', u.catalogueStep subprogram pc selected i = .ok selected' ∧
      u.Scanned subprogram pc (done ++ [i]) selected') ∨
    ∃ name, name ≠ "" ∧ u.catalogueStep subprogram pc selected i =
        .error (.runtimeError (ambiguousNameText name)) ∧
      u.scanPhysical subprogram pc name (done ++ [i]) = none := by
  cases hstep : u.catalogueStep subprogram pc selected i with
  | ok selected' => exact .inl ⟨selected', rfl, h.of_ok hstep⟩
  | error e =>
    obtain ⟨name, depth, hne, hdepth, hcause⟩ := h.step_error (hquiet i) hstep
    obtain ⟨rfl, hscan⟩ | ⟨hnew, hfull⟩ := hcause
    · exact .inr ⟨name, hne, rfl, hscan⟩
    · obtain ⟨names, hlength, hmem⟩ := hfew
      have hroom : selected.size < kMaxDiscoveredLocals :=
        h.room hlength (fun other j e hother _ hj => hmem other j e hother hj) hne hdepth hnew
      omega

/-- The loop over any entries. -/
theorem Scanned.loop {done : List u.Index} {selected : ExtTreeMap String CatalogueCandidate}
    (h : u.Scanned subprogram pc done selected) (items : List u.Index) :
    (∃ selected', items.foldlM (u.catalogueStep subprogram pc) selected = .ok selected' ∧
      u.Scanned subprogram pc (done ++ items) selected') ∨
    ∃ name, name ≠ "" ∧ items.foldlM (u.catalogueStep subprogram pc) selected =
        .error (.runtimeError (ambiguousNameText name)) ∧
      u.scanPhysical subprogram pc name (done ++ items) = none := by
  induction items generalizing done selected with
  | nil => exact .inl ⟨selected, rfl, by rwa [List.append_nil]⟩
  | cons i items ih =>
    rw [List.foldlM_cons, List.append_cons]
    obtain ⟨selected', hstep, hnext⟩ | ⟨name, hne, hstep, hscan⟩ := h.step hquiet hfew i
    · rw [hstep]
      exact ih hnext
    · refine .inr ⟨name, hne, by rw [hstep]; rfl, ?_⟩
      unfold scanPhysical at hscan ⊢
      rw [List.filter_append, scanBest_append, hscan]
      rfl

omit hquiet hfew in
variable (u) in
/-- The subprogram is the only one that covers the address when range lists count too. -/
structure SolePhysical (ranges : List Byte) (pc : Word) (subprogram : u.Index) : Prop where
  tag : (u.die subprogram).tag = kDwTagSubprogram
  only : ∃ base, u.compilationUnitBase = .ok base ∧ ∀ i, (u.die i).tag = kDwTagSubprogram →
    (u.die i).inlineScopeContainsPc pc ranges base u.version = .ok (decide (i = subprogram))

variable {ranges : List Byte} (hsole : u.SolePhysical ranges pc subprogram)
include hsole

omit hquiet hfew in
theorem SolePhysical.findPhysicalSubprogram :
    ∃ base, u.compilationUnitBase = .ok base ∧
      u.findPhysicalSubprogram pc ranges base = .ok (some subprogram) := by
  obtain ⟨base, hbase, honly⟩ := hsole.only
  refine ⟨base, hbase, foldlM_find (fun found i hne => ?_) ?_⟩
  · by_cases htag : (u.die i).tag = kDwTagSubprogram
    · simp only [htag, honly i htag, decide_eq_false hne]
      rfl
    · simp only [ne_eq, htag, not_false_eq_true, if_true]
      rfl
  · simp only [hsole.tag, honly subprogram hsole.tag, decide_true]
    rfl

omit hquiet hfew hsole in
/-- The catalogue as it is returned. -/
def listing (selected : ExtTreeMap String CatalogueCandidate) : List LocalDiscoveryEntry :=
  selected.toList.map fun (name, candidate) => ⟨name, candidate.kind⟩

/-- The catalogue holds what the scans find, or one of them gave up on a tie. -/
theorem catalogue_scanned :
    (∃ selected, u.discoverScopedLocalCatalogueUnit ranges pc = .ok (some (listing selected)) ∧
      u.Scanned subprogram pc (List.finRange u.size) selected) ∨
    ∃ name, name ≠ "" ∧ u.discoverScopedLocalCatalogueUnit ranges pc =
        .error (.runtimeError (ambiguousNameText name)) ∧
      u.scanPhysical subprogram pc name (List.finRange u.size) = none := by
  obtain ⟨base, hbase, hfind⟩ := hsole.findPhysicalSubprogram
  unfold discoverScopedLocalCatalogueUnit
  rw [hbase]
  dsimp only [Bind.bind, Except.bind]
  rw [hfind]
  dsimp only
  obtain ⟨selected, hloop, hscanned⟩ | ⟨name, hne, hloop, hscan⟩ :=
    Scanned.start.loop hquiet hfew (List.finRange u.size)
  · rw [hloop]
    exact .inl ⟨selected, rfl, hscanned⟩
  · rw [hloop]
    exact .inr ⟨name, hne, rfl, hscan⟩

omit hquiet hfew hsole in
theorem Scanned.mem_listing {selected : ExtTreeMap String CatalogueCandidate}
    (h : u.Scanned subprogram pc (List.finRange u.size) selected) (name : String)
    (kind : LocalDiscoveryKind) :
    ⟨name, kind⟩ ∈ listing selected ↔ name ≠ "" ∧ ∃ i,
      u.scanPhysical subprogram pc name (List.finRange u.size) = some (some i) ∧
        (u.die i).discoveryKind = kind := by
  unfold listing
  rw [List.mem_map]
  constructor
  · rintro ⟨⟨found, candidate⟩, hmem, heq⟩
    obtain ⟨rfl, rfl⟩ := LocalDiscoveryEntry.mk.inj heq
    rw [ExtTreeMap.mem_toList_iff_getElem?_eq_some] at hmem
    have hne : found ≠ "" := by
      rintro rfl
      rw [h.unnamed] at hmem
      cases hmem
    obtain ⟨best, hbest, hget⟩ := h.scanned found hne
    rw [hmem] at hget
    cases best with
    | none => cases hget
    | some i =>
      cases hget
      exact ⟨hne, i, hbest, rfl⟩
  · rintro ⟨hne, i, hscan, rfl⟩
    obtain ⟨best, hbest, hget⟩ := h.scanned name hne
    rw [hscan] at hbest
    cases hbest
    exact ⟨(name, _), ExtTreeMap.mem_toList_iff_getElem?_eq_some.mpr hget, rfl⟩

/-- The catalogue lists what the scans find, or one of them gave up on a tie. -/
theorem catalogue_cases :
    (∃ entries, u.discoverScopedLocalCatalogueUnit ranges pc = .ok (some entries) ∧
      (∀ name, name ≠ "" → u.scanPhysical subprogram pc name (List.finRange u.size) ≠ none) ∧
      ∀ name kind, ⟨name, kind⟩ ∈ entries ↔ name ≠ "" ∧ ∃ i,
        u.scanPhysical subprogram pc name (List.finRange u.size) = some (some i) ∧
          (u.die i).discoveryKind = kind) ∨
    ∃ name, name ≠ "" ∧ u.discoverScopedLocalCatalogueUnit ranges pc =
        .error (.runtimeError (ambiguousNameText name)) ∧
      u.scanPhysical subprogram pc name (List.finRange u.size) = none := by
  obtain ⟨selected, hok, hscanned⟩ | herror := catalogue_scanned hquiet hfew hsole
  · refine .inl ⟨_, hok, fun name hne => ?_, hscanned.mem_listing⟩
    obtain ⟨best, hbest, -⟩ := hscanned.scanned name hne
    simp [hbest]
  · exact .inr herror

/-- The catalogue lists the deepest candidates and reports a tie for the largest depth, exactly
when no tie comes before the deepest candidate of a name or a name has such a tie anyway. -/
theorem catalogue_iff :
    (((∃ name, u.discoverScopedLocalCatalogueUnit ranges pc =
          .error (.runtimeError (ambiguousNameText name))) ↔
        ∃ name, name ≠ "" ∧ u.Ambiguous (u.physical subprogram) subprogram pc name) ∧
      ((¬∃ name, name ≠ "" ∧ u.Ambiguous (u.physical subprogram) subprogram pc name) →
        ∃ entries, u.discoverScopedLocalCatalogueUnit ranges pc = .ok (some entries) ∧
          ∀ name kind, ⟨name, kind⟩ ∈ entries ↔ name ≠ "" ∧ ∃ i,
            u.Deepest (u.physical subprogram) subprogram pc name i ∧
              (u.die i).discoveryKind = kind)) ↔
    ((∃ name, name ≠ "" ∧ u.Ambiguous (u.physical subprogram) subprogram pc name) ∨
      ∀ name, name ≠ "" → ¬u.EarlyTie (u.physical subprogram) subprogram pc name) := by
  have hdepths := (quiet_physical_iff.mp hquiet).2
  have htied : ∀ name, name ≠ "" → u.Ambiguous (u.physical subprogram) subprogram pc name ∨
      u.EarlyTie (u.physical subprogram) subprogram pc name →
      u.scanPhysical subprogram pc name (List.finRange u.size) = none := fun name hne h =>
    (scan_candidates_eq_none_iff (hdepths name hne)).mpr h
  obtain ⟨entries, hok, hscans, hentries⟩ | ⟨name, hne, herror, hnone⟩ :=
    catalogue_cases hquiet hfew hsole
  · -- every scan got through, so no name is tied and no tie came early
    have hnot : ¬∃ name, name ≠ "" ∧ u.Ambiguous (u.physical subprogram) subprogram pc name := by
      rintro ⟨name, hne, h⟩
      exact hscans name hne (htied name hne (.inl h))
    have hearly : ∀ name, name ≠ "" →
        ¬u.EarlyTie (u.physical subprogram) subprogram pc name := fun name hne h =>
      hscans name hne (htied name hne (.inr h))
    refine ⟨fun _ => .inr hearly, fun _ => ⟨⟨?_, fun h => absurd h hnot⟩, fun _ => ?_⟩⟩
    · rintro ⟨name, h⟩
      rw [hok] at h
      cases h
    · refine ⟨entries, hok, fun name kind => (hentries name kind).trans ?_⟩
      refine and_congr_right fun hne => exists_congr fun i => and_congr_left fun _ => ?_
      exact ((scan_candidates_iff (hdepths name hne)).mpr (hearly name hne)).1 i
  · constructor
    · rintro ⟨h, -⟩
      exact .inl (h.mp ⟨name, herror⟩)
    · rintro (h | hearly)
      · exact ⟨⟨fun _ => h, fun _ => ⟨name, herror⟩⟩, fun hnot => absurd h hnot⟩
      · have htie : ∃ name, name ≠ "" ∧ u.Ambiguous (u.physical subprogram) subprogram pc name :=
          ⟨name, hne, ((scan_candidates_iff (hdepths name hne)).mpr (hearly name hne)).2.mp hnone⟩
        exact ⟨⟨fun _ => htie, fun _ => ⟨name, herror⟩⟩, fun hnot => absurd htie hnot⟩

end Discovery

end DieUnit

end MiniDebugger
