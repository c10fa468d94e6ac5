import MiniDebugger.Checks
import MiniDebugger.Dwarf.ScopedSelection
import MiniDebugger.Elf.SymbolAddresses

/-!
# Names of the catalogue that inspection finds

`discover_local_values` lists names and `inspect_local_value` reads the value of one. The catalogue
accepts a subprogram with a range list and leaves inlined functions out; inspection knows low and
high addresses only and takes inlined functions for blocks. A name of the catalogue leads to the
entry the catalogue has chosen exactly where these differences do not show.
-/

namespace MiniDebugger

open Std (ExtTreeMap)

/-! ## Sections -/

/-- The frames `inspect_local_value` is asked about. At the innermost frame of a live tracee it first
looks for the symbol that owns the PC. -/
inductive FrameLookup where
  | current (owner : Except Exception (Option ModuleResolvedSymbol))
  | caller
  | snapshot

namespace FrameLookup

def texts : FrameLookup → DieUnit.LookupTexts
  | current _ => DieUnit.inspectUnitTexts
  | caller => DieUnit.inspectCallerStackUnitTexts
  | snapshot => DieUnit.inspectSnapshotUnitTexts

def uncovered : FrameLookup → String
  | current _ => "current PC is not covered by a supported DWARF4/5 subprogram"
  | caller => "inspection-frame PC is not covered by a supported DWARF4/5 subprogram"
  | snapshot =>
    "snapshot inspection-frame lookup PC is not covered by a supported DWARF4/5 subprogram"

/-- The search for the owner of the PC, made before the section is read. -/
def requireOwner : FrameLookup → Except Exception Unit
  | current owner => do
    if (← owner).isNone then
      throw (.runtimeError "current PC is not owned by a file-backed symbol module")
  | caller | snapshot => return ()

/-- A symbol owns the PC, where one is looked for. -/
def Owned : FrameLookup → Prop
  | current owner => ∃ symbol, owner = .ok (some symbol)
  | caller | snapshot => True

theorem requireOwner_eq_ok_iff {frame : FrameLookup} : frame.requireOwner = .ok () ↔ frame.Owned := by
  cases frame with
  | current owner =>
    rcases owner with e | _ | symbol
    · simp [requireOwner, Owned, Bind.bind, Except.bind]
    · simp [requireOwner, Owned, Bind.bind, Except.bind]
    · simp [requireOwner, Owned, Bind.bind, Except.bind, pure, Except.pure]
  | caller => exact iff_of_true rfl trivial
  | snapshot => exact iff_of_true rfl trivial

end FrameLookup

/-- The units of `.debug_info`, as far as they can be parsed. -/
abbrev DebugInfo : Type := List (Except Exception DieUnit)

/-- The place of an entry: its unit in the section and its position in the unit. -/
structure DieRef where
  unit : Nat
  index : Nat
  deriving DecidableEq, Repr

/-- The loop of `inspect_local_value` over the units, from unit number `unit` on. -/
def inspectFrom (frame : FrameLookup) (pc : Word) (name : String) (unit : Nat) :
    DebugInfo → Except Exception DieRef
  | [] => throw (.runtimeError frame.uncovered)
  | parsed :: rest => do
    let u ← parsed
    match ← u.selectLocal frame.texts pc name with
    | some index => return ⟨unit, index⟩
    | none => inspectFrom frame pc name (unit + 1) rest

/-- The entry `inspect_local_value` reads. -/
def inspectLocalValue (frame : FrameLookup) (info : DebugInfo) (pc : Word) (name : String) :
    Except Exception DieRef :=
  if name = "" then throw (.invalidArgument "local variable name must not be empty")
  else do
    frame.requireOwner
    inspectFrom frame pc name 0 info

/-- `discover_local_values`, whose two versions word one error differently. -/
def discoverLocalValues (uncovered : String) (ranges : List Byte) (pc : Word) :
    DebugInfo → Except Exception (List LocalDiscoveryEntry)
  | [] => throw (.runtimeError uncovered)
  | parsed :: rest => do
    let u ← parsed
    match ← u.discoverScopedLocalCatalogueUnit ranges pc with
    | some entries => return entries
    | none => discoverLocalValues uncovered ranges pc rest

namespace DieUnit

variable {u : DieUnit} {s i : u.Index} {pc : Word} {name : String} {texts : LookupTexts}
  {ranges : List Byte}

/-! ## Subprograms -/

section Search

variable {test : u.Index → Except Exception Bool} {text : String}

variable (u) in
/-- One round of a search for the subprogram that passes a test. -/
def searchStep (test : u.Index → Except Exception Bool) (text : String) (found : Option u.Index)
    (index : u.Index) : Except Exception (Option u.Index) := do
  if (u.die index).tag ≠ kDwTagSubprogram then return found
  if !(← test index) then return found
  if found.isSome then throw (.runtimeError text)
  return some index

theorem searchStep_ok {found result : Option u.Index}
    (h : u.searchStep test text found i = .ok result) :
    ((u.die i).tag ≠ kDwTagSubprogram ∧ result = found) ∨
    ((u.die i).tag = kDwTagSubprogram ∧ test i = .ok false ∧ result = found) ∨
    ((u.die i).tag = kDwTagSubprogram ∧ test i = .ok true ∧ found = none ∧ result = some i) := by
  unfold searchStep at h
  by_cases htag : (u.die i).tag = kDwTagSubprogram
  · rw [if_neg (not_not.mpr htag)] at h
    cases htest : test i with
    | error e =>
      rw [htest] at h
      cases h
    | ok inside =>
      rw [htest] at h
      dsimp only [Bind.bind, Except.bind] at h
      cases inside with
      | false =>
        cases h
        exact .inr (.inl ⟨htag, rfl, rfl⟩)
      | true =>
        rw [if_neg (by simp)] at h
        cases found with
        | some other => cases h
        | none =>
          cases h
          exact .inr (.inr ⟨htag, rfl, rfl, rfl⟩)
  · rw [if_pos htag] at h
    cases h
    exact .inl ⟨htag, rfl⟩

/-- What a search that ends has seen. -/
theorem foldlM_searchStep_ok {items : List u.Index} {found result : Option u.Index}
    (h : items.foldlM (u.searchStep test text) found = .ok result) :
    (∀ i ∈ items, (u.die i).tag = kDwTagSubprogram →
      test i = .ok false ∨ test i = .ok true ∧ found = none ∧ result = some i) ∧
    (∀ s, result = some s → found = some s ∨
      s ∈ items ∧ (u.die s).tag = kDwTagSubprogram ∧ test s = .ok true) ∧
    ∀ s, found = some s → result = some s := by
  induction items generalizing found with
  | nil =>
    cases h
    exact ⟨by simp, fun s hs => .inl hs, fun s hs => hs⟩
  | cons i items ih =>
    rw [List.foldlM_cons] at h
    cases hstep : u.searchStep test text found i with
    | error e =>
      rw [hstep] at h
      cases h
    | ok next =>
      rw [hstep] at h
      obtain ⟨hitems, hresult, hkeep⟩ := ih h
      obtain ⟨htag, rfl⟩ | ⟨htag, htest, rfl⟩ | ⟨htag, htest, rfl, rfl⟩ := searchStep_ok hstep
      · refine ⟨fun j hj hjtag => ?_, fun s hs => ?_, hkeep⟩
        · obtain rfl | hj := List.mem_cons.mp hj
          · exact absurd hjtag htag
          · exact hitems j hj hjtag
        · exact (hresult s hs).imp_right fun h => ⟨.tail _ h.1, h.2⟩
      · refine ⟨fun j hj hjtag => ?_, fun s hs => ?_, hkeep⟩
        · obtain rfl | hj := List.mem_cons.mp hj
          · exact .inl htest
          · exact hitems j hj hjtag
        · exact (hresult s hs).imp_right fun h => ⟨.tail _ h.1, h.2⟩
      · have hi := hkeep i rfl
        refine ⟨fun j hj hjtag => ?_, fun s hs => ?_, nofun⟩
        · obtain rfl | hj := List.mem_cons.mp hj
          · exact .inr ⟨htest, rfl, hi⟩
          · obtain hfalse | ⟨-, hnone, -⟩ := hitems j hj hjtag
            · exact .inl hfalse
            · cases hnone
        · rw [hi] at hs
          cases hs
          exact .inr ⟨.head _, htag, htest⟩

/-- The search finds the only subprogram that passes the test. -/
theorem search_ok {result : Option u.Index}
    (h : (List.finRange u.size).foldlM (u.searchStep test text) none = .ok result) :
    (∀ i, (u.die i).tag = kDwTagSubprogram → test i = .ok (decide (result = some i))) ∧
      ∀ s, result = some s → (u.die s).tag = kDwTagSubprogram := by
  obtain ⟨hitems, hresult, -⟩ := foldlM_searchStep_ok h
  refine ⟨fun i htag => ?_, fun s hs => ?_⟩
  · obtain hfalse | ⟨htrue, -, hi⟩ := hitems i (List.mem_finRange i) htag
    · by_cases hi : result = some i
      · obtain hnone | ⟨-, -, htrue⟩ := hresult i hi
        · cases hnone
        · rw [hfalse] at htrue
          cases htrue
      · rw [hfalse, decide_eq_false hi]
    · rw [htrue, decide_eq_true hi]
  · obtain hnone | ⟨-, htag, -⟩ := hresult s hs
    · cases hnone
    · exact htag

theorem search_none (h : ∀ i, (u.die i).tag = kDwTagSubprogram → test i = .ok false)
    (items : List u.Index) : items.foldlM (u.searchStep test text) none = .ok none := by
  induction items with
  | nil => rfl
  | cons i items ih =>
    have hstep : u.searchStep test text none i = .ok none := by
      unfold searchStep
      by_cases htag : (u.die i).tag = kDwTagSubprogram
      · rw [if_neg (not_not.mpr htag), h i htag]
        rfl
      · rw [if_pos htag]
        rfl
    rw [List.foldlM_cons, hstep]
    exact ih

end Search

/-- Both range tests say the same of a low and a high address; inspection has no other. -/
theorem containsPc_of_inlineScope {die : Die} {base : Word} {version : Nat} {inside : Bool}
    (h : die.inlineScopeContainsPc pc ranges base version = .ok inside) :
    die.containsPc pc = .ok (inside && die.hasRange) := by
  unfold Die.inlineScopeContainsPc at h
  unfold Die.containsPc Die.hasRange at *
  cases hlow : die.attribute kDwAtLowPc with
  | none =>
    rw [Bool.and_false]
    rfl
  | some low =>
    cases hhigh : die.attribute kDwAtHighPc with
    | none =>
      rw [hlow, hhigh] at h
      cases h
    | some high =>
      rw [hlow, hhigh] at h
      dsimp only at h ⊢
      by_cases hform : low.form = kDwFormAddr
      · rw [if_neg (not_not.mpr hform), if_neg (not_not.mpr hform)] at h
        rw [if_neg (not_not.mpr hform), decide_eq_true hform, Bool.and_true]
        exact h
      · rw [if_pos hform] at h
        cases h

variable (u) in
/-- The unit has this subprogram for the catalogue, or none. -/
def PhysicalSubprogram (ranges : List Byte) (pc : Word) (found : Option u.Index) : Prop :=
  ∃ base, u.compilationUnitBase = .ok base ∧ u.findPhysicalSubprogram pc ranges base = .ok found

theorem PhysicalSubprogram.containsPc {found : Option u.Index}
    (h : u.PhysicalSubprogram ranges pc found) (htag : (u.die i).tag = kDwTagSubprogram) :
    (u.die i).containsPc pc = .ok (decide (found = some i) && (u.die i).hasRange) := by
  obtain ⟨base, -, hfind⟩ := h
  exact containsPc_of_inlineScope ((search_ok hfind).1 i htag)

/-- Inspection passes by a unit where the catalogue finds no subprogram. -/
theorem PhysicalSubprogram.selectLocal_of_none (texts : LookupTexts) (name : String)
    (h : u.PhysicalSubprogram ranges pc none) : u.selectLocal texts pc name = .ok none := by
  have hfind : u.findSubprogram texts pc = .ok none :=
    search_none (fun i htag => by rw [h.containsPc htag]; rfl) _
  unfold selectLocal
  rw [hfind]
  rfl

/-- It passes by a subprogram with a range list as well. -/
theorem PhysicalSubprogram.selectLocal_of_unranged (texts : LookupTexts) (name : String)
    (h : u.PhysicalSubprogram ranges pc (some s)) (hrange : (u.die s).hasRange = false) :
    u.selectLocal texts pc name = .ok none := by
  have hfind : u.findSubprogram texts pc = .ok none := by
    refine search_none (fun i htag => ?_) _
    rw [h.containsPc htag]
    by_cases hi : i = s
    · rw [hi, hrange, Bool.and_false]
    · rw [decide_eq_false fun heq => hi (Option.some.inj heq).symm]
      rfl
  unfold selectLocal
  rw [hfind]
  rfl

theorem PhysicalSubprogram.sole (h : u.PhysicalSubprogram ranges pc (some s))
    (hrange : (u.die s).hasRange = true) : u.Sole pc s := by
  have htag : (u.die s).tag = kDwTagSubprogram := by
    obtain ⟨base, -, hfind⟩ := h
    exact (search_ok hfind).2 s rfl
  refine ⟨htag, fun i hi => ?_⟩
  rw [h.containsPc hi]
  by_cases heq : i = s
  · rw [heq, hrange, decide_eq_true rfl, decide_eq_true rfl]
    rfl
  · rw [decide_eq_false heq, decide_eq_false fun h => heq (Option.some.inj h).symm]
    rfl

/-! ## The catalogue of a unit -/

section Catalogue

/-- A catalogue that comes about: the unit has no subprogram for it, or lists what the scans of the
entries below it find. -/
theorem catalogue_of_ok {result : Option (List LocalDiscoveryEntry)}
    (h : u.discoverScopedLocalCatalogueUnit ranges pc = .ok result) :
    (u.PhysicalSubprogram ranges pc none ∧ result = none) ∨
    ∃ s selected, u.PhysicalSubprogram ranges pc (some s) ∧ result = some (listing selected) ∧
      u.Scanned s pc (List.finRange u.size) selected ∧
      (List.finRange u.size).foldlM (u.catalogueStep s pc) ∅ = .ok selected := by
  unfold discoverScopedLocalCatalogueUnit at h
  cases hbase : u.compilationUnitBase with
  | error e =>
    rw [hbase] at h
    cases h
  | ok base =>
    rw [hbase] at h
    dsimp only [Bind.bind, Except.bind] at h
    cases hfind : u.findPhysicalSubprogram pc ranges base with
    | error e =>
      rw [hfind] at h
      cases h
    | ok found =>
      rw [hfind] at h
      dsimp only at h
      cases found with
      | none =>
        cases h
        exact .inl ⟨⟨base, hbase, hfind⟩, rfl⟩
      | some s =>
        dsimp only at h
        cases hloop : (List.finRange u.size).foldlM (u.catalogueStep s pc) ∅ with
        | error e =>
          rw [hloop] at h
          cases h
        | ok selected =>
          rw [hloop] at h
          cases h
          exact .inr
            ⟨s, selected, ⟨base, hbase, hfind⟩, rfl, Scanned.start.foldlM_of_ok hloop, hloop⟩

end Catalogue

/-! ## Inspection of a listed name -/

section Inspection

theorem selectLocal_eq_some_iff (hsole : u.Sole pc s) :
    u.selectLocal texts pc name = .ok (some i) ↔
      (∀ j, (u.die j).isValue = true → u.Quiet s pc (· = name) j) ∧
        scanBest (u.depthOf u.everywhere s pc name) none (u.candidates u.everywhere s pc name) =
          some (some i) := by
  have hlookup : (∀ j, (u.die j).isValue = true → u.Quiet s pc (· = name) j) →
      (u.selectLocal texts pc name = .ok (some i) ↔
        scanBest (u.depthOf u.everywhere s pc name) none (u.candidates u.everywhere s pc name) =
          some (some i)) := by
    intro hquiet
    obtain ⟨hnames, hdepths⟩ := quiet_iff.mp hquiet
    have h := selectLocal_of_sole texts hsole hnames hdepths
    split at h
    case h_1 hscan => simp [hscan, h]
    case h_2 j hscan => simp [hscan, h]
    case h_3 hscan =>
      obtain h | h := h
      · simp [hscan, h]
      · simp [hscan, h]
  constructor
  · intro hok
    have hquiet : ∀ j, (u.die j).isValue = true → u.Quiet s pc (· = name) j :=
      fun j hvalue => quiet_of_ok hsole hok hvalue
    exact ⟨hquiet, (hlookup hquiet).mp hok⟩
  · rintro ⟨hquiet, hscan⟩
    exact (hlookup hquiet).mpr hscan

theorem candidateDepth_everywhere (h : u.physical s i = true) :
    u.candidateDepth u.everywhere s pc name i = u.candidateDepth (u.physical s) s pc name i := by
  unfold candidateDepth everywhere
  rw [h]

/-- The subprogram has a low and a high address, and no value of an inlined function gets in the way
of the entry: none makes the lookup throw, is as deep or ties before it. -/
structure Inspectable (u : DieUnit) (s : u.Index) (pc : Word) (name : String) (i : u.Index) :
    Prop where
  range : (u.die s).hasRange = true
  quiet : ∀ j, (u.die j).isValue = true → u.crossesInlineScope j s = true →
    u.Quiet s pc (· = name) j
  deeper : ∀ j, u.crossesInlineScope j s = true →
    ∀ d ∈ u.candidateDepth u.everywhere s pc name j, d < u.depthOf u.everywhere s pc name i
  untied : ¬TiesBefore (u.depthOf u.everywhere s pc name) (u.candidates u.everywhere s pc name) i

theorem quiet_of_loop {selected : ExtTreeMap String CatalogueCandidate} {j : u.Index}
    (hloop : (List.finRange u.size).foldlM (u.catalogueStep s pc) ∅ = .ok selected)
    (hvalue : (u.die j).isValue = true) (hcross : u.crossesInlineScope j s = false) :
    u.Quiet s pc (· ≠ "") j := by
  obtain ⟨left, right, hstep⟩ := foldlM_ok_of_mem hloop (List.mem_finRange j)
  exact quiet_of_catalogueStep hstep hvalue hcross

variable {selected : ExtTreeMap String CatalogueCandidate}
  (hsub : u.PhysicalSubprogram ranges pc (some s)) (hne : name ≠ "")
  (hloop : (List.finRange u.size).foldlM (u.catalogueStep s pc) ∅ = .ok selected)
  (hscan : u.scanPhysical s pc name (List.finRange u.size) = some (some i))
include hsub hne hloop hscan

omit hsub hscan in
/-- The catalogue met nothing to throw about outside inlined functions. -/
theorem quiet_of_catalogue {j : u.Index} (hvalue : (u.die j).isValue = true)
    (hcross : u.crossesInlineScope j s = false) : u.Quiet s pc (· = name) j := by
  obtain ⟨value, hname, hdepth⟩ := quiet_of_loop hloop hvalue hcross
  refine ⟨value, hname, fun a ha htext => hdepth a ha ?_⟩
  rw [htext]
  exact hne

omit hsub hne hloop in
/-- The entry of the catalogue is outside inlined functions and deepest there. -/
theorem highest_of_catalogue :
    Highest (u.depthOf (u.physical s) s pc name) (u.candidates (u.physical s) s pc name) i ∧
      u.physical s i = true := by
  have hhighest : Highest (u.depthOf (u.physical s) s pc name)
      (u.candidates (u.physical s) s pc name) i := highest_of_scanBest hscan
  refine ⟨hhighest, ?_⟩
  have hsome := (List.mem_filter.mp hhighest.1).2
  by_contra hphysical
  simp [candidateDepth, hphysical] at hsome

/-- Inspection finds the entry of the catalogue exactly when it is inspectable. -/
theorem selectLocal_iff_inspectable :
    u.selectLocal texts pc name = .ok (some i) ↔ u.Inspectable s pc name i := by
  obtain ⟨hhighest, hphysical⟩ := highest_of_catalogue hscan
  cases hrange : (u.die s).hasRange with
  | false =>
    rw [hsub.selectLocal_of_unranged texts name hrange]
    refine ⟨nofun, fun h => ?_⟩
    rw [h.range] at hrange
    cases hrange
  | true =>
    rw [selectLocal_eq_some_iff (hsub.sole hrange),
      scanBest_eq_some_iff_of_sorted candidates_sorted]
    have hdepth : ∀ j, u.physical s j = true → u.depthOf u.everywhere s pc name j =
        u.depthOf (u.physical s) s pc name j := by
      intro j hj
      rw [depthOf, depthOf, candidateDepth_everywhere hj]
    constructor
    · rintro ⟨hquiet, hall, hties⟩
      refine ⟨hrange, fun j hvalue _ => hquiet j hvalue, fun j hcross d hd => ?_, hties⟩
      have hd : u.candidateDepth u.everywhere s pc name j = some d := hd
      have hne : j ≠ i := by
        rintro rfl
        rw [physical, hcross] at hphysical
        cases hphysical
      have hlt := hall.2 j (List.mem_filter.mpr ⟨List.mem_finRange j, by simp [hd]⟩) hne
      rwa [depthOf_of_some hd] at hlt
    · intro h
      refine ⟨fun j hvalue => ?_, ⟨?_, fun j hj hne => ?_⟩, h.untied⟩
      · cases hcross : u.crossesInlineScope j s with
        | true => exact h.quiet j hvalue hcross
        | false => exact quiet_of_catalogue hne hloop hvalue hcross
      · have hmem := List.mem_filter.mp hhighest.1
        rw [← candidateDepth_everywhere hphysical] at hmem
        exact List.mem_filter.mpr hmem
      · obtain ⟨hmem, hsome⟩ := List.mem_filter.mp hj
        cases hcross : u.crossesInlineScope j s with
        | true =>
          obtain ⟨d, hd⟩ := Option.isSome_iff_exists.mp hsome
          rw [depthOf_of_some hd]
          exact h.deeper j hcross d hd
        | false =>
          have hj : u.physical s j = true := by rw [physical, hcross]; rfl
          rw [candidateDepth_everywhere hj] at hsome
          rw [hdepth j hj, hdepth i hphysical]
          exact hhighest.2 j (List.mem_filter.mpr ⟨hmem, hsome⟩) hne

end Inspection

end DieUnit

/-! ## Sections -/

section Sections

open DieUnit

variable {frame : FrameLookup} {uncovered : String} {ranges : List Byte} {pc : Word}
  {name : String} {kind : LocalDiscoveryKind} {entries : List LocalDiscoveryEntry}

/-- Inspection does not return to a unit it has passed. -/
theorem inspectFrom_unit {info : DebugInfo} {unit : Nat} {ref : DieRef}
    (h : inspectFrom frame pc name unit info = .ok ref) : unit ≤ ref.unit := by
  induction info generalizing unit with
  | nil => cases h
  | cons parsed rest ih =>
    unfold inspectFrom at h
    cases parsed with
    | error e => cases h
    | ok u =>
      dsimp only [Bind.bind, Except.bind] at h
      cases hselect : u.selectLocal frame.texts pc name with
      | error e =>
        rw [hselect] at h
        cases h
      | ok result =>
        rw [hselect] at h
        cases result with
        | some index =>
          cases h
          exact le_rfl
        | none =>
          have := ih h
          omega

/-- Inspection selects an entry of the unit it has come to. -/
theorem inspectFrom_eq_iff {rest : DebugInfo} {u : DieUnit} {unit : Nat} (i : u.Index) :
    inspectFrom frame pc name unit (.ok u :: rest) = .ok ⟨unit, i⟩ ↔
      u.selectLocal frame.texts pc name = .ok (some i) := by
  unfold inspectFrom
  dsimp only [Bind.bind, Except.bind]
  cases hselect : u.selectLocal frame.texts pc name with
  | error e => simp
  | ok result =>
    cases result with
    | some index => simp [Fin.ext_iff, pure, Except.pure]
    | none =>
      dsimp only
      refine ⟨fun h => ?_, nofun⟩
      have : unit + 1 ≤ unit := inspectFrom_unit h
      omega

/-- Both loops come to the same unit. -/
theorem discoverLocalValues_cases {info : DebugInfo}
    (h : discoverLocalValues uncovered ranges pc info = .ok entries) :
    ∃ before u after, info = before ++ .ok u :: after ∧
      u.discoverScopedLocalCatalogueUnit ranges pc = .ok (some entries) ∧
      ∀ frame name unit, inspectFrom frame pc name unit info =
        inspectFrom frame pc name (unit + before.length) (.ok u :: after) := by
  induction info with
  | nil => cases h
  | cons parsed rest ih =>
    unfold discoverLocalValues at h
    cases parsed with
    | error e => cases h
    | ok u =>
      dsimp only [Bind.bind, Except.bind] at h
      cases hcatalogue : u.discoverScopedLocalCatalogueUnit ranges pc with
      | error e =>
        rw [hcatalogue] at h
        cases h
      | ok result =>
        rw [hcatalogue] at h
        cases result with
        | some found =>
          cases h
          exact ⟨[], u, rest, rfl, hcatalogue, fun frame name unit => rfl⟩
        | none =>
          obtain ⟨before, v, after, hsplit, hv, hinspect⟩ := ih h
          refine ⟨.ok u :: before, v, after, by rw [hsplit]; rfl, hv, fun frame name unit => ?_⟩
          obtain ⟨hnone, -⟩ | ⟨s, selected, -, hsome, -⟩ := catalogue_of_ok hcatalogue
          · rw [inspectFrom]
            dsimp only [Bind.bind, Except.bind]
            rw [hnone.selectLocal_of_none frame.texts name]
            dsimp only
            rw [hinspect, List.length_cons, Nat.add_assoc, Nat.add_comm 1]
          · cases hsome

/-- A name of the catalogue stands for one entry, outside inlined functions, and inspection selects
that entry exactly when it is inspectable and a live PC is owned by a symbol. -/
theorem catalogue_inspectable {info : DebugInfo}
    (h : discoverLocalValues uncovered ranges pc info = .ok entries)
    (hmem : ⟨name, kind⟩ ∈ entries) :
    ∃ before u after, info = before ++ .ok u :: after ∧
      ∃ s i : u.Index, u.PhysicalSubprogram ranges pc (some s) ∧
        u.scanPhysical s pc name (List.finRange u.size) = some (some i) ∧
        (u.die i).discoveryKind = kind ∧
        ∀ frame, inspectLocalValue frame info pc name = .ok ⟨before.length, i⟩ ↔
          frame.Owned ∧ u.Inspectable s pc name i := by
  obtain ⟨before, u, after, hsplit, hcatalogue, hinspect⟩ := discoverLocalValues_cases h
  obtain ⟨-, hnone⟩ | ⟨s, selected, hsub, hsome, hscanned, hloop⟩ := catalogue_of_ok hcatalogue
  · cases hnone
  · cases hsome
    obtain ⟨hne, i, hscan, hkind⟩ := (hscanned.mem_listing name kind).mp hmem
    refine ⟨before, u, after, hsplit, s, i, hsub, hscan, hkind, fun frame => ?_⟩
    have hselect : inspectFrom frame pc name 0 info = .ok ⟨before.length, i⟩ ↔
        u.Inspectable s pc name i := by
      rw [hinspect frame name 0, Nat.zero_add, inspectFrom_eq_iff]
      exact selectLocal_iff_inspectable hsub hne hloop hscan
    rw [← hselect, ← FrameLookup.requireOwner_eq_ok_iff, inspectLocalValue, if_neg hne]
    exact Checks.bind_eq_ok.trans ⟨fun ⟨_, h⟩ => h, fun h => ⟨(), h⟩⟩

end Sections

/-- A function with a parameter `x`, in which a function with a variable `x` is inlined. -/
def inlinedUnit : DieUnit where
  dies := [⟨0x0b, 0x11, none, []⟩,
    ⟨0x10, kDwTagSubprogram, some 0, DieUnit.rangeAttributes 0x1000 0x100⟩,
    ⟨0x20, kDwTagFormalParameter, some 1, [DieUnit.nameAttribute "x"]⟩,
    ⟨0x30, kDwTagInlinedSubroutine, some 1, DieUnit.rangeAttributes 0x1008 0x10⟩,
    ⟨0x40, kDwTagVariable, some 3, [DieUnit.nameAttribute "x"]⟩]
  ascending := by decide
  rooted := by decide

def inlinedInfo : DebugInfo := [.ok inlinedUnit]

def discoveryUncovered : String :=
  "snapshot local discovery PC is not covered by a supported DWARF4/5 subprogram"

/-- Behind the inlined call the parameter is listed and inspected. -/
theorem catalogue_inspectable_parameter :
    inspectLocalValue .snapshot inlinedInfo 0x1030 "x" = .ok ⟨0, 2⟩ ∧
    ∃ (before : DebugInfo) (u : DieUnit) (after : DebugInfo),
      inlinedInfo = before ++ .ok u :: after ∧
      ∃ s i : u.Index, u.PhysicalSubprogram [] 0x1030 (some s) ∧
        u.scanPhysical s 0x1030 "x" (List.finRange u.size) = some (some i) ∧
        (u.die i).discoveryKind = .formalParameter ∧
        ∀ frame, inspectLocalValue frame inlinedInfo 0x1030 "x" = .ok ⟨before.length, i⟩ ↔
          frame.Owned ∧ u.Inspectable s 0x1030 "x" i := by
  have hlist : discoverLocalValues discoveryUncovered [] 0x1030 inlinedInfo =
      .ok [⟨"x", .formalParameter⟩] := by decide +kernel
  exact ⟨by decide +kernel, catalogue_inspectable hlist (by simp)⟩

/-- In the inlined call the catalogue lists the parameter and inspection selects the variable. -/
theorem inlined_variable_shadows_listed :
    discoverLocalValues discoveryUncovered [] 0x1010 inlinedInfo =
        .ok [⟨"x", .formalParameter⟩] ∧
      inspectLocalValue .snapshot inlinedInfo 0x1010 "x" = .ok ⟨0, 4⟩ ∧
      (inlinedUnit.die ⟨4, by decide⟩).discoveryKind = .variable := by
  decide +kernel

end MiniDebugger
