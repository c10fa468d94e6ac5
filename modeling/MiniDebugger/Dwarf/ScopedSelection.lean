import MiniDebugger.Dwarf.LocalLocality

/-!
# Which entry a name stands for

The four loops select the deepest entry of a name that is visible at the address, and report a tie
for the largest depth. They do so exactly when no two visible entries tie before the deepest one:
the loops throw at once where the tie would still be settled. Without such a tie the order of the
entries does not matter.
-/

namespace MiniDebugger

open Std (ExtTreeMap)

namespace DieUnit

variable (u : DieUnit)

/-- The lookup returns the deepest visible entry of the name, and reports that there are several. -/
def SelectsDeepest (texts : LookupTexts) (subprogram : u.Index) (pc : Word) (name : String) :
    Prop :=
  (∀ i, u.selectLocal texts pc name = .ok (some i) ↔
    u.Deepest u.everywhere subprogram pc name i) ∧
  (u.selectLocal texts pc name = .error (.runtimeError (texts.ambiguous ++ name)) ↔
    u.Ambiguous u.everywhere subprogram pc name)

/-- Some name has two entries of the largest depth. -/
def SomeAmbiguous (keep : u.Index → Bool) (subprogram : u.Index) (pc : Word) : Prop :=
  ∃ name, name ≠ "" ∧ u.Ambiguous keep subprogram pc name

/-- The catalogue reports that a name has several deepest entries, or lists the kinds of the deepest
entries of all names. -/
def ListsDeepest (keep : u.Index → Bool) (ranges : List Byte) (subprogram : u.Index) (pc : Word) :
    Prop :=
  ((∃ name, u.discoverScopedLocalCatalogueUnit ranges pc =
      .error (.runtimeError (ambiguousNameText name))) ↔ u.SomeAmbiguous keep subprogram pc) ∧
  (¬u.SomeAmbiguous keep subprogram pc →
    ∃ entries, u.discoverScopedLocalCatalogueUnit ranges pc = .ok (some entries) ∧
      ∀ name kind, ⟨name, kind⟩ ∈ entries ↔ name ≠ "" ∧ ∃ i,
        u.Deepest keep subprogram pc name i ∧ (u.die i).discoveryKind = kind)

/-- What the lookup of a name takes for granted: names can be read and scopes have ranges. -/
structure Lookable (pc : Word) (subprogram : u.Index) (name : String) : Prop where
  sole : u.Sole pc subprogram
  names : u.NamesResolve u.everywhere
  scopes : u.ScopesRanged u.everywhere name

/-- What the catalogue takes for granted. -/
structure Listable (ranges : List Byte) (pc : Word) (subprogram : u.Index) : Prop where
  sole : u.SolePhysical ranges pc subprogram
  names : u.NamesResolve (u.physical subprogram)
  scopes : ∀ name, u.ScopesRanged (u.physical subprogram) name
  few : u.FewNames subprogram pc

variable {u} {v : DieUnit} {s i j : u.Index} {t k : v.Index} {pc : Word} {name : String}
  {texts : LookupTexts} {ranges : List Byte} {keep : u.Index → Bool}

theorem Deepest.unique (hi : u.Deepest keep s pc name i) (hj : u.Deepest keep s pc name j) :
    j = i := by
  obtain ⟨depth, hcand, hall⟩ := hi
  obtain ⟨depth', hcand', hall'⟩ := hj
  by_contra hne
  have hlt := hall j depth' hcand' hne
  have hgt := hall' i depth hcand (Ne.symm hne)
  omega

theorem Deepest.not_ambiguous (hi : u.Deepest keep s pc name i) :
    ¬u.Ambiguous keep s pc name := by
  obtain ⟨depth, hcand, hall⟩ := hi
  rintro ⟨j, k, e, hne, hj, hk, hmax⟩
  have hle := hmax i depth hcand
  by_cases hij : j = i
  · have := hall k e hk (fun heq => hne (hij.trans heq.symm))
    omega
  · have := hall j e hj hij
    omega

theorem texts_differ (htexts : texts ∈ inspectionTexts) :
    texts.ambiguous ≠ texts.outside ∧ texts.ambiguous ≠ texts.missing ∧
      texts.outside ≠ texts.missing := by
  simp only [inspectionTexts, List.mem_cons, List.not_mem_nil, or_false] at htexts
  obtain rfl | rfl | rfl := htexts
  · decide
  · decide
  · decide

theorem Lookable.selectsDeepest_iff (h : u.Lookable pc s name) (htexts : texts ∈ inspectionTexts) :
    u.SelectsDeepest texts s pc name ↔ ¬u.EarlyTie u.everywhere s pc name :=
  selectLocal_iff h.sole h.names h.scopes (texts_differ htexts).1 (texts_differ htexts).2.1

/-- A lookup that succeeds read the name of every value. -/
theorem namesResolve_of_ok (hsole : u.Sole pc s)
    (h : u.selectLocal texts pc name = .ok (some i)) : u.NamesResolve u.everywhere := by
  intro j hvalue _
  obtain ⟨value, hname, -⟩ := quiet_of_ok hsole h hvalue
  exact ⟨value, hname⟩

/-- The deepest entry is selected exactly when all names can be read and no tie comes before it. -/
theorem selectLocal_deepest_iff (hsole : u.Sole pc s) (hscopes : u.ScopesRanged u.everywhere name)
    (htexts : texts ∈ inspectionTexts) (hi : u.Deepest u.everywhere s pc name i) :
    u.selectLocal texts pc name = .ok (some i) ↔
      u.NamesResolve u.everywhere ∧ ¬u.EarlyTie u.everywhere s pc name := by
  constructor
  · intro hok
    have hnames := namesResolve_of_ok hsole hok
    refine ⟨hnames, ?_⟩
    rw [← Lookable.selectsDeepest_iff ⟨hsole, hnames, hscopes⟩ htexts]
    refine ⟨fun j => ⟨fun hj => ?_, fun hj => ?_⟩, ⟨fun herror => ?_, fun h => ?_⟩⟩
    · rw [hok] at hj
      cases hj
      exact hi
    · rw [hi.unique hj]
      exact hok
    · rw [hok] at herror
      cases herror
    · exact absurd h hi.not_ambiguous
  · rintro ⟨hnames, hearly⟩
    have hselects := (Lookable.selectsDeepest_iff ⟨hsole, hnames, hscopes⟩ htexts).mpr hearly
    exact (hselects.1 i).mpr hi

theorem Listable.depths (h : u.Listable ranges pc s) (name : String) (_ : name ≠ "") :
    u.DepthsRead (u.physical s) s pc name :=
  (h.scopes name).depthsRead s pc

theorem Listable.listsDeepest_iff (h : u.Listable ranges pc s) :
    u.ListsDeepest (u.physical s) ranges s pc ↔
      u.SomeAmbiguous (u.physical s) s pc ∨
        ∀ name, name ≠ "" → ¬u.EarlyTie (u.physical s) s pc name :=
  catalogue_iff (quiet_physical_iff.mpr ⟨h.names, h.depths⟩) h.few h.sole

/-! ## Lookups that find nothing -/

variable (texts) in
/-- A loop that meets no candidate only learns whether the subprogram mentions the name. -/
theorem foldlM_of_none (h : u.Lookable pc s name) (items : List u.Index)
    (hnone : ∀ i ∈ items, u.candidateDepth u.everywhere s pc name i = none)
    (selection : LocalSelection u) :
    ∃ nested, items.foldlM (u.selectStep texts s pc name) selection =
        .ok { selection with nestedName := nested } ∧
      (nested = true ↔ selection.nestedName = true ∨ ∃ i ∈ items, u.Mentions s name i) := by
  induction items generalizing selection with
  | nil => exact ⟨selection.nestedName, rfl, by simp⟩
  | cons i items ih =>
    have hquiet := quiet_iff.mpr ⟨h.names, h.scopes.depthsRead s pc⟩ i
    obtain ⟨nested, hstep, hmention⟩ := selectStep_of_none texts hquiet selection (hnone i (.head _))
    obtain ⟨nested', hloop, hmentions⟩ := ih (fun j hj => hnone j (.tail _ hj))
      { selection with nestedName := nested }
    refine ⟨nested', ?_, ?_⟩
    · rw [List.foldlM_cons, hstep]
      exact hloop
    · rw [hmentions, hmention, List.exists_mem_cons_iff, or_assoc]

variable (texts) in
theorem Lookable.selectLocal_of_none (h : u.Lookable pc s name)
    (hnone : u.candidates u.everywhere s pc name = []) :
    ((∃ i, u.Mentions s name i) →
      u.selectLocal texts pc name = .error (.runtimeError (texts.outside ++ name))) ∧
    ((¬∃ i, u.Mentions s name i) →
      u.selectLocal texts pc name = .error (.runtimeError (texts.missing ++ name))) := by
  have hall : ∀ i ∈ List.finRange u.size, u.candidateDepth u.everywhere s pc name i = none := by
    intro i hi
    by_contra hsome
    have hmem : i ∈ u.candidates u.everywhere s pc name :=
      List.mem_filter.mpr ⟨hi, Option.isSome_iff_ne_none.mpr hsome⟩
    rw [hnone] at hmem
    cases hmem
  obtain ⟨nested, hloop, hmentions⟩ := foldlM_of_none texts h _ hall {}
  have hnested : nested = true ↔ ∃ i, u.Mentions s name i := by simpa using hmentions
  unfold selectLocal
  rw [h.sole.findSubprogram]
  dsimp only [Bind.bind, Except.bind]
  rw [hloop, ← hnested]
  cases nested with
  | true => exact ⟨fun _ => rfl, fun hnot => absurd rfl hnot⟩
  | false => exact ⟨fun htrue => by simp at htrue, fun _ => rfl⟩

/-! ## Entries in another order -/

section Order

variable {rel : u.Index → v.Index → Prop} {keep' : v.Index → Bool} {depth : Nat}

theorem Candidate.below (h : u.Candidate keep s pc name i depth) : u.isDescendantOf i s = true :=
  h.2.2.2.inside

theorem SharesSubprogram.candidateDepth (h : SharesSubprogram rel s t) (hik : rel i k)
    (hi : u.isDescendantOf i s = true) (hkeep : keep i = keep' k) :
    u.candidateDepth keep s pc name i = v.candidateDepth keep' t pc name k := by
  unfold DieUnit.candidateDepth
  rw [← h.isValue hik, ← hkeep, ← h.activeScopeDepth pc hik hi]
  obtain ⟨e, ha, hb⟩ | ⟨ha, hb⟩ | ⟨a, b, ha, hb, htext⟩ := h.name_cases hik
  · rw [ha, hb]
  · rw [ha, hb]
  · rw [ha, hb]
    dsimp only
    rw [htext]

/-- Two units with the same subprogram, whose lookups look at the same entries of it. -/
structure LooksAlike (rel : u.Index → v.Index → Prop) (s : u.Index) (t : v.Index)
    (keep : u.Index → Bool) (keep' : v.Index → Bool) (name : String) : Prop where
  shares : SharesSubprogram rel s t
  keeps : ∀ {i k}, rel i k → u.isDescendantOf i s = true → keep i = keep' k
  scopes : u.ScopesRanged keep name
  scopes' : v.ScopesRanged keep' name

variable (h : LooksAlike rel s t keep keep' name)
include h

theorem LooksAlike.candidate_iff (hik : rel i k) (hi : u.isDescendantOf i s = true) :
    u.Candidate keep s pc name i depth ↔ v.Candidate keep' t pc name k depth := by
  rw [← candidateDepth_eq_some_iff (h.scopes.depthsRead s pc i),
    ← candidateDepth_eq_some_iff (h.scopes'.depthsRead t pc k), h.shares.candidateDepth hik hi (h.keeps hik hi)]

theorem LooksAlike.candidate_right (hcand : u.Candidate keep s pc name i depth) :
    ∃ k, rel i k ∧ v.Candidate keep' t pc name k depth := by
  have hi := hcand.below
  obtain ⟨k, -, hik⟩ := h.shares.total i hi
  exact ⟨k, hik, (h.candidate_iff hik hi).mp hcand⟩

theorem LooksAlike.candidate_left (hcand : v.Candidate keep' t pc name k depth) :
    ∃ i, rel i k ∧ u.Candidate keep s pc name i depth := by
  obtain ⟨i, hi, hik⟩ := h.shares.onto k hcand.below
  exact ⟨i, hik, (h.candidate_iff hik hi).mpr hcand⟩

theorem LooksAlike.deepest_right (hi : u.Deepest keep s pc name i) :
    ∃ k, rel i k ∧ v.Deepest keep' t pc name k := by
  obtain ⟨depth, hcand, hall⟩ := hi
  obtain ⟨k, hik, hcand'⟩ := h.candidate_right hcand
  refine ⟨k, hik, depth, hcand', fun l e hl hne => ?_⟩
  obtain ⟨j, hjl, hj⟩ := h.candidate_left hl
  exact hall j e hj fun heq => hne ((h.shares.single hjl hik).mp heq)

theorem LooksAlike.deepest_left (hk : v.Deepest keep' t pc name k) :
    ∃ i, rel i k ∧ u.Deepest keep s pc name i := by
  obtain ⟨depth, hcand, hall⟩ := hk
  obtain ⟨i, hik, hcand'⟩ := h.candidate_left hcand
  refine ⟨i, hik, depth, hcand', fun j e hj hne => ?_⟩
  obtain ⟨l, hjl, hl⟩ := h.candidate_right hj
  exact hall l e hl fun heq => hne ((h.shares.single hjl hik).mpr heq)

theorem LooksAlike.ambiguous_iff :
    u.Ambiguous keep s pc name ↔ v.Ambiguous keep' t pc name := by
  constructor
  · rintro ⟨i, j, depth, hne, hi, hj, hmax⟩
    obtain ⟨k, hik, hk⟩ := h.candidate_right hi
    obtain ⟨l, hjl, hl⟩ := h.candidate_right hj
    refine ⟨k, l, depth, fun heq => hne ((h.shares.single hik hjl).mpr heq), hk, hl, ?_⟩
    intro m e hm
    obtain ⟨n, -, hn⟩ := h.candidate_left hm
    exact hmax n e hn
  · rintro ⟨k, l, depth, hne, hk, hl, hmax⟩
    obtain ⟨i, hik, hi⟩ := h.candidate_left hk
    obtain ⟨j, hjl, hj⟩ := h.candidate_left hl
    refine ⟨i, j, depth, fun heq => hne ((h.shares.single hik hjl).mp heq), hi, hj, ?_⟩
    intro m e hm
    obtain ⟨n, -, hn⟩ := h.candidate_right hm
    exact hmax n e hn

/-- Without early ties both scans end at the same entry, or both give up. -/
theorem LooksAlike.scan (hu : ¬u.EarlyTie keep s pc name) (hv : ¬v.EarlyTie keep' t pc name) :
    Option.Rel (Option.Rel rel)
      (scanBest (u.depthOf keep s pc name) none (u.candidates keep s pc name))
      (scanBest (v.depthOf keep' t pc name) none (v.candidates keep' t pc name)) := by
  obtain ⟨hdeepest, htied⟩ := (scan_candidates_iff (h.scopes.depthsRead s pc)).mpr hu
  obtain ⟨hdeepest', htied'⟩ := (scan_candidates_iff (h.scopes'.depthsRead t pc)).mpr hv
  cases hscan : scanBest (u.depthOf keep s pc name) none (u.candidates keep s pc name) with
  | none =>
    rw [htied'.mpr (h.ambiguous_iff.mp (htied.mp hscan))]
    exact .none
  | some best =>
    cases best with
    | some i =>
      obtain ⟨k, hik, hk⟩ := h.deepest_right ((hdeepest i).mp hscan)
      rw [(hdeepest' k).mpr hk]
      exact .some (.some hik)
    | none =>
      cases hscan' : scanBest (v.depthOf keep' t pc name) none (v.candidates keep' t pc name) with
      | none =>
        rw [htied.mpr (h.ambiguous_iff.mpr (htied'.mp hscan'))] at hscan
        cases hscan
      | some best' =>
        cases best' with
        | none => exact .some .none
        | some k =>
          obtain ⟨i, -, hi⟩ := h.deepest_left ((hdeepest' k).mp hscan')
          rw [(hdeepest i).mpr hi] at hscan
          cases hscan

end Order

section OrderFree

variable {rel : u.Index → v.Index → Prop}

theorem candidates_eq_nil {keep : u.Index → Bool}
    (h : scanBest (u.depthOf keep s pc name) none (u.candidates keep s pc name) = some none) :
    u.candidates keep s pc name = [] := by
  obtain ⟨hnil, -⟩ | ⟨b, -, hbest, -⟩ := scanBest_cases h
  · exact hnil
  · cases hbest

theorem SharesSubprogram.mentions_iff (h : SharesSubprogram rel s t) :
    (∃ i, u.Mentions s name i) ↔ ∃ k, v.Mentions t name k := by
  have hnamed : ∀ {i k}, rel i k → (u.Named i name ↔ v.Named k name) := by
    intro i k hik
    unfold Named
    obtain ⟨e, ha, hb⟩ | ⟨ha, hb⟩ | ⟨a, b, ha, hb, htext⟩ := h.name_cases hik
    · simp [ha, hb]
    · simp [ha, hb]
    · simp [ha, hb, htext]
  constructor
  · rintro ⟨i, hvalue, hname, hi⟩
    obtain ⟨k, hk, hik⟩ := h.total i hi
    exact ⟨k, h.isValue hik ▸ hvalue, (hnamed hik).mp hname, hk⟩
  · rintro ⟨k, hvalue, hname, hk⟩
    obtain ⟨i, hi, hik⟩ := h.onto k hk
    exact ⟨i, h.isValue hik ▸ hvalue, (hnamed hik).mpr hname, hi⟩

/-- Without early ties the lookup gives the same answer whatever the order of the entries. -/
theorem agree_selectLocal_of_shares (texts : LookupTexts) (h : SharesSubprogram rel s t)
    (hu : u.Lookable pc s name) (hv : v.Lookable pc t name)
    (hearly : ¬u.EarlyTie u.everywhere s pc name) (hearly' : ¬v.EarlyTie v.everywhere t pc name) :
    Agree (Option.Rel rel) (u.selectLocal texts pc name) (v.selectLocal texts pc name) := by
  have hlook : LooksAlike rel s t u.everywhere v.everywhere name :=
    ⟨h, fun _ _ => rfl, hu.scopes, hv.scopes⟩
  have hscan := hlook.scan hearly hearly'
  have hleft := selectLocal_of_sole texts hu.sole hu.names (hu.scopes.depthsRead s pc)
  have hright := selectLocal_of_sole texts hv.sole hv.names (hv.scopes.depthsRead t pc)
  have hnone := fun hscan => hu.selectLocal_of_none texts (candidates_eq_nil hscan)
  have hnone' := fun hscan => hv.selectLocal_of_none texts (candidates_eq_nil hscan)
  generalize scanBest (u.depthOf u.everywhere s pc name) none
    (u.candidates u.everywhere s pc name) = left at hscan hleft hnone
  generalize scanBest (v.depthOf v.everywhere t pc name) none
    (v.candidates v.everywhere t pc name) = right at hscan hright hnone'
  cases hscan with
  | none =>
    rw [hleft, hright]
    exact .error _
  | some hbest =>
    cases hbest with
    | some hik =>
      rw [hleft, hright]
      exact .ok (.some hik)
    | none =>
      by_cases hmention : ∃ i, u.Mentions s name i
      · rw [(hnone rfl).1 hmention, (hnone' rfl).1 (h.mentions_iff.mp hmention)]
        exact .error _
      · rw [(hnone rfl).2 hmention, (hnone' rfl).2 fun hk => hmention (h.mentions_iff.mpr hk)]
        exact .error _

theorem SharesSubprogram.looksAlike_physical (h : SharesSubprogram rel s t)
    (hu : u.Listable ranges pc s) (hv : v.Listable ranges pc t) (name : String) :
    LooksAlike rel s t (u.physical s) (v.physical t) name := by
  refine ⟨h, fun hik hi => ?_, hu.scopes name, hv.scopes name⟩
  unfold physical
  rw [h.crossesInlineScope hik hi]

/-- Related scans leave the same catalogue. -/
theorem Scanned.eq_of_shares {selected selected' : ExtTreeMap String CatalogueCandidate}
    (h : SharesSubprogram rel s t) (hu : u.Listable ranges pc s) (hv : v.Listable ranges pc t)
    (hearly : ∀ name, name ≠ "" → ¬u.EarlyTie (u.physical s) s pc name)
    (hearly' : ∀ name, name ≠ "" → ¬v.EarlyTie (v.physical t) t pc name)
    (hscanned : u.Scanned s pc (List.finRange u.size) selected)
    (hscanned' : v.Scanned t pc (List.finRange v.size) selected') : selected = selected' := by
  refine ExtTreeMap.ext_getElem? fun name => ?_
  by_cases hne : name = ""
  · rw [hne, hscanned.unnamed, hscanned'.unnamed]
  · have hlook := h.looksAlike_physical hu hv name
    obtain ⟨best, hbest, hget⟩ := hscanned.scanned name hne
    obtain ⟨best', hbest', hget'⟩ := hscanned'.scanned name hne
    have hscan : Option.Rel (Option.Rel rel) (u.scanPhysical s pc name (List.finRange u.size))
        (v.scanPhysical t pc name (List.finRange v.size)) :=
      hlook.scan (hearly name hne) (hearly' name hne)
    rw [hbest, hbest'] at hscan
    rw [hget, hget']
    cases hscan with
    | some hsame =>
      cases hsame with
      | none => rfl
      | @some i k hik =>
        have hdeepest := ((scan_candidates_iff (hlook.scopes.depthsRead s pc)).mpr (hearly name hne)).1 i
        obtain ⟨depth, hcand, -⟩ := hdeepest.mp hbest
        have hi := hcand.below
        rw [Option.map_some, Option.map_some, depthOf, depthOf,
          h.candidateDepth hik hi (hlook.keeps hik hi), h.discoveryKind hik]

/-- Without early ties the catalogue does not depend on the order of the entries, either: both
report an ambiguous name or both list the same. -/
theorem catalogue_of_shares (h : SharesSubprogram rel s t)
    (hu : u.Listable ranges pc s) (hv : v.Listable ranges pc t)
    (hearly : ∀ name, name ≠ "" → ¬u.EarlyTie (u.physical s) s pc name)
    (hearly' : ∀ name, name ≠ "" → ¬v.EarlyTie (v.physical t) t pc name) :
    ((∃ name, u.discoverScopedLocalCatalogueUnit ranges pc =
        .error (.runtimeError (ambiguousNameText name))) ∧
      ∃ name, v.discoverScopedLocalCatalogueUnit ranges pc =
        .error (.runtimeError (ambiguousNameText name))) ∨
    u.discoverScopedLocalCatalogueUnit ranges pc =
      v.discoverScopedLocalCatalogueUnit ranges pc := by
  have hlists := hu.listsDeepest_iff.mpr (.inr hearly)
  have hlists' := hv.listsDeepest_iff.mpr (.inr hearly')
  have hsame : u.SomeAmbiguous (u.physical s) s pc ↔ v.SomeAmbiguous (v.physical t) t pc := by
    refine exists_congr fun name => and_congr_right fun _ => ?_
    exact (h.looksAlike_physical hu hv name).ambiguous_iff
  by_cases hambiguous : u.SomeAmbiguous (u.physical s) s pc
  · exact .inl ⟨hlists.1.mpr hambiguous, hlists'.1.mpr (hsame.mp hambiguous)⟩
  · right
    obtain ⟨selected, hok, hscanned⟩ | ⟨name, -, herror, -⟩ :=
      catalogue_scanned (quiet_physical_iff.mpr ⟨hu.names, hu.depths⟩) hu.few hu.sole
    · obtain ⟨selected', hok', hscanned'⟩ | ⟨name, -, herror, -⟩ :=
        catalogue_scanned (quiet_physical_iff.mpr ⟨hv.names, hv.depths⟩) hv.few hv.sole
      · rw [hok, hok', hscanned.eq_of_shares h hu hv hearly hearly' hscanned']
      · exact absurd (hsame.mpr (hlists'.1.mp ⟨name, herror⟩)) hambiguous
    · exact absurd (hlists.1.mp ⟨name, herror⟩) hambiguous

end OrderFree

/-! ## The four lookups -/

/-- Where nothing visible belongs to an inlined function, the catalogue sees all that is visible. -/
theorem candidate_physical
    (h : ∀ name i depth, u.Candidate u.everywhere s pc name i depth → u.physical s i = true) :
    u.Candidate (u.physical s) s pc = u.Candidate u.everywhere s pc := by
  funext name i depth
  refine propext ⟨fun hcand => ?_, fun hcand => ?_⟩
  · exact ⟨hcand.1, rfl, hcand.2.2⟩
  · exact ⟨hcand.1, h name i depth hcand, hcand.2.2⟩

/-- The lookups of a name and the catalogue select the deepest visible entries exactly when no tie
comes before them, and then the order of the entries does not matter. -/
theorem scoped_selection (hsole : u.Sole pc s) :
    (∀ texts ∈ inspectionTexts, ∀ name, u.ScopesRanged u.everywhere name →
      (u.NamesResolve u.everywhere →
        (u.SelectsDeepest texts s pc name ↔ ¬u.EarlyTie u.everywhere s pc name)) ∧
      ∀ i, u.Deepest u.everywhere s pc name i →
        (u.selectLocal texts pc name = .ok (some i) ↔
          u.NamesResolve u.everywhere ∧ ¬u.EarlyTie u.everywhere s pc name)) ∧
    (∀ ranges, u.Listable ranges pc s →
      (u.ListsDeepest (u.physical s) ranges s pc ↔
        u.SomeAmbiguous (u.physical s) s pc ∨
          ∀ name, name ≠ "" → ¬u.EarlyTie (u.physical s) s pc name) ∧
      ((∀ name i depth, u.Candidate u.everywhere s pc name i depth → u.physical s i = true) →
        (u.ListsDeepest u.everywhere ranges s pc ↔
          u.SomeAmbiguous u.everywhere s pc ∨
            ∀ name, name ≠ "" → ¬u.EarlyTie u.everywhere s pc name))) ∧
    ∀ (v : DieUnit) (t : v.Index) (rel : u.Index → v.Index → Prop), SharesSubprogram rel s t →
      (∀ texts ∈ inspectionTexts, ∀ name, u.Lookable pc s name → v.Lookable pc t name →
        ¬u.EarlyTie u.everywhere s pc name → ¬v.EarlyTie v.everywhere t pc name →
        Agree (Option.Rel rel) (u.selectLocal texts pc name) (v.selectLocal texts pc name)) ∧
      ∀ ranges, u.Listable ranges pc s → v.Listable ranges pc t →
        (∀ name, name ≠ "" → ¬u.EarlyTie (u.physical s) s pc name) →
        (∀ name, name ≠ "" → ¬v.EarlyTie (v.physical t) t pc name) →
        ((∃ name, u.discoverScopedLocalCatalogueUnit ranges pc =
            .error (.runtimeError (ambiguousNameText name))) ∧
          ∃ name, v.discoverScopedLocalCatalogueUnit ranges pc =
            .error (.runtimeError (ambiguousNameText name))) ∨
        u.discoverScopedLocalCatalogueUnit ranges pc =
          v.discoverScopedLocalCatalogueUnit ranges pc := by
  refine ⟨fun texts htexts name hscopes => ⟨fun hnames => ?_, fun i hi => ?_⟩,
    fun ranges h => ⟨h.listsDeepest_iff, fun hall => ?_⟩,
    fun v t rel h => ⟨fun texts _ name hu hv => ?_, fun ranges hu hv => ?_⟩⟩
  · exact Lookable.selectsDeepest_iff ⟨hsole, hnames, hscopes⟩ htexts
  · exact selectLocal_deepest_iff hsole hscopes htexts hi
  · have hlists := h.listsDeepest_iff
    unfold ListsDeepest SomeAmbiguous Ambiguous EarlyTie Deepest at hlists ⊢
    rwa [candidate_physical hall] at hlists
  · exact agree_selectLocal_of_shares texts h hu hv
  · exact catalogue_of_shares h hu hv

/-! ## An example -/

section Computed

variable (hscopes : u.ScopesRanged keep name)
include hscopes

theorem deepest_of_computed (depth : Nat) (hi : u.candidateDepth keep s pc name i = some depth)
    (hall : ∀ j, j ≠ i → ∀ e ∈ u.candidateDepth keep s pc name j, e < depth) :
    u.Deepest keep s pc name i := by
  refine ⟨depth, (candidateDepth_eq_some_iff (hscopes.depthsRead s pc i)).mp hi, fun j e hj hne => ?_⟩
  exact hall j hne e ((candidateDepth_eq_some_iff (hscopes.depthsRead s pc j)).mpr hj)

theorem not_earlyTie_of_computed (hi : u.Deepest keep s pc name i)
    (hnone : ∀ j < i, u.candidateDepth keep s pc name j = none) :
    ¬u.EarlyTie keep s pc name := by
  rintro ⟨i', hi', j, k, depth, hjk, hki, hj, -⟩
  cases hi.unique hi'
  have hdepth := (candidateDepth_eq_some_iff (hscopes.depthsRead s pc j)).mpr hj
  rw [hnone j (hjk.trans hki)] at hdepth
  cases hdepth

end Computed

theorem namesResolve_of_computed
    (h : ∀ i, (u.attributeWithAbstractOrigin i kDwAtName).toBool = true) :
    u.NamesResolve keep := by
  intro i _ _
  cases hvalue : u.attributeWithAbstractOrigin i kDwAtName with
  | ok value => exact ⟨value, rfl⟩
  | error e =>
    have hi := h i
    rw [hvalue] at hi
    cases hi

theorem scopesRanged_of_computed
    (h : ∀ i, (u.die i).isScope = true → ∃ r ∈ (u.die i).range, r.2 < 2 ^ 64) :
    u.ScopesRanged keep name := by
  intro i _ _ _ j _ hscope
  obtain ⟨⟨first, last⟩, hrange, hlast⟩ := h j hscope
  exact ⟨first, last, hrange, hlast⟩

/-- A function with two variables `x` and a third one in a block. -/
def shadowedLast : DieUnit where
  dies := [⟨0x0b, 0x11, none, []⟩,
    ⟨0x10, kDwTagSubprogram, some 0, rangeAttributes 0x1000 0x100⟩,
    ⟨0x20, kDwTagVariable, some 1, [nameAttribute "x"]⟩,
    ⟨0x30, kDwTagVariable, some 1, [nameAttribute "x"]⟩,
    ⟨0x40, kDwTagLexicalBlock, some 1, rangeAttributes 0x1000 0x80⟩,
    ⟨0x50, kDwTagVariable, some 4, [nameAttribute "x"]⟩]
  ascending := by decide
  rooted := by decide

/-- The same function, with the block in front. -/
def shadowedFirst : DieUnit where
  dies := [⟨0x0b, 0x11, none, []⟩,
    ⟨0x10, kDwTagSubprogram, some 0, rangeAttributes 0x1000 0x100⟩,
    ⟨0x20, kDwTagLexicalBlock, some 1, rangeAttributes 0x1000 0x80⟩,
    ⟨0x30, kDwTagVariable, some 2, [nameAttribute "x"]⟩,
    ⟨0x40, kDwTagVariable, some 1, [nameAttribute "x"]⟩,
    ⟨0x50, kDwTagVariable, some 1, [nameAttribute "x"]⟩]
  ascending := by decide
  rooted := by decide

theorem shadowedFirst_scopes : shadowedFirst.ScopesRanged shadowedFirst.everywhere "x" :=
  scopesRanged_of_computed (by decide +kernel)

theorem shadowedLast_scopes : shadowedLast.ScopesRanged shadowedLast.everywhere "x" :=
  scopesRanged_of_computed (by decide +kernel)

theorem shadowedFirst_deepest :
    shadowedFirst.Deepest shadowedFirst.everywhere ⟨1, by decide⟩ 0x1010 "x" ⟨3, by decide⟩ :=
  deepest_of_computed shadowedFirst_scopes 1 (by decide +kernel) (by decide +kernel)

/-- The `x` of the block is found where it comes first. -/
theorem scoped_selection_shadowed :
    shadowedFirst.inspectUnit 0x1010 "x" = .ok (some ⟨3, by decide⟩) := by
  have hsole : shadowedFirst.Sole 0x1010 ⟨1, by decide⟩ := ⟨by decide, by decide +kernel⟩
  have h := (scoped_selection hsole).1 inspectUnitTexts (by simp [inspectionTexts]) "x"
    shadowedFirst_scopes
  refine (h.2 ⟨3, by decide⟩ shadowedFirst_deepest).mpr ⟨?_, ?_⟩
  · exact namesResolve_of_computed (by decide +kernel)
  · exact not_earlyTie_of_computed shadowedFirst_scopes shadowedFirst_deepest (by decide +kernel)

/-- The `x` of the block is the only deepest one, and the lookup calls the name ambiguous. -/
theorem shadowed_name_ambiguous :
    shadowedLast.Lookable 0x1010 ⟨1, by decide⟩ "x" ∧
      shadowedLast.Deepest shadowedLast.everywhere ⟨1, by decide⟩ 0x1010 "x" ⟨5, by decide⟩ ∧
      shadowedLast.inspectUnit 0x1010 "x" =
        .error (.runtimeError "ambiguous local value in current lexical scope: x") ∧
      shadowedLast.discoverScopedLocalCatalogueUnit [] 0x1010 =
        .error (.runtimeError "ambiguous active local name at equal lexical depth: x") := by
  refine ⟨⟨⟨by decide, by decide +kernel⟩, ?_, shadowedLast_scopes⟩, ?_, by decide +kernel,
    by decide +kernel⟩
  · exact namesResolve_of_computed (by decide +kernel)
  · exact deepest_of_computed shadowedLast_scopes 1 (by decide +kernel) (by decide +kernel)

end DieUnit

end MiniDebugger
