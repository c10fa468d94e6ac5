import MiniDebugger.Dwarf.LocalCatalogue
import MiniDebugger.Dwarf.UnitMatch

/-!
# Lookups of a name depend on one subprogram

The loops visit every value of the unit before they know which subprogram it belongs to. Where this
throws for no value outside the subprogram the lookup depends only on what the subprogram contains;
where it throws for one, the whole lookup fails, unless it has failed before inside the subprogram.
-/

namespace MiniDebugger

open Std (ExtTreeMap)

namespace DieUnit

variable {u v : DieUnit} {s i : u.Index} {t k : v.Index} {pc : Word} {name : String}
  {texts : LookupTexts} {keep : u.Index → Bool} {l items : List u.Index}

/-! ## Values outside the subprogram -/

theorem ActiveChain.inside {depth : Nat} (h : u.ActiveChain s pc i depth) :
    i = s ∨ u.isDescendantOf i s = true := by
  induction h with
  | subprogram => exact .inl rfl
  | scope _ _ _ hparent _ ih =>
    right
    rw [isDescendantOf_of_some hparent]
    obtain hroot | hdesc := ih
    · rw [if_pos hroot]
    · split
      · rfl
      · exact hdesc

/-- Only what is below the subprogram is visible in it. -/
theorem Visible.inside {depth : Nat} (h : u.Visible s pc i depth) :
    u.isDescendantOf i s = true := by
  obtain ⟨p, hparent, hchain⟩ := h
  rw [isDescendantOf_of_some hparent]
  obtain hroot | hdesc := hchain.inside
  · rw [if_pos hroot]
  · split
    · rfl
    · exact hdesc

theorem activeScopeDepth_outside {depth : Option Nat} (hi : u.isDescendantOf i s = false)
    (h : u.activeScopeDepth i s pc = .ok depth) : depth = none := by
  cases depth with
  | none => rfl
  | some d =>
    rw [((activeScopeDepth_of_ok h d).mp rfl).inside] at hi
    cases hi

variable (u) in
/-- Two candidates before the entry share a depth that none before the second exceeds. -/
def TiedBefore (keep : u.Index → Bool) (s : u.Index) (pc : Word) (name : String) (i : u.Index) :
    Prop :=
  ∃ j k depth, j < k ∧ k < i ∧ u.Candidate keep s pc name j depth ∧
    u.Candidate keep s pc name k depth ∧ ∀ m e, m < k → u.Candidate keep s pc name m e → e ≤ depth

variable (u) in
/-- The lookup of the name fails inside the subprogram before it gets to the entry: a value there
cannot be read, or two values tie. -/
def FailsBefore (s : u.Index) (pc : Word) (name : String) (i : u.Index) : Prop :=
  (∃ j < i, u.isDescendantOf j s = true ∧ (u.die j).isValue = true ∧
    ¬u.Quiet s pc (· = name) j) ∨ u.TiedBefore u.everywhere s pc name i

variable (u) in
/-- A lookup of the name throws at no value outside the subprogram that it gets to. -/
def OutsideQuiet (s : u.Index) (pc : Word) (name : String) : Prop :=
  ∀ i, u.isDescendantOf i s = false → (u.die i).isValue = true → ¬u.FailsBefore s pc name i →
    u.Quiet s pc (· = name) i

variable (u) in
/-- The values before the entry bear no more names than the catalogue holds. -/
def FewBefore (s : u.Index) (pc : Word) (i : u.Index) : Prop :=
  ∃ names : List String, names.length ≤ kMaxDiscoveredLocals ∧ ∀ name j depth, name ≠ "" →
    j < i → u.Candidate (u.physical s) s pc name j depth → name ∈ names

variable (u) in
/-- The catalogue fails inside the subprogram before it gets to the entry: a value there cannot be
read, two values of a name tie, or the names are too many. -/
def CatalogueFailsBefore (s : u.Index) (pc : Word) (i : u.Index) : Prop :=
  (∃ j < i, u.isDescendantOf j s = true ∧ (u.die j).isValue = true ∧
    u.crossesInlineScope j s = false ∧ ¬u.Quiet s pc (· ≠ "") j) ∨
  (∃ name, name ≠ "" ∧ u.TiedBefore (u.physical s) s pc name i) ∨ ¬u.FewBefore s pc i

variable (u) in
/-- The catalogue throws at no value outside the subprogram that it gets to. -/
def CatalogueQuiet (s : u.Index) (pc : Word) : Prop :=
  ∀ i, u.isDescendantOf i s = false → (u.die i).isValue = true →
    u.crossesInlineScope i s = false → ¬u.CatalogueFailsBefore s pc i → u.Quiet s pc (· ≠ "") i

theorem selectStep_outside (hquiet : (u.die i).isValue = true → u.Quiet s pc (· = name) i)
    (selection : LocalSelection u) (hi : u.isDescendantOf i s = false) :
    u.selectStep texts s pc name selection i = .ok selection := by
  unfold selectStep
  cases hvalue : (u.die i).isValue with
  | false => rfl
  | true =>
    obtain ⟨value, hname, hdepth⟩ := hquiet hvalue
    rw [hname]
    cases value with
    | none => rfl
    | some a =>
      dsimp only [Bind.bind, Except.bind]
      by_cases htext : a.text = name
      · obtain ⟨depth, hdepth⟩ := hdepth a rfl htext
        rw [if_neg (by simp), if_neg (not_not.mpr htext), hdepth,
          activeScopeDepth_outside hi hdepth]
        dsimp only
        rw [if_neg (by simp [hi])]
        rfl
      · rw [if_neg (by simp), if_pos htext]
        rfl

theorem catalogueStep_outside (hquiet : (u.die i).isValue = true →
      u.crossesInlineScope i s = false → u.Quiet s pc (· ≠ "") i)
    (selected : ExtTreeMap String CatalogueCandidate) (hi : u.isDescendantOf i s = false) :
    u.catalogueStep s pc selected i = .ok selected := by
  obtain ⟨hstep, -⟩ | ⟨name, depth, -, hdepth, -⟩ := catalogueStep_cases hquiet selected
  · exact hstep
  · rw [(Candidate.of_depth hdepth).2.2.2.inside] at hi
    cases hi

/-! ## Where a loop fails -/

section Prefix

theorem mem_of_prefix {r : List u.Index} {k m : u.Index} (hsplit : List.finRange u.size = l ++ r)
    (hk : k ∈ l) (hlt : m < k) : m ∈ l := by
  have hsorted := List.pairwise_lt_finRange u.size
  have hm := List.mem_finRange m
  rw [hsplit] at hsorted hm
  obtain hm | hm := List.mem_append.mp hm
  · exact hm
  · exact absurd ((List.pairwise_append.mp hsorted).2.2 k hk m hm) hlt.not_gt

theorem mem_prefix_iff {r : List u.Index} {j : u.Index}
    (hsplit : List.finRange u.size = l ++ i :: r) : j ∈ l ↔ j < i := by
  have hsorted := List.pairwise_lt_finRange u.size
  rw [hsplit] at hsorted
  rw [mem_left_iff hsorted, ← hsplit]
  simp

theorem prefix_sorted {r : List u.Index} (hsplit : List.finRange u.size = l ++ r) :
    l.Pairwise (· < ·) := by
  have hsorted := List.pairwise_lt_finRange u.size
  rw [hsplit] at hsorted
  exact (List.pairwise_append.mp hsorted).1

variable (hsorted : items.Pairwise (· < ·))
  (hclosed : ∀ k ∈ items, ∀ m < k, u.isDescendantOf m s = true → m ∈ items)
  (hread : ∀ j ∈ items, (u.die j).isValue = true → keep j = true → u.Named j name →
    ∃ depth, u.activeScopeDepth j s pc = .ok depth)
include hsorted hclosed hread

/-- The scan gives up on a tie among the entries it has seen. -/
theorem clash_iff_tied :
    Clash (u.depthOf keep s pc name)
      (items.filter fun j => (u.candidateDepth keep s pc name j).isSome) ↔
    ∃ j k depth, j < k ∧ k ∈ items ∧ u.Candidate keep s pc name j depth ∧
      u.Candidate keep s pc name k depth ∧
      ∀ m e, m < k → u.Candidate keep s pc name m e → e ≤ depth := by
  have hdepth : ∀ {k m e}, k ∈ items → m < k ∨ m = k → u.Candidate keep s pc name m e →
      m ∈ items ∧ u.candidateDepth keep s pc name m = some e := by
    intro k m e hk hm hcandidate
    have hmem : m ∈ items := by
      obtain hlt | rfl := hm
      · exact hclosed k hk m hlt hcandidate.2.2.2.inside
      · exact hk
    exact ⟨hmem, (candidateDepth_eq_some_iff (hread m hmem)).mpr hcandidate⟩
  rw [clash_iff_of_sorted (hsorted.filter _)]
  constructor
  · rintro ⟨j, hj, k, hk, hjk, htie, hmax⟩
    obtain ⟨-, hj⟩ := List.mem_filter.mp hj
    obtain ⟨hmem, hk⟩ := List.mem_filter.mp hk
    obtain ⟨depth, hj⟩ := Option.isSome_iff_exists.mp hj
    obtain ⟨depth', hk⟩ := Option.isSome_iff_exists.mp hk
    rw [depthOf_of_some hj, depthOf_of_some hk] at htie
    subst htie
    refine ⟨j, k, depth, hjk, hmem, .of_depth hj, .of_depth hk, fun m e hlt hm => ?_⟩
    obtain ⟨hm, he⟩ := hdepth hmem (.inl hlt) hm
    have := hmax m (List.mem_filter.mpr ⟨hm, by simp [he]⟩) hlt
    rwa [depthOf_of_some he, depthOf_of_some hk] at this
  · rintro ⟨j, k, depth, hjk, hmem, hj, hk, hmax⟩
    obtain ⟨hjmem, hj⟩ := hdepth hmem (.inl hjk) hj
    obtain ⟨-, hk⟩ := hdepth hmem (.inr rfl) hk
    refine ⟨j, List.mem_filter.mpr ⟨hjmem, by simp [hj]⟩, k,
      List.mem_filter.mpr ⟨hmem, by simp [hk]⟩, hjk, ?_, fun m hm hlt => ?_⟩
    · rw [depthOf_of_some hj, depthOf_of_some hk]
    · obtain ⟨-, hm⟩ := List.mem_filter.mp hm
      obtain ⟨e, hm⟩ := Option.isSome_iff_exists.mp hm
      rw [depthOf_of_some hm, depthOf_of_some hk]
      exact hmax m e hlt (.of_depth hm)

end Prefix

section Below

variable {r : List u.Index} (hsplit : List.finRange u.size = l ++ i :: r)
include hsplit

theorem below_sorted : (l.filter (u.isDescendantOf · s)).Pairwise (· < ·) :=
  (prefix_sorted hsplit).filter _

theorem mem_below_iff {j : u.Index} :
    j ∈ l.filter (u.isDescendantOf · s) ↔ j < i ∧ u.isDescendantOf j s = true := by
  rw [List.mem_filter, mem_prefix_iff hsplit]

theorem below_closed : ∀ k ∈ l.filter (u.isDescendantOf · s), ∀ m < k,
    u.isDescendantOf m s = true → m ∈ l.filter (u.isDescendantOf · s) := by
  intro k hk m hlt hm
  rw [mem_below_iff hsplit] at hk ⊢
  exact ⟨hlt.trans hk.1, hm⟩

/-- The loop over what is below the subprogram gets to an entry only when it has not failed. -/
theorem not_failsBefore_of_loop {selection : LocalSelection u}
    (hloop : (l.filter (u.isDescendantOf · s)).foldlM (u.selectStep texts s pc name) {} =
      .ok selection) : ¬u.FailsBefore s pc name i := by
  have hquiet : ∀ j ∈ l.filter (u.isDescendantOf · s), (u.die j).isValue = true →
      u.Quiet s pc (· = name) j := by
    intro j hj hvalue
    obtain ⟨left, right, hstep⟩ := foldlM_ok_of_mem hloop hj
    exact quiet_of_selectStep hstep hvalue
  rintro (⟨j, hlt, hinside, hvalue, hloud⟩ | ⟨j, k, depth, hjk, hki, hj, hk, hmax⟩)
  · exact hloud (hquiet j ((mem_below_iff hsplit).mpr ⟨hlt, hinside⟩) hvalue)
  · have hclash := (clash_iff_tied (below_sorted hsplit) (below_closed hsplit)
      fun m hm hvalue _ => (hquiet m hm hvalue).readable rfl).mpr
      ⟨j, k, depth, hjk, (mem_below_iff hsplit).mpr ⟨hki, hk.2.2.2.inside⟩, hj, hk, hmax⟩
    have hscan := foldlM_selectStep texts _ hquiet {} (by simp)
    rw [Option.map_none, scanBest_eq_none_iff.mpr hclash, hloop] at hscan
    cases hscan

theorem not_catalogueFailsBefore_of_loop {selected : ExtTreeMap String CatalogueCandidate}
    (hloop : (l.filter (u.isDescendantOf · s)).foldlM (u.catalogueStep s pc) ∅ = .ok selected) :
    ¬u.CatalogueFailsBefore s pc i := by
  have hquiet : ∀ j ∈ l.filter (u.isDescendantOf · s), (u.die j).isValue = true →
      u.crossesInlineScope j s = false → u.Quiet s pc (· ≠ "") j := by
    intro j hj hvalue hcross
    obtain ⟨left, right, hstep⟩ := foldlM_ok_of_mem hloop hj
    exact quiet_of_catalogueStep hstep hvalue hcross
  have hread : ∀ name, name ≠ "" → ∀ j ∈ l.filter (u.isDescendantOf · s),
      (u.die j).isValue = true → u.physical s j = true → u.Named j name →
      ∃ depth, u.activeScopeDepth j s pc = .ok depth := by
    intro name hne j hj hvalue hkeep
    exact (hquiet j hj hvalue (by simpa [physical] using hkeep)).readable hne
  have hscanned := Scanned.start.foldlM_of_ok hloop
  rw [List.nil_append] at hscanned
  rintro (⟨j, hlt, hinside, hvalue, hcross, hloud⟩ |
    ⟨name, hne, j, k, depth, hjk, hki, hj, hk, hmax⟩ | hmany)
  · exact hloud (hquiet j ((mem_below_iff hsplit).mpr ⟨hlt, hinside⟩) hvalue hcross)
  · have hclash := (clash_iff_tied (below_sorted hsplit) (below_closed hsplit) (hread name hne)).mpr
      ⟨j, k, depth, hjk, (mem_below_iff hsplit).mpr ⟨hki, hk.2.2.2.inside⟩, hj, hk, hmax⟩
    obtain ⟨best, hbest, -⟩ := hscanned.scanned name hne
    rw [scanPhysical, scanBest_eq_none_iff.mpr hclash] at hbest
    cases hbest
  · refine hmany ⟨selected.keys, ?_, fun name j depth hne hlt hj => ?_⟩
    · rw [ExtTreeMap.length_keys]
      exact size_of_loop hloop
    · have hmem := (mem_below_iff hsplit).mpr ⟨hlt, hj.2.2.2.inside⟩
      exact hscanned.mem_keys hne hmem
        ((candidateDepth_eq_some_iff (hread name hne j hmem)).mpr hj)

end Below

variable (texts) in
/-- A loop that does not fail because a value cannot be read is quiet outside the subprogram. -/
theorem outsideQuiet_of_loop (h : ∀ e ∈ readingErrors,
      (List.finRange u.size).foldlM (u.selectStep texts s pc name) {} ≠ .error e) :
    u.OutsideQuiet s pc name := by
  intro i _ hvalue hreached
  by_contra hloud
  obtain ⟨l, r, hsplit⟩ := List.append_of_mem (List.mem_finRange i)
  rw [hsplit] at h
  cases hl : l.foldlM (u.selectStep texts s pc name) {} with
  | ok selection =>
    obtain ⟨e, he, hstep⟩ := selectStep_loud texts hvalue hloud selection
    exact h e he (foldlM_append_cons_error hl hstep r)
  | error e =>
    have he : e ∉ readingErrors := fun he => h e he (by rw [List.foldlM_append, hl]; rfl)
    obtain ⟨done, x, rest, selection, rfl, hdone, hx⟩ := foldlM_error_split hl
    have hquiet : ∀ j ∈ done ++ [x], (u.die j).isValue = true → u.Quiet s pc (· = name) j := by
      intro j hj hjvalue
      obtain hj | hj := List.mem_append.mp hj
      · obtain ⟨left, right, hstep⟩ := foldlM_ok_of_mem hdone hj
        exact quiet_of_selectStep hstep hjvalue
      · obtain rfl := List.mem_singleton.mp hj
        by_contra hjloud
        obtain ⟨e', he', hstep⟩ := selectStep_loud texts hjvalue hjloud selection
        rw [hx] at hstep
        cases hstep
        exact he he'
    -- the scan has given up, so there is a tie
    have hscan := foldlM_selectStep texts _ hquiet {} (by simp)
    rw [foldlM_append_cons_error hdone hx []] at hscan
    split at hscan
    case h_2 =>
      obtain ⟨nested, hok⟩ := hscan
      cases hok
    case h_1 hnone =>
      have hprefix : List.finRange u.size = (done ++ [x]) ++ (rest ++ i :: r) := by simp [hsplit]
      obtain ⟨j, k, depth, hjk, hk, htied⟩ := (clash_iff_tied (prefix_sorted hprefix)
        (fun k hk m hlt _ => mem_of_prefix hprefix hk hlt)
        fun m hm hmvalue _ => (hquiet m hm hmvalue).readable rfl).mp (scanBest_eq_none_iff.mp hnone)
      refine hreached (.inr ⟨j, k, depth, hjk, (mem_prefix_iff hsplit).mp ?_, htied⟩)
      rw [List.append_cons]
      exact List.mem_append_left rest hk

/-- So is a catalogue that does not fail for that reason. -/
theorem catalogueQuiet_of_loop (h : ∀ e ∈ readingErrors,
      (List.finRange u.size).foldlM (u.catalogueStep s pc) ∅ ≠ .error e) :
    u.CatalogueQuiet s pc := by
  intro i _ hvalue hcross hreached
  by_contra hloud
  obtain ⟨l, r, hsplit⟩ := List.append_of_mem (List.mem_finRange i)
  rw [hsplit] at h
  cases hl : l.foldlM (u.catalogueStep s pc) ∅ with
  | ok selected =>
    obtain ⟨e, he, hstep⟩ := catalogueStep_loud hvalue hcross hloud selected
    exact h e he (foldlM_append_cons_error hl hstep r)
  | error e =>
    have he : e ∉ readingErrors := fun he => h e he (by rw [List.foldlM_append, hl]; rfl)
    obtain ⟨done, x, rest, selected, rfl, hdone, hx⟩ := foldlM_error_split hl
    have hxquiet : (u.die x).isValue = true → u.crossesInlineScope x s = false →
        u.Quiet s pc (· ≠ "") x := by
      intro hxvalue hxcross
      by_contra hxloud
      obtain ⟨e', he', hstep⟩ := catalogueStep_loud hxvalue hxcross hxloud selected
      rw [hx] at hstep
      cases hstep
      exact he he'
    have hbefore : ∀ {j}, j ∈ done ++ [x] → j < i := fun hj => by
      rw [← mem_prefix_iff hsplit, List.append_cons]
      exact List.mem_append_left rest hj
    have hscanned := Scanned.start.foldlM_of_ok hdone
    obtain ⟨name, depth, hne, hdepth, ⟨-, hnone⟩ | ⟨hnew, hfull⟩⟩ := hscanned.step_error hxquiet hx
    · have hprefix : List.finRange u.size = (done ++ [x]) ++ (rest ++ i :: r) := by simp [hsplit]
      have hread : ∀ j ∈ done ++ [x], (u.die j).isValue = true → u.physical s j = true →
          u.Named j name → ∃ depth, u.activeScopeDepth j s pc = .ok depth := by
        intro j hj hjvalue hkeep
        have hjcross : u.crossesInlineScope j s = false := by simpa [physical] using hkeep
        obtain hj | hj := List.mem_append.mp hj
        · obtain ⟨left, right, hstep⟩ := foldlM_ok_of_mem hdone hj
          exact (quiet_of_catalogueStep hstep hjvalue hjcross).readable hne
        · obtain rfl := List.mem_singleton.mp hj
          exact (hxquiet hjvalue hjcross).readable hne
      obtain ⟨j, k, depth, hjk, hk, htied⟩ := (clash_iff_tied (prefix_sorted hprefix)
        (fun k hk m hlt _ => mem_of_prefix hprefix hk hlt) hread).mp
        (scanBest_eq_none_iff.mp hnone)
      exact hreached (.inr (.inl ⟨name, hne, j, k, depth, hjk, hbefore hk, htied⟩))
    · refine hreached (.inr (.inr ?_))
      rintro ⟨names, hlength, hnames⟩
      have hroom : selected.size < kMaxDiscoveredLocals := hscanned.room hlength
        (fun other j depth hother hj => hnames other j depth hother (hbefore hj)) hne hdepth hnew
      omega

/-! ## Values inside the subprogram -/

section Inside

variable {rel : u.Index → v.Index → Prop}

/-- Two selections stand at the same value. -/
def SameSelection (rel : u.Index → v.Index → Prop) (left : LocalSelection u)
    (right : LocalSelection v) : Prop :=
  Option.Rel (fun a b => rel a.1 b.1 ∧ a.2 = b.2) left.best right.best ∧
    left.nestedName = right.nestedName

theorem SharesSubprogram.name_cases (h : SharesSubprogram rel s t) (hik : rel i k) :
    (∃ e, u.attributeWithAbstractOrigin i kDwAtName = .error e ∧
      v.attributeWithAbstractOrigin k kDwAtName = .error e) ∨
    (u.attributeWithAbstractOrigin i kDwAtName = .ok none ∧
      v.attributeWithAbstractOrigin k kDwAtName = .ok none) ∨
    ∃ a b, u.attributeWithAbstractOrigin i kDwAtName = .ok (some a) ∧
      v.attributeWithAbstractOrigin k kDwAtName = .ok (some b) ∧ a.text = b.text := by
  have hagree := h.attributeFrom kDwAtName kMaxAbstractOriginDepth hik
  unfold attributeWithAbstractOrigin
  generalize u.attributeFrom kDwAtName kMaxAbstractOriginDepth i = left,
    v.attributeFrom kDwAtName kMaxAbstractOriginDepth k = right at hagree
  cases hagree with
  | error e => exact .inl ⟨e, rfl, rfl⟩
  | ok hvalue =>
    cases hvalue with
    | none => exact .inr (.inl ⟨rfl, rfl⟩)
    | some hab => exact .inr (.inr ⟨_, _, rfl, rfl, hab.text⟩)

theorem agree_selectStep (h : SharesSubprogram rel s t) (hik : rel i k)
    (hi : u.isDescendantOf i s = true) (hk : v.isDescendantOf k t = true)
    {left : LocalSelection u} {right : LocalSelection v} (hstate : SameSelection rel left right) :
    Agree (SameSelection rel) (u.selectStep texts s pc name left i)
      (v.selectStep texts t pc name right k) := by
  unfold selectStep
  rw [← h.isValue hik, ← h.activeScopeDepth pc hik hi, hi, hk]
  cases (u.die i).isValue with
  | false => exact .ok hstate
  | true =>
    obtain ⟨e, ha, hb⟩ | ⟨ha, hb⟩ | ⟨a, b, ha, hb, htext⟩ := h.name_cases hik
    · rw [ha, hb]
      exact .error e
    · rw [ha, hb]
      exact .ok hstate
    · rw [ha, hb]
      dsimp only [Bind.bind, Except.bind]
      have hvalue : ¬(!true) = true := by simp
      rw [← htext, if_neg hvalue, if_neg hvalue]
      by_cases hname : a.text = name
      case neg =>
        rw [if_pos hname, if_pos hname]
        exact .ok hstate
      case pos =>
        rw [if_neg (not_not.mpr hname), if_neg (not_not.mpr hname)]
        cases u.activeScopeDepth i s pc with
        | error e => exact .error e
        | ok depth =>
          cases depth with
          | none => exact .ok ⟨hstate.1, rfl⟩
          | some depth =>
            obtain ⟨best, nested⟩ := left
            obtain ⟨best', nested'⟩ := right
            obtain ⟨hbest, hnested⟩ := hstate
            dsimp only at hbest hnested ⊢
            cases hbest with
            | none => exact .ok ⟨.some ⟨hik, rfl⟩, hnested⟩
            | @some a b hab =>
              dsimp only
              rw [← hab.2]
              by_cases hlt : a.2 < depth
              · rw [if_pos hlt, if_pos hlt]
                exact .ok ⟨.some ⟨hik, rfl⟩, hnested⟩
              · rw [if_neg hlt, if_neg hlt]
                by_cases heq : depth = a.2
                · rw [if_pos heq, if_pos heq]
                  exact .error _
                · rw [if_neg heq, if_neg heq]
                  exact .ok ⟨.some hab, hnested⟩

theorem catalogueStep_eq (h : SharesSubprogram rel s t) (hik : rel i k)
    (hi : u.isDescendantOf i s = true) (selected : ExtTreeMap String CatalogueCandidate) :
    u.catalogueStep s pc selected i = v.catalogueStep t pc selected k := by
  unfold catalogueStep
  rw [← h.isValue hik, ← h.activeScopeDepth pc hik hi, ← h.crossesInlineScope hik hi,
    ← h.discoveryKind hik]
  split
  · rfl
  · split
    · rfl
    · obtain ⟨e, ha, hb⟩ | ⟨ha, hb⟩ | ⟨a, b, ha, hb, htext⟩ := h.name_cases hik
      · rw [ha, hb]
      · rw [ha, hb]
      · rw [ha, hb]
        dsimp only [Bind.bind, Except.bind]
        rw [htext]

end Inside

/-! ## The lookups -/

section Lookups

variable {rel : u.Index → v.Index → Prop}

/-- A quiet loop need only visit what is below the subprogram. -/
theorem foldlM_below (hquiet : u.OutsideQuiet s pc name) :
    (List.finRange u.size).foldlM (u.selectStep texts s pc name) {} =
      (u.below s).foldlM (u.selectStep texts s pc name) {} := by
  refine foldlM_filter_of_reached fun l i r selection hsplit hi hl => ?_
  exact selectStep_outside (fun hvalue => hquiet i hi hvalue (not_failsBefore_of_loop hsplit hl))
    selection hi

theorem foldlM_catalogue_below (hquiet : u.CatalogueQuiet s pc) :
    (List.finRange u.size).foldlM (u.catalogueStep s pc) ∅ =
      (u.below s).foldlM (u.catalogueStep s pc) ∅ := by
  refine foldlM_filter_of_reached fun l i r selected hsplit hi hl => ?_
  exact catalogueStep_outside (fun hvalue hcross =>
    hquiet i hi hvalue hcross (not_catalogueFailsBefore_of_loop hsplit hl)) selected hi

/-- The lookups find the same value in both units, or fail in the same way. -/
theorem agree_selectLocal (texts : LookupTexts) (h : SameSubprogram rel s t)
    (hu : u.Sole pc s) (hv : v.Sole pc t)
    (hquiet : u.OutsideQuiet s pc name) (hquiet' : v.OutsideQuiet t pc name) :
    Agree (Option.Rel rel) (u.selectLocal texts pc name) (v.selectLocal texts pc name) := by
  unfold selectLocal
  rw [hu.findSubprogram, hv.findSubprogram]
  dsimp only [Bind.bind, Except.bind]
  rw [foldlM_below hquiet, foldlM_below hquiet']
  have hloop : Agree (SameSelection rel) ((u.below s).foldlM (u.selectStep texts s pc name) {})
      ((v.below t).foldlM (v.selectStep texts t pc name) {}) :=
    agree_foldlM h.descendants (fun left right i k hstate hik hi hk =>
      agree_selectStep h.toSharesSubprogram hik (mem_below.mp hi) (mem_below.mp hk) hstate) ⟨.none, rfl⟩
  generalize (u.below s).foldlM (u.selectStep texts s pc name) {} = left,
    (v.below t).foldlM (v.selectStep texts t pc name) {} = right at hloop
  cases hloop with
  | error e => exact .error e
  | @ok left right hsame =>
    obtain ⟨best, nested⟩ := left
    obtain ⟨best', nested'⟩ := right
    obtain ⟨hbest, hnested⟩ := hsame
    dsimp only at hbest hnested ⊢
    subst hnested
    cases hbest with
    | some hab => exact .ok (.some hab.1)
    | none =>
      cases nested with
      | true => exact .error _
      | false => exact .error _

/-- A lookup that succeeds met nothing to throw about. -/
theorem quiet_of_ok {index : u.Index} (hu : u.Sole pc s)
    (h : u.selectLocal texts pc name = .ok (some index)) (hvalue : (u.die i).isValue = true) :
    u.Quiet s pc (· = name) i := by
  unfold selectLocal at h
  rw [hu.findSubprogram] at h
  dsimp only [Bind.bind, Except.bind] at h
  cases hloop : (List.finRange u.size).foldlM (u.selectStep texts s pc name) {} with
  | error e =>
    rw [hloop] at h
    cases h
  | ok selection =>
    obtain ⟨left, right, hstep⟩ := foldlM_ok_of_mem hloop (List.mem_finRange i)
    exact quiet_of_selectStep hstep hvalue

variable (texts) in
/-- A lookup that ends for another reason than a value it cannot read met no such value. -/
theorem outsideQuiet_of_outcome (hu : u.Sole pc s)
    (h : ∀ e ∈ readingErrors, u.selectLocal texts pc name ≠ .error e) :
    u.OutsideQuiet s pc name := by
  refine outsideQuiet_of_loop texts fun e he hloop => h e he ?_
  unfold selectLocal
  rw [hu.findSubprogram]
  dsimp only [Bind.bind, Except.bind]
  rw [hloop]

theorem catalogue_eq {ranges : List Byte} (h : SameSubprogram rel s t)
    (hu : u.SolePhysical ranges pc s) (hv : v.SolePhysical ranges pc t)
    (hquiet : u.CatalogueQuiet s pc) (hquiet' : v.CatalogueQuiet t pc) :
    u.discoverScopedLocalCatalogueUnit ranges pc = v.discoverScopedLocalCatalogueUnit ranges pc := by
  obtain ⟨base, hbase, hfind⟩ := hu.findPhysicalSubprogram
  obtain ⟨base', hbase', hfind'⟩ := hv.findPhysicalSubprogram
  unfold discoverScopedLocalCatalogueUnit
  rw [hbase, hbase']
  dsimp only [Bind.bind, Except.bind]
  rw [hfind, hfind']
  dsimp only
  rw [foldlM_catalogue_below hquiet, foldlM_catalogue_below hquiet']
  have hloop : Agree Eq ((u.below s).foldlM (u.catalogueStep s pc) ∅)
      ((v.below t).foldlM (v.catalogueStep t pc) ∅) :=
    agree_foldlM h.descendants (fun left right i k hstate hik hi hk => by
      rw [agree_eq_iff, hstate, catalogueStep_eq h.toSharesSubprogram hik (mem_below.mp hi)]) rfl
  rw [agree_eq_iff.mp hloop]

theorem catalogueQuiet_of_outcome {ranges : List Byte} (hu : u.SolePhysical ranges pc s)
    (h : ∀ e ∈ readingErrors, u.discoverScopedLocalCatalogueUnit ranges pc ≠ .error e) :
    u.CatalogueQuiet s pc := by
  refine catalogueQuiet_of_loop fun e he hloop => h e he ?_
  obtain ⟨base, hbase, hfind⟩ := hu.findPhysicalSubprogram
  unfold discoverScopedLocalCatalogueUnit
  rw [hbase]
  dsimp only [Bind.bind, Except.bind]
  rw [hfind]
  dsimp only
  rw [hloop]

/-- The errors of the three lookups: in the live frame, in its callers and in a core. -/
def inspectionTexts : List LookupTexts :=
  [inspectUnitTexts, inspectCallerStackUnitTexts, inspectSnapshotUnitTexts]

/-- Two units that share a subprogram give the same answer about the names in it when neither lookup
throws about a value outside. A lookup that finds a value, a tie or nothing in one unit, and a
catalogue that comes about or meets a tie or too many names, gives the same answer in the other
exactly then. -/
theorem lookups_depend_on_subprogram (h : SameSubprogram rel s t) (hu : u.Sole pc s)
    (hv : v.Sole pc t) (name : String) :
    (∀ texts ∈ inspectionTexts,
      (u.OutsideQuiet s pc name → v.OutsideQuiet t pc name →
        Agree (Option.Rel rel) (u.selectLocal texts pc name) (v.selectLocal texts pc name)) ∧
      ((∀ e ∈ readingErrors, u.selectLocal texts pc name ≠ .error e) →
        (Agree (Option.Rel rel) (u.selectLocal texts pc name) (v.selectLocal texts pc name) ↔
          v.OutsideQuiet t pc name))) ∧
    ∀ ranges, u.SolePhysical ranges pc s → v.SolePhysical ranges pc t →
      (u.CatalogueQuiet s pc → v.CatalogueQuiet t pc →
        u.discoverScopedLocalCatalogueUnit ranges pc =
          v.discoverScopedLocalCatalogueUnit ranges pc) ∧
      ((∀ e ∈ readingErrors, u.discoverScopedLocalCatalogueUnit ranges pc ≠ .error e) →
        (u.discoverScopedLocalCatalogueUnit ranges pc =
            v.discoverScopedLocalCatalogueUnit ranges pc ↔ v.CatalogueQuiet t pc)) := by
  refine ⟨fun texts _ => ⟨agree_selectLocal texts h hu hv, fun hread => ⟨fun hagree => ?_, ?_⟩⟩,
    fun ranges hpu hpv => ⟨catalogue_eq h hpu hpv, fun hread => ⟨fun heq => ?_, ?_⟩⟩⟩
  · refine outsideQuiet_of_outcome texts hv fun e he herror => hread e he ?_
    exact hagree.error_left herror
  · exact agree_selectLocal texts h hu hv (outsideQuiet_of_outcome texts hu hread)
  · exact catalogueQuiet_of_outcome hpv fun e he herror => hread e he (heq.trans herror)
  · exact catalogue_eq h hpu hpv (catalogueQuiet_of_outcome hpu hread)

end Lookups

/-! ## An example -/

/-- The attributes of a named entry and of a range. -/
def nameAttribute (text : String) : AttributeValue := { name := kDwAtName, form := 0x08, text }

def rangeAttributes (low size : Word) : List AttributeValue :=
  [{ name := kDwAtLowPc, form := kDwFormAddr, number := low },
   { name := kDwAtHighPc, form := 0x07, number := size }]

/-- The functions `f` and `g`, both with a variable `x`, that of `g` in a block. -/
def blockUnit (block : List AttributeValue) : DieUnit where
  dies := [⟨0x0b, 0x11, none, []⟩,
    ⟨0x10, kDwTagSubprogram, some 0, rangeAttributes 0x1000 0x100⟩,
    ⟨0x20, kDwTagVariable, some 1, [nameAttribute "x"]⟩,
    ⟨0x30, kDwTagSubprogram, some 0, rangeAttributes 0x2000 0x100⟩,
    ⟨0x40, kDwTagLexicalBlock, some 3, block⟩,
    ⟨0x50, kDwTagVariable, some 4, [nameAttribute "x"]⟩]
  ascending := by
    simp only [List.pairwise_cons, List.mem_cons, List.not_mem_nil, or_false, forall_eq_or_imp,
      forall_eq, false_imp_iff, implies_true, List.Pairwise.nil]
    decide
  rooted := by
    intro i
    match i with
    | 0 => simp
    | 1 => simp
    | 2 => simp
    | 3 => simp
    | 4 => simp
    | 5 => simp

/-- The block of `g`, with a low and a high address and with a range list. -/
def plainBlock : List AttributeValue := rangeAttributes 0x2010 0x10

def splitBlock : List AttributeValue :=
  [{ name := kInlineDwAtRanges, form := kDwFormSecOffset, number := 0 }]

/-- An entry of the example. -/
def blockEntry (block : List AttributeValue) (i : Fin 6) : (blockUnit block).Index := i

theorem sameAttribute_self (rel : u.Index → v.Index → Prop) {a : AttributeValue}
    (h : a.form ≠ kDwFormRef4) : SameAttribute rel a a :=
  ⟨rfl, rfl, rfl, rfl, fun _ => rfl, fun href => absurd href h⟩

section BlockUnit

variable (block block' : List AttributeValue)

/-- Only the first variable is below `f`. -/
theorem blockUnit_isDescendantOf (i : Fin 6) :
    (blockUnit block).isDescendantOf (blockEntry block i) (blockEntry block 1) =
      decide (i = 2) := by
  have hroot : (blockUnit block).isDescendantOf (blockEntry block 0) (blockEntry block 1) = false :=
    isDescendantOf_of_none rfl
  have hg : (blockUnit block).isDescendantOf (blockEntry block 3) (blockEntry block 1) = false := by
    rw [isDescendantOf_of_some (p := blockEntry block 0) rfl, hroot]
    rfl
  have hinner : (blockUnit block).isDescendantOf (blockEntry block 4) (blockEntry block 1) =
      false := by
    rw [isDescendantOf_of_some (p := blockEntry block 3) rfl, hg]
    rfl
  match i with
  | 0 => exact hroot
  | 1 =>
    rw [isDescendantOf_of_some (p := blockEntry block 0) rfl, hroot]
    rfl
  | 2 =>
    rw [isDescendantOf_of_some (p := blockEntry block 1) rfl]
    rfl
  | 3 => exact hg
  | 4 => exact hinner
  | 5 =>
    rw [isDescendantOf_of_some (p := blockEntry block 4) rfl, hinner]
    rfl

/-- Entries in the same place of `f`. -/
def blockPlaces (i : (blockUnit block).Index) (k : (blockUnit block').Index) : Prop :=
  i.val = k.val ∧ (i.val = 1 ∨ i.val = 2)

/-- The function `f` is the same whatever the block of `g` looks like. -/
theorem blockUnit_sameSubprogram :
    SameSubprogram (blockPlaces block block') (blockEntry block 1) (blockEntry block' 1) := by
  have hfirst : ∀ {b : List AttributeValue} {i : (blockUnit b).Index},
      (blockUnit b).isDescendantOf i (blockEntry b 1) = true → i = blockEntry b 2 := by
    intro b i hi
    exact of_decide_eq_true ((blockUnit_isDescendantOf b i).symm.trans hi)
  have hbelow : ∀ b, (blockUnit b).below (blockEntry b 1) = [blockEntry b 2] := by
    intro b
    refine List.filter_congr (q := fun i => decide (i = blockEntry b 2)) ?_ |>.trans rfl
    exact fun i _ => blockUnit_isDescendantOf b i
  refine ⟨⟨⟨?_, ?_, ?_⟩, ⟨rfl, .inl rfl⟩, ?_, ?_, ?_⟩, ?_⟩
  · intro i j k l hik hjl
    rw [Fin.ext_iff, Fin.ext_iff, hik.1, hjl.1]
  · rintro ⟨i, _⟩ ⟨k, _⟩ ⟨heq, hi⟩
    dsimp only at heq hi
    subst heq
    obtain rfl | rfl := hi
    · rfl
    · rfl
  · rintro ⟨i, _⟩ ⟨k, _⟩ ⟨heq, hi⟩
    dsimp only at heq hi
    subst heq
    obtain rfl | rfl := hi
    · exact .cons (sameAttribute_self _ (by decide)) (.cons (sameAttribute_self _ (by decide)) .nil)
    · exact .cons (sameAttribute_self _ (by decide)) .nil
  · intro i k hik hi
    cases hfirst hi
    have hk : k = blockEntry block' 2 := Fin.ext hik.1.symm
    subst hk
    exact .some ⟨rfl, .inl rfl⟩
  · intro i hi
    cases hfirst hi
    exact ⟨blockEntry block' 2, blockUnit_isDescendantOf block' 2, rfl, .inr rfl⟩
  · intro k hk
    cases hfirst hk
    exact ⟨blockEntry block 2, blockUnit_isDescendantOf block 2, rfl, .inr rfl⟩
  · rw [hbelow, hbelow]
    exact .cons ⟨rfl, .inr rfl⟩ .nil

/-- Only `f` covers the address. -/
theorem blockUnit_sole : (blockUnit block).Sole 0x1010 (blockEntry block 1) := by
  refine ⟨rfl, fun i hi => ?_⟩
  match i with
  | ⟨1, _⟩ => rfl
  | ⟨3, _⟩ => rfl
  | ⟨0, _⟩ => cases hi
  | ⟨2, _⟩ => cases hi
  | ⟨4, _⟩ => cases hi
  | ⟨5, _⟩ => cases hi

end BlockUnit

/-- A range of addresses more in `g` leaves the lookups in `f` alone. -/
theorem lookups_depend_on_subprogram_block :
    (blockUnit plainBlock).inspectUnit 0x1010 "x" = .ok (some (blockEntry plainBlock 2)) ∧
    Agree (Option.Rel (blockPlaces plainBlock (rangeAttributes 0x2020 0x40)))
      ((blockUnit plainBlock).inspectUnit 0x1010 "x")
      ((blockUnit (rangeAttributes 0x2020 0x40)).inspectUnit 0x1010 "x") := by
  have hsome : (blockUnit plainBlock).inspectUnit 0x1010 "x" =
      .ok (some (blockEntry plainBlock 2)) := by decide +kernel
  have hfound : (blockUnit (rangeAttributes 0x2020 0x40)).inspectUnit 0x1010 "x" =
      .ok (some (blockEntry (rangeAttributes 0x2020 0x40) 2)) := by decide +kernel
  refine ⟨hsome, ?_⟩
  have h := (lookups_depend_on_subprogram (blockUnit_sameSubprogram plainBlock _)
    (blockUnit_sole plainBlock) (blockUnit_sole (rangeAttributes 0x2020 0x40)) "x").1
    inspectUnitTexts (by simp [inspectionTexts])
  refine (h.2 fun e _ => ne_of_eq_of_ne hsome nofun).mpr ?_
  exact outsideQuiet_of_outcome inspectUnitTexts (blockUnit_sole _) fun e _ =>
    ne_of_eq_of_ne hfound nofun

/-- A range list for the block in `g` makes the lookup in `f` fail. -/
theorem split_block_fails_lookup :
    SameSubprogram (blockPlaces plainBlock splitBlock) (blockEntry plainBlock 1)
        (blockEntry splitBlock 1) ∧
      (blockUnit plainBlock).Sole 0x1010 (blockEntry plainBlock 1) ∧
      (blockUnit splitBlock).Sole 0x1010 (blockEntry splitBlock 1) ∧
      (blockUnit plainBlock).inspectUnit 0x1010 "x" = .ok (some (blockEntry plainBlock 2)) ∧
      (blockUnit splitBlock).inspectUnit 0x1010 "x" = .error (.runtimeError
        "local scope does not use the supported DW_AT_low_pc/DW_AT_high_pc range") :=
  ⟨blockUnit_sameSubprogram _ _, blockUnit_sole _, blockUnit_sole _, by decide +kernel,
    by decide +kernel⟩

end DieUnit

end MiniDebugger
