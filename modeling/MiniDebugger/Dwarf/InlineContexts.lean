import Mathlib.Data.List.ReduceOption
import Mathlib.Data.List.Sort
import MiniDebugger.Checks
import MiniDebugger.Core.Session
import MiniDebugger.Dwarf.AncestorWalks
import MiniDebugger.Dwarf.LineTable
import MiniDebugger.Dwarf.Resolution
import MiniDebugger.Nesting

/-!
# Inline contexts

`discover_inline_unit` collects the inlined subroutines around an address in the subprogram that
owns it, sorts them by their depth and checks that they form one chain. Their depths count all
inlined subroutines around them, whether or not these contain the address, so the check finds out
as well when one of those does not.
-/

namespace MiniDebugger

open Checks

def kInlineDwAtCallColumn : Nat := 0x57
def kInlineDwAtCallFile : Nat := 0x58
def kInlineDwAtCallLine : Nat := 0x59
def kMaxInlineContexts : Nat := 8

/-- A `std::sort`, which may put elements in any order of which neither comes first. -/
structure StdSort {α : Type} (less : α → α → Bool) where
  sort : List α → List α
  perm : ∀ l, (sort l).Perm l
  sorted : ∀ l, (sort l).Pairwise fun left right => less right left = false

namespace DieUnit

variable (u : DieUnit)

/-- `Candidate` of `discover_inline_unit` -/
structure InlineCandidate where
  index : u.Index
  depth : Nat
  deriving DecidableEq

variable {u} in
/-- The order of the candidates. -/
def InlineCandidate.shallower (left right : u.InlineCandidate) : Bool := left.depth < right.depth

def kLimitText : String := "inline call chain exceeds the bounded 8-context limit"
def kContiguousText : String := "active inline contexts do not form one contiguous chain"
def kSiblingText : String := "active inline contexts are ambiguous sibling scopes"

section

variable (subprogram : u.Index) (pc : Word) (ranges : List Byte) (unitBase : Word)

/-- A round of the loop over the entries. -/
def inlineCandidate (index : u.Index) : Except Exception (Option u.InlineCandidate) :=
  if (u.die index).tag ≠ kDwTagInlinedSubroutine || !u.isDescendantOf index subprogram then
    return none
  else do
    if !(← (u.die index).inlineScopeContainsPc pc ranges unitBase u.version) then return none
    match u.inlineDepthFromPhysical index subprogram with
    | none => throw (.logicError "inline context lost physical-subprogram ownership")
    | some depth =>
      if kMaxInlineContexts < depth then throw (.runtimeError kLimitText)
      else return some ⟨index, depth⟩

def inlineCandidates : Except Exception (List u.InlineCandidate) := do
  let found ← (List.finRange u.size).mapM (u.inlineCandidate subprogram pc ranges unitBase)
  return found.reduceOption

end

/-- A round of the loop over the sorted candidates. -/
def checkCandidate (candidates : List u.InlineCandidate) (index : Nat) : Except Exception Unit :=
  match candidates[index]? with
  | none => return ()
  | some candidate =>
    if candidate.depth ≠ index + 1 then throw (.runtimeError kContiguousText)
    else if index = 0 then return ()
    else
      match candidates[index - 1]? with
      | none => return ()
      | some previous =>
        if !u.isDescendantOf candidate.index previous.index then
          throw (.runtimeError kSiblingText)
        else return ()

/-- The context of a candidate. -/
def inlineContext (table : LineTable) (pc : Word) (modulePath : String)
    (candidate : u.InlineCandidate) : Except Exception InlineCallsiteContext := do
  let die := u.die candidate.index
  let lacking : Exception :=
    .runtimeError "active inline context lacks bounded name/call-site metadata"
  match ← u.attributeWithAbstractOrigin candidate.index kDwAtName,
      die.attribute kInlineDwAtCallFile, die.attribute kInlineDwAtCallLine with
  | some name, some callFile, some callLine =>
    if name.text = "" ∨ callFile.number = 0 ∨ callLine.number = 0 then throw lacking
    else
      match ← table.findVirtualFile pc callFile.number with
      | none => throw (.runtimeError
          "active inline context call-site file index is unavailable in the owning line table")
      | some file =>
        let column := ((die.attribute kInlineDwAtCallColumn).map (·.number)).getD 0
        return ⟨die.offset.toNat, candidate.depth - 1, modulePath, name.text,
          ⟨String.ofList file, callLine.number, column⟩⟩
  | _, _, _ => throw lacking

/-- `discover_inline_unit`. The line table is opened if there is a candidate. -/
def discoverInlineUnit (sort : StdSort (@InlineCandidate.shallower u))
    (lineTable : Except Exception LineTable) (ranges : List Byte) (pc : Word)
    (modulePath : String) : Except Exception (Option (List InlineCallsiteContext)) := do
  let unitBase ← u.compilationUnitBase
  match ← u.findPhysicalSubprogram pc ranges unitBase with
  | none => return none
  | some subprogram =>
    let candidates ← u.inlineCandidates subprogram pc ranges unitBase
    if candidates = [] then return some []
    else if kMaxInlineContexts < candidates.length then throw (.runtimeError kLimitText)
    else
      let candidates := sort.sort candidates
      (List.range candidates.length).forM (u.checkCandidate candidates)
      let table ← lineTable
      if (table.findVirtualAddress pc).isNone then
        throw (.runtimeError "inline context has no supported source file ownership")
      else return some (← candidates.mapM (u.inlineContext table pc modulePath))

/-! ## Contexts -/

section Contexts

variable (subprogram : u.Index) (pc : Word) (ranges : List Byte) (unitBase : Word)

/-- An inlined subroutine below the subprogram. -/
def Inlined (i : u.Index) : Prop :=
  (u.die i).tag = kDwTagInlinedSubroutine ∧ u.isDescendantOf i subprogram = true

instance : DecidablePred (u.Inlined subprogram) := fun _ => instDecidableAnd

/-- An inlined subroutine below the subprogram that contains the address. -/
def ActiveContext (i : u.Index) : Prop :=
  u.Inlined subprogram i ∧
    (u.die i).inlineScopeContainsPc pc ranges unitBase u.version = .ok true

instance : DecidablePred (u.ActiveContext subprogram pc ranges unitBase) :=
  fun _ => instDecidableAnd

/-- The inlined subroutines around an entry, below the subprogram. -/
def outerContexts (i : u.Index) : List u.Index :=
  (List.finRange u.size).filter fun j => decide (u.Inlined subprogram j) && u.isDescendantOf i j

def activeContexts : List u.Index :=
  (List.finRange u.size).filter fun i => decide (u.ActiveContext subprogram pc ranges unitBase i)

def contextDepth (i : u.Index) : Nat := (u.outerContexts subprogram i).length + 1

/-- The active contexts form one nesting chain of at most eight, and none of them is inside an
inlined subroutine that is not active. -/
structure OneChain : Prop where
  nested : ∀ i j, u.ActiveContext subprogram pc ranges unitBase i →
    u.ActiveContext subprogram pc ranges unitBase j →
    i = j ∨ u.isDescendantOf i j = true ∨ u.isDescendantOf j i = true
  enclosed : ∀ i j, u.ActiveContext subprogram pc ranges unitBase i → u.Inlined subprogram j →
    u.isDescendantOf i j = true → u.ActiveContext subprogram pc ranges unitBase j
  bounded : (u.activeContexts subprogram pc ranges unitBase).length ≤ kMaxInlineContexts

/-- It can be told of every inlined subroutine below the subprogram whether it is active. -/
def ScopesEvaluate : Prop :=
  ∀ i, u.Inlined subprogram i →
    ∃ inside, (u.die i).inlineScopeContainsPc pc ranges unitBase u.version = .ok inside

end Contexts

section Descent

variable {u} {i j k s p : u.Index}

theorem isDescendantOf_iff (hparent : u.parent i = some p) :
    u.isDescendantOf i j = true ↔ p = j ∨ u.isDescendantOf p j = true := by
  rw [isDescendantOf_of_some hparent]
  by_cases hp : p = j <;> simp [hp]

theorem exists_parent_of_isDescendantOf (h : u.isDescendantOf i j = true) :
    ∃ p, u.parent i = some p := by
  cases hparent : u.parent i with
  | none =>
    rw [isDescendantOf_of_none hparent] at h
    cases h
  | some p => exact ⟨p, rfl⟩

theorem lt_of_isDescendantOf (h : u.isDescendantOf i j = true) : j < i := by
  induction hroom : i.val using Nat.strongRecOn generalizing i with
  | ind room ih =>
    subst hroom
    obtain ⟨p, hparent⟩ := exists_parent_of_isDescendantOf h
    have hlt := parent_lt hparent
    obtain rfl | hp := (isDescendantOf_iff hparent).mp h
    · exact hlt
    · exact (ih p hlt hp rfl).trans hlt

theorem isDescendantOf_trans (hij : u.isDescendantOf i j = true)
    (hjk : u.isDescendantOf j k = true) : u.isDescendantOf i k = true := by
  induction hroom : i.val using Nat.strongRecOn generalizing i with
  | ind room ih =>
    subst hroom
    obtain ⟨p, hparent⟩ := exists_parent_of_isDescendantOf hij
    refine (isDescendantOf_iff hparent).mpr (.inr ?_)
    obtain rfl | hp := (isDescendantOf_iff hparent).mp hij
    · exact hjk
    · exact ih p (parent_lt hparent) hp rfl

theorem mem_outerContexts :
    j ∈ u.outerContexts s i ↔ u.Inlined s j ∧ u.isDescendantOf i j = true := by
  simp [outerContexts]

theorem nesting (s : u.Index) :
    Nesting (u.Inlined s) (fun i j => u.isDescendantOf i j = true) (u.outerContexts s) where
  irrefl _ h := lt_irrefl _ (lt_of_isDescendantOf h)
  trans := isDescendantOf_trans
  nodup _ := (List.nodup_finRange _).filter _
  mem_outer := mem_outerContexts

theorem outerContexts_of_child (hparent : u.parent i = some s) : u.outerContexts s i = [] := by
  refine List.eq_nil_iff_forall_not_mem.mpr fun j hj => ?_
  obtain ⟨⟨_, hbelow⟩, hinside⟩ := mem_outerContexts.mp hj
  obtain rfl | hp := (isDescendantOf_iff hparent).mp hinside
  · exact lt_irrefl _ (lt_of_isDescendantOf hbelow)
  · exact lt_asymm (lt_of_isDescendantOf hp) (lt_of_isDescendantOf hbelow)

theorem length_outerContexts_of_parent (hparent : u.parent i = some p)
    (hp : u.isDescendantOf p s = true) :
    (u.outerContexts s i).length = (u.outerContexts s p).length +
      if (u.die p).tag = kDwTagInlinedSubroutine then 1 else 0 := by
  have hnodup := (nesting s).nodup p
  split
  · next htag =>
    have hnew : p ∉ u.outerContexts s p := fun h => (nesting s).irrefl p (mem_outerContexts.mp h).2
    refine ((List.perm_ext_iff_of_nodup ((nesting s).nodup i)
      (List.nodup_cons.mpr ⟨hnew, hnodup⟩)).mpr fun j => ?_).length_eq
    rw [List.mem_cons, mem_outerContexts, mem_outerContexts, isDescendantOf_iff hparent]
    constructor
    · rintro ⟨hmarked, rfl | hinside⟩
      · exact .inl rfl
      · exact .inr ⟨hmarked, hinside⟩
    · rintro (rfl | ⟨hmarked, hinside⟩)
      · exact ⟨⟨htag, hp⟩, .inl rfl⟩
      · exact ⟨hmarked, .inr hinside⟩
  · next htag =>
    refine ((List.perm_ext_iff_of_nodup ((nesting s).nodup i) hnodup).mpr fun j => ?_).length_eq
    rw [mem_outerContexts, mem_outerContexts, isDescendantOf_iff hparent]
    refine and_congr_right fun hmarked => or_iff_right ?_
    rintro rfl
    exact htag hmarked.1

/-- The walk to the subprogram counts the inlined subroutines it passes. -/
theorem inlineDepthFrom_of_isDescendantOf (hparent : u.parent i = some p)
    (h : u.isDescendantOf i s = true) (depth : Nat) :
    u.inlineDepthFrom s p depth = some (depth + (u.outerContexts s i).length) := by
  induction hroom : i.val using Nat.strongRecOn generalizing i p depth with
  | ind room ih =>
    subst hroom
    rw [inlineDepthFrom_eq]
    split
    · next hroot =>
      rw [outerContexts_of_child (hroot ▸ hparent)]
      rfl
    next hroot =>
      have hp := ((isDescendantOf_iff hparent).mp h).resolve_left hroot
      obtain ⟨q, hq⟩ := exists_parent_of_isDescendantOf hp
      rw [hq, length_outerContexts_of_parent hparent hp]
      dsimp only
      rw [ih p (parent_lt hparent) hq hp _ rfl]
      split
      · congr 1
        omega
      · congr 1

theorem inlineDepthFromPhysical_of_isDescendantOf (h : u.isDescendantOf i s = true) :
    u.inlineDepthFromPhysical i s = some (u.contextDepth s i) := by
  obtain ⟨p, hparent⟩ := exists_parent_of_isDescendantOf h
  unfold inlineDepthFromPhysical
  rw [hparent]
  dsimp only
  rw [inlineDepthFrom_of_isDescendantOf hparent h, Nat.add_comm]
  rfl

end Descent

/-! ## Candidates -/

section Candidates

variable {u} {s i : u.Index} {pc : Word} {ranges : List Byte} {base : Word}

variable (u) in
/-- The candidate of an active context. -/
def candidateOf (s i : u.Index) : u.InlineCandidate := ⟨i, u.contextDepth s i⟩

theorem mem_activeContexts :
    i ∈ u.activeContexts s pc ranges base ↔ u.ActiveContext s pc ranges base i := by
  simp [activeContexts]

theorem inlineCandidate_eq : u.inlineCandidate s pc ranges base i =
    if u.Inlined s i then
      (u.die i).inlineScopeContainsPc pc ranges base u.version >>= fun inside =>
        if !inside then pure none
        else if kMaxInlineContexts < u.contextDepth s i then throw (.runtimeError kLimitText)
        else pure (some (u.candidateOf s i))
    else pure none := by
  unfold inlineCandidate
  by_cases hinlined : u.Inlined s i
  · obtain ⟨htag, hbelow⟩ := id hinlined
    rw [if_pos hinlined, if_neg (by simp [htag, hbelow]),
      inlineDepthFromPhysical_of_isDescendantOf hbelow]
    rfl
  · rw [if_neg hinlined, if_pos]
    rw [Bool.or_eq_true, decide_eq_true_iff, Bool.not_eq_true', ← Bool.not_eq_true]
    exact not_and_or.mp hinlined

/-- A round finds a candidate where there is an active context. -/
theorem inlineCandidate_eq_ok_iff {found : Option u.InlineCandidate} :
    u.inlineCandidate s pc ranges base i = .ok found ↔
      (u.Inlined s i → ∃ inside, (u.die i).inlineScopeContainsPc pc ranges base u.version =
        .ok inside) ∧
      (u.ActiveContext s pc ranges base i → u.contextDepth s i ≤ kMaxInlineContexts) ∧
      found = if u.ActiveContext s pc ranges base i then some (u.candidateOf s i) else none := by
  rw [inlineCandidate_eq]
  by_cases hinlined : u.Inlined s i
  · have hactive : u.ActiveContext s pc ranges base i ↔
        (u.die i).inlineScopeContainsPc pc ranges base u.version = .ok true :=
      and_iff_right hinlined
    rw [if_pos hinlined, bind_eq_ok]
    cases hscope : (u.die i).inlineScopeContainsPc pc ranges base u.version with
    | error e => simp [hinlined]
    | ok inside =>
      rw [hscope] at hactive
      cases inside with
      | false =>
        have hnot : ¬u.ActiveContext s pc ranges base i := fun h => nomatch hactive.mp h
        simp only [hnot, if_false]
        simpa using eq_comm
      | true =>
        have hyes := hactive.mpr rfl
        simp only [hyes, if_true]
        simpa using fun _ => eq_comm
  · have hnot : ¬u.ActiveContext s pc ranges base i := fun h => hinlined h.1
    rw [if_neg hinlined]
    simp only [hinlined, hnot, pure_eq_ok, if_false]
    simpa using eq_comm

theorem inlineCandidates_eq_ok_iff {candidates : List u.InlineCandidate} :
    u.inlineCandidates s pc ranges base = .ok candidates ↔
      u.ScopesEvaluate s pc ranges base ∧
      (∀ i, u.ActiveContext s pc ranges base i → u.contextDepth s i ≤ kMaxInlineContexts) ∧
      candidates = (u.activeContexts s pc ranges base).map (u.candidateOf s) := by
  let found (i : u.Index) : Option u.InlineCandidate :=
    if u.ActiveContext s pc ranges base i then some (u.candidateOf s i) else none
  have hfound : ((List.finRange u.size).map found).reduceOption =
      (u.activeContexts s pc ranges base).map (u.candidateOf s) := by
    unfold activeContexts
    generalize List.finRange u.size = l
    induction l with
    | nil => rfl
    | cons i l ih =>
      by_cases hactive : u.ActiveContext s pc ranges base i
      · simp only [found, List.map_cons, if_pos hactive, List.reduceOption_cons_of_some]
        rw [List.filter_cons_of_pos (by simpa using hactive), List.map_cons]
        exact congrArg _ ih
      · simp only [found, List.map_cons, if_neg hactive, List.reduceOption_cons_of_none]
        rw [List.filter_cons_of_neg (by simpa using hactive)]
        exact ih
  unfold inlineCandidates
  rw [bind_eq_ok]
  constructor
  · rintro ⟨l, hl, hpure⟩
    have hall := Checks.mapM_eq_ok.mp hl
    have hmap : l = (List.finRange u.size).map found := by
      rw [← List.forall₂_eq_eq_eq, List.forall₂_map_right_iff]
      refine (hall.imp fun i a ha => ?_).flip
      exact (inlineCandidate_eq_ok_iff.mp ha).2.2
    have hround : ∀ i, u.inlineCandidate s pc ranges base i = .ok (found i) := by
      rw [hmap, List.forall₂_map_right_iff, List.forall₂_same] at hall
      exact fun i => hall i (List.mem_finRange i)
    refine ⟨fun i hi => (inlineCandidate_eq_ok_iff.mp (hround i)).1 hi,
      fun i hi => (inlineCandidate_eq_ok_iff.mp (hround i)).2.1 hi, ?_⟩
    rw [← hfound, ← hmap]
    exact (pure_eq_ok.mp hpure).symm
  · rintro ⟨hscopes, hdepths, rfl⟩
    refine ⟨(List.finRange u.size).map found, mapM_eq_ok_map fun i _ => ?_, ?_⟩
    · exact inlineCandidate_eq_ok_iff.mpr ⟨hscopes i, hdepths i, rfl⟩
    · rw [hfound]
      rfl

theorem checkCandidate_eq_ok_iff {l : List u.Index} {index : Nat} (h : index < l.length) :
    u.checkCandidate (l.map (u.candidateOf s)) index = .ok () ↔
      (u.outerContexts s l[index]).length = index ∧
      (index ≠ 0 → u.isDescendantOf l[index] l[index - 1] = true) := by
  have hat : ∀ {k : Nat} (hk : k < l.length),
      (l.map (u.candidateOf s))[k]? = some (u.candidateOf s l[k]) := by
    intro k hk
    rw [List.getElem?_map, List.getElem?_eq_getElem hk]
    rfl
  have hdepth : (u.candidateOf s l[index]).depth = index + 1 ↔
      (u.outerContexts s l[index]).length = index := Nat.succ_inj
  unfold checkCandidate
  rw [hat h, hat (lt_of_le_of_lt (Nat.sub_le index 1) h)]
  dsimp only
  by_cases hlength : (u.outerContexts s l[index]).length = index
  · rw [if_neg (not_not.mpr (hdepth.mpr hlength))]
    by_cases hzero : index = 0
    · rw [if_pos hzero]
      exact iff_of_true rfl ⟨hlength, fun hne => absurd hzero hne⟩
    · rw [if_neg hzero]
      cases hinside : u.isDescendantOf (u.candidateOf s l[index]).index
          (u.candidateOf s l[index - 1]).index with
      | true => exact iff_of_true rfl ⟨hlength, fun _ => hinside⟩
      | false =>
        refine iff_of_false nofun fun hall => ?_
        exact absurd (hinside.symm.trans (hall.2 hzero)) Bool.false_ne_true
  · rw [if_pos fun hdepth' => hlength (hdepth.mp hdepth')]
    exact iff_of_false nofun fun hall => hlength hall.1

/-- The checks pass if the depths of the candidates are their positions and each is inside the one
before. -/
theorem checkCandidates_iff {l : List u.Index} :
    (List.range (l.map (u.candidateOf s)).length).forM
        (u.checkCandidate (l.map (u.candidateOf s))) = .ok () ↔
      (∀ before a after, l = before ++ a :: after →
        (u.outerContexts s a).length = before.length) ∧
      l.IsChain fun a b => u.isDescendantOf b a = true := by
  rw [forM_eq_ok, List.length_map, List.isChain_iff_getElem]
  constructor
  · intro h
    refine ⟨?_, fun index hindex => ?_⟩
    · rintro before a after rfl
      have hlt : before.length < (before ++ a :: after).length := by simp
      have hcheck := (checkCandidate_eq_ok_iff hlt).mp (h _ (List.mem_range.mpr hlt))
      simpa using hcheck.1
    · have hcheck := (checkCandidate_eq_ok_iff hindex).mp (h _ (List.mem_range.mpr hindex))
      exact hcheck.2 (Nat.succ_ne_zero index)
  · rintro ⟨hdepths, hchain⟩ index hindex
    have hlt := List.mem_range.mp hindex
    refine (checkCandidate_eq_ok_iff hlt).mpr ⟨?_, fun hne => ?_⟩
    · have hsplit : l = l.take index ++ l[index] :: l.drop (index + 1) := by
        rw [← List.drop_eq_getElem_cons hlt, List.take_append_drop]
      have hlength := hdepths _ _ _ hsplit
      rwa [List.length_take_of_le hlt.le] at hlength
    · obtain ⟨k, rfl⟩ := Nat.exists_eq_succ_of_ne_zero hne
      exact hchain k hlt

/-- The texts of the errors that find the structure of the contexts at fault. -/
def structuralTexts : List String := [kLimitText, kContiguousText, kSiblingText]

theorem checkCandidate_error {candidates : List u.InlineCandidate} {index : Nat} {e : Exception}
    (h : u.checkCandidate candidates index = .error e) :
    ∃ text ∈ structuralTexts, e = .runtimeError text := by
  unfold checkCandidate at h
  split at h
  · cases h
  · split at h
    · cases h
      exact ⟨kContiguousText, by simp [structuralTexts], rfl⟩
    · split at h
      · cases h
      · split at h
        · cases h
        · split at h
          · cases h
            exact ⟨kSiblingText, by simp [structuralTexts], rfl⟩
          · cases h

/-- Where the scopes can be evaluated the collection of candidates fails at its limit only. -/
theorem inlineCandidates_error {e : Exception} (hscopes : u.ScopesEvaluate s pc ranges base)
    (h : u.inlineCandidates s pc ranges base = .error e) :
    ∃ text ∈ structuralTexts, e = .runtimeError text := by
  have hmap : (List.finRange u.size).mapM (u.inlineCandidate s pc ranges base) = .error e := by
    unfold inlineCandidates at h
    cases hl : (List.finRange u.size).mapM (u.inlineCandidate s pc ranges base) with
    | error e' =>
      rw [hl] at h
      cases h
      rfl
    | ok found =>
      rw [hl] at h
      cases h
  obtain ⟨i, _, hi⟩ := mapM_eq_error hmap
  rw [inlineCandidate_eq] at hi
  split at hi
  · next hinlined =>
    obtain ⟨inside, hinside⟩ := hscopes i hinlined
    rw [hinside, ok_bind] at hi
    split at hi
    · cases hi
    · split at hi
      · cases hi
        exact ⟨kLimitText, by simp [structuralTexts], rfl⟩
      · cases hi
  · cases hi

end Candidates

/-! ## Chains -/

section Chains

variable {u} {s : u.Index} {pc : Word} {ranges : List Byte} {base : Word}

variable (u) in
/-- A chain of all active contexts, from the outermost to the innermost. -/
structure ChainOf (s : u.Index) (pc : Word) (ranges : List Byte) (base : Word)
    (chain : List u.Index) : Prop where
  mem : ∀ i, i ∈ chain ↔ u.ActiveContext s pc ranges base i
  nested : chain.Pairwise fun outer inner => u.isDescendantOf inner outer = true

theorem ChainOf.inlined {chain : List u.Index} (h : u.ChainOf s pc ranges base chain) :
    ∀ i ∈ chain, u.Inlined s i := fun i hi => ((h.mem i).mp hi).1

theorem ChainOf.perm {chain : List u.Index} (h : u.ChainOf s pc ranges base chain) :
    chain.Perm (u.activeContexts s pc ranges base) := by
  refine (List.perm_ext_iff_of_nodup ((nesting s).nodup_of_chain h.nested)
    ((List.nodup_finRange _).filter _)).mpr fun i => ?_
  rw [h.mem i]
  exact mem_activeContexts.symm

/-- In a chain the depths are the positions. -/
theorem OneChain.positions {chain : List u.Index} (h : u.OneChain s pc ranges base)
    (hchain : u.ChainOf s pc ranges base chain) :
    (∀ before a after, chain = before ++ a :: after →
      (u.outerContexts s a).length = before.length) ∧
    chain.IsChain fun a b => u.isDescendantOf b a = true := by
  refine ((nesting s).positions_iff hchain.inlined).mpr ⟨hchain.nested, fun a ha b hb => ?_⟩
  obtain ⟨hinlined, hinside⟩ := mem_outerContexts.mp hb
  exact (hchain.mem b).mpr (h.enclosed a b ((hchain.mem a).mp ha) hinlined hinside)

/-- The active contexts of a chain of at most eight are at a depth of at most eight. -/
theorem OneChain.contextDepth_le (h : u.OneChain s pc ranges base) {i : u.Index}
    (hi : u.ActiveContext s pc ranges base i) : u.contextDepth s i ≤ kMaxInlineContexts := by
  have hnew : i ∉ u.outerContexts s i := fun hmem =>
    (nesting s).irrefl i (mem_outerContexts.mp hmem).2
  have hsub : i :: u.outerContexts s i ⊆ u.activeContexts s pc ranges base := by
    intro j hj
    obtain rfl | hj := List.mem_cons.mp hj
    · exact mem_activeContexts.mpr hi
    · obtain ⟨hinlined, hinside⟩ := mem_outerContexts.mp hj
      exact mem_activeContexts.mpr (h.enclosed i j hi hinlined hinside)
  have hle := ((List.nodup_cons.mpr ⟨hnew, (nesting s).nodup i⟩).subperm hsub).length_le
  exact le_trans hle h.bounded

/-- Active contexts that are nested, in the order of their depth, are a chain. -/
theorem OneChain.chainOf {l : List u.Index} (h : u.OneChain s pc ranges base)
    (hperm : l.Perm (u.activeContexts s pc ranges base))
    (hsorted : l.Pairwise fun a b => u.contextDepth s a ≤ u.contextDepth s b) :
    u.ChainOf s pc ranges base l := by
  have hmem : ∀ i, i ∈ l ↔ u.ActiveContext s pc ranges base i := fun i =>
    hperm.mem_iff.trans mem_activeContexts
  have hnodup : l.Nodup := hperm.nodup_iff.mpr ((List.nodup_finRange _).filter _)
  refine ⟨hmem, (nesting s).pairwise_inside (fun i hi => ((hmem i).mp hi).1) ?_ ?_⟩
  · refine hnodup.imp_of_mem fun {i j} hi hj hne => ?_
    exact (h.nested i j ((hmem i).mp hi) ((hmem j).mp hj)).resolve_left hne
  · exact hsorted.imp fun hle => Nat.le_of_succ_le_succ hle

/-- Contexts whose depths are their positions, each inside the one before, are one chain. -/
theorem oneChain_of_positions {l : List u.Index}
    (hperm : l.Perm (u.activeContexts s pc ranges base))
    (hdepths : ∀ before a after, l = before ++ a :: after →
      (u.outerContexts s a).length = before.length)
    (hchain : l.IsChain fun a b => u.isDescendantOf b a = true)
    (hbounded : l.length ≤ kMaxInlineContexts) :
    u.OneChain s pc ranges base ∧ u.ChainOf s pc ranges base l := by
  have hmem : ∀ i, i ∈ l ↔ u.ActiveContext s pc ranges base i := fun i =>
    hperm.mem_iff.trans mem_activeContexts
  obtain ⟨hpairwise, hclosed⟩ :=
    ((nesting s).positions_iff fun i hi => ((hmem i).mp hi).1).mp ⟨hdepths, hchain⟩
  refine ⟨⟨fun i j hi hj => ?_, fun i j hi hj hinside => ?_, hperm.length_eq ▸ hbounded⟩,
    hmem, hpairwise⟩
  · by_cases heq : i = j
    · exact .inl heq
    · have hsymm : Std.Symm fun i j : u.Index =>
          u.isDescendantOf i j = true ∨ u.isDescendantOf j i = true := ⟨fun _ _ => Or.symm⟩
      have hor := hpairwise.imp fun {i j} hji => Or.inr (a := u.isDescendantOf i j = true) hji
      exact .inr (hor.forall ((hmem i).mpr hi) ((hmem j).mpr hj) heq)
  · exact (hmem j).mp (hclosed i ((hmem i).mpr hi) j (mem_outerContexts.mpr ⟨hj, hinside⟩))

variable (u) in
/-- The line table, names and call sites of the active contexts are there. -/
structure MetadataAvailable (table : LineTable) (s : u.Index) (pc : Word) (ranges : List Byte)
    (base : Word) : Prop where
  owned : (table.findVirtualAddress pc).isSome
  described : ∀ i, u.ActiveContext s pc ranges base i → ∃ name callFile callLine file,
    u.attributeWithAbstractOrigin i kDwAtName = .ok (some name) ∧ name.text ≠ "" ∧
    (u.die i).attribute kInlineDwAtCallFile = some callFile ∧ callFile.number ≠ 0 ∧
    (u.die i).attribute kInlineDwAtCallLine = some callLine ∧ callLine.number ≠ 0 ∧
    table.findVirtualFile pc callFile.number = .ok (some file)

theorem MetadataAvailable.inlineContext {table : LineTable} {modulePath : String} {i : u.Index}
    (h : u.MetadataAvailable table s pc ranges base) (hi : u.ActiveContext s pc ranges base i) :
    ∃ context, u.inlineContext table pc modulePath (u.candidateOf s i) = .ok context := by
  obtain ⟨name, callFile, callLine, file, hname, htext, hfile, hfileNumber, hline, hlineNumber,
    hpath⟩ := h.described i hi
  unfold DieUnit.inlineContext
  dsimp only [candidateOf]
  rw [hname, ok_bind, hfile, hline]
  dsimp only
  rw [if_neg (not_or.mpr ⟨htext, not_or.mpr ⟨hfileNumber, hlineNumber⟩⟩), hpath]
  exact ⟨_, rfl⟩

theorem inlineContext_place {table : LineTable} {modulePath : String}
    {candidate : u.InlineCandidate} {context : InlineCallsiteContext}
    (h : u.inlineContext table pc modulePath candidate = .ok context) :
    context.dieOffset = (u.die candidate.index).offset.toNat ∧
      context.depth = candidate.depth - 1 := by
  unfold DieUnit.inlineContext at h
  obtain ⟨name, _, h⟩ := bind_eq_ok.mp h
  split at h
  · split at h
    · cases h
    obtain ⟨file, _, h⟩ := bind_eq_ok.mp h
    split at h
    · cases h
    · cases h
      exact ⟨rfl, rfl⟩
  · cases h

/-- The sorted candidates are those of a permutation of the active contexts, by their depth. -/
theorem exists_sorted (sort : StdSort (@InlineCandidate.shallower u)) (l : List u.Index) :
    ∃ l' : List u.Index, l'.Perm l ∧
      sort.sort (l.map (u.candidateOf s)) = l'.map (u.candidateOf s) ∧
      l'.Pairwise fun a b => u.contextDepth s a ≤ u.contextDepth s b := by
  have hperm := sort.perm (l.map (u.candidateOf s))
  have hsorted := sort.sorted (l.map (u.candidateOf s))
  have hmap : sort.sort (l.map (u.candidateOf s)) =
      ((sort.sort (l.map (u.candidateOf s))).map (·.index)).map (u.candidateOf s) := by
    rw [List.map_map]
    refine ((List.map_congr_left fun candidate hcandidate => ?_).trans (List.map_id _)).symm
    obtain ⟨i, _, rfl⟩ := List.mem_map.mp (hperm.mem_iff.mp hcandidate)
    rfl
  refine ⟨(sort.sort (l.map (u.candidateOf s))).map (·.index), ?_, hmap, ?_⟩
  · have hindexes := hperm.map (·.index)
    rwa [List.map_map, show (fun c : u.InlineCandidate => c.index) ∘ u.candidateOf s = id from rfl,
      List.map_id] at hindexes
  · rw [hmap, List.pairwise_map] at hsorted
    exact hsorted.imp fun hless => not_lt.mp (of_decide_eq_false hless)

variable (u) in
/-- The subprogram is the only physical one that contains the address. -/
structure OwnedBy (pc : Word) (ranges : List Byte) (base : Word) (s : u.Index) : Prop where
  unitBase : u.compilationUnitBase = .ok base
  sole : u.findPhysicalSubprogram pc ranges base = .ok (some s)

variable {sort : StdSort (@InlineCandidate.shallower u)} {table : LineTable}
  {modulePath : String} {contexts : List InlineCallsiteContext}

/-- What is returned are the contexts of a chain, each with its position. -/
def ContextsOf (u : DieUnit) (chain : List u.Index) (contexts : List InlineCallsiteContext) :
    Prop :=
  contexts.map (·.dieOffset) = chain.map (fun i => (u.die i).offset.toNat) ∧
    contexts.map (·.depth) = List.range chain.length

theorem contextsOf_of_mapM {chain : List u.Index}
    (hdepths : ∀ before a after, chain = before ++ a :: after →
      (u.outerContexts s a).length = before.length)
    (h : (chain.map (u.candidateOf s)).mapM (u.inlineContext table pc modulePath) =
      .ok contexts) : ContextsOf u chain contexts := by
  have hall := Checks.mapM_eq_ok.mp h
  rw [List.forall₂_map_left_iff] at hall
  have hplaces := hall.imp fun i context hcontext => inlineContext_place hcontext
  constructor
  · rw [← List.forall₂_eq_eq_eq, List.forall₂_map_left_iff, List.forall₂_map_right_iff]
    exact (hplaces.imp fun i context hplace => hplace.1).flip
  · have hlengths : contexts.map (·.depth) =
        chain.map fun i => (u.outerContexts s i).length := by
      rw [← List.forall₂_eq_eq_eq, List.forall₂_map_left_iff, List.forall₂_map_right_iff]
      exact (hplaces.imp fun i context hplace => hplace.2).flip
    rw [hlengths]
    refine List.ext_getElem (by simp) fun k hk _ => ?_
    have hlt : k < chain.length := by simpa using hk
    have hsplit : chain = chain.take k ++ chain[k] :: chain.drop (k + 1) := by
      rw [← List.drop_eq_getElem_cons hlt, List.take_append_drop]
    rw [List.getElem_map, List.getElem_range, hdepths _ _ _ hsplit, List.length_take_of_le hlt.le]

/-- The unit's contexts are returned if the active ones form one chain. -/
theorem discoverInlineUnit_of_oneChain (howner : u.OwnedBy pc ranges base s)
    (hmetadata : u.MetadataAvailable table s pc ranges base)
    (hscopes : u.ScopesEvaluate s pc ranges base) (h : u.OneChain s pc ranges base) :
    ∃ contexts, u.discoverInlineUnit sort (.ok table) ranges pc modulePath =
      .ok (some contexts) := by
  have hcandidates := inlineCandidates_eq_ok_iff.mpr
    ⟨hscopes, fun i hi => h.contextDepth_le hi, rfl⟩
  obtain ⟨l, hperm, hsort, hsorted⟩ :=
    exists_sorted (s := s) sort (u.activeContexts s pc ranges base)
  have hchain := h.chainOf hperm hsorted
  have hchecks := checkCandidates_iff.mpr (h.positions hchain)
  have hcontexts : ∃ contexts, (l.map (u.candidateOf s)).mapM
      (u.inlineContext table pc modulePath) = .ok contexts := by
    refine exists_mapM_eq_ok fun candidate hcandidate => ?_
    obtain ⟨i, hi, rfl⟩ := List.mem_map.mp hcandidate
    exact hmetadata.inlineContext ((hchain.mem i).mp hi)
  obtain ⟨contexts, hcontexts⟩ := hcontexts
  unfold discoverInlineUnit
  rw [howner.unitBase, ok_bind, howner.sole, ok_bind]
  dsimp only
  rw [hcandidates, ok_bind]
  split
  · exact ⟨[], rfl⟩
  · rw [if_neg (by simpa using h.bounded), hsort, hchecks, ok_bind, ok_bind,
      if_neg (by simp [Option.isSome_iff_ne_none.mp hmetadata.owned]), hcontexts]
    exact ⟨contexts, rfl⟩

/-- What is returned are the contexts of the one chain of the unit. -/
theorem oneChain_of_discoverInlineUnit {lineTable : Except Exception LineTable}
    (howner : u.OwnedBy pc ranges base s)
    (h : u.discoverInlineUnit sort lineTable ranges pc modulePath = .ok (some contexts)) :
    u.ScopesEvaluate s pc ranges base ∧ u.OneChain s pc ranges base ∧
      ∃ chain, u.ChainOf s pc ranges base chain ∧ ContextsOf u chain contexts := by
  unfold discoverInlineUnit at h
  rw [howner.unitBase, ok_bind, howner.sole, ok_bind] at h
  dsimp only at h
  obtain ⟨candidates, hcandidates, h⟩ := bind_eq_ok.mp h
  obtain ⟨hscopes, _, rfl⟩ := inlineCandidates_eq_ok_iff.mp hcandidates
  refine ⟨hscopes, ?_⟩
  split at h
  · next hnil =>
    cases h
    have hperm : List.Perm [] (u.activeContexts s pc ranges base) := by
      rw [List.map_eq_nil_iff.mp hnil]
    obtain ⟨hone, hchain⟩ := oneChain_of_positions hperm
      (fun before a after hsplit => by simp at hsplit) .nil (Nat.zero_le _)
    exact ⟨hone, [], hchain, rfl, rfl⟩
  split at h
  · cases h
  next hbounded =>
    obtain ⟨l, hperm, hsort, _⟩ := exists_sorted (s := s) sort (u.activeContexts s pc ranges base)
    rw [hsort] at h
    obtain ⟨⟨⟩, hchecks, h⟩ := bind_eq_ok.mp h
    obtain ⟨table, _, h⟩ := bind_eq_ok.mp h
    split at h
    · cases h
    obtain ⟨found, hfound, hpure⟩ := bind_eq_ok.mp h
    cases hpure
    obtain ⟨hdepths, hnested⟩ := checkCandidates_iff.mp hchecks
    have hlength : l.length ≤ kMaxInlineContexts := by
      rw [hperm.length_eq]
      simpa using hbounded
    obtain ⟨hone, hchain⟩ := oneChain_of_positions hperm hdepths hnested hlength
    exact ⟨hone, l, hchain, contextsOf_of_mapM hdepths hfound⟩

/-- Where the scopes can be evaluated and the active contexts are no such chain, the structure is
found at fault. -/
theorem discoverInlineUnit_error {lineTable : Except Exception LineTable}
    (howner : u.OwnedBy pc ranges base s)
    (hscopes : u.ScopesEvaluate s pc ranges base) (h : ¬u.OneChain s pc ranges base) :
    ∃ text ∈ structuralTexts, u.discoverInlineUnit sort lineTable ranges pc modulePath =
      .error (.runtimeError text) := by
  unfold discoverInlineUnit
  rw [howner.unitBase, ok_bind, howner.sole, ok_bind]
  dsimp only
  cases hcandidates : u.inlineCandidates s pc ranges base with
  | error e =>
    obtain ⟨text, htext, rfl⟩ := inlineCandidates_error hscopes hcandidates
    exact ⟨text, htext, rfl⟩
  | ok candidates =>
    obtain ⟨_, _, rfl⟩ := inlineCandidates_eq_ok_iff.mp hcandidates
    rw [ok_bind]
    split
    · next hnil =>
      have hperm : List.Perm [] (u.activeContexts s pc ranges base) := by
        rw [List.map_eq_nil_iff.mp hnil]
      exact absurd (oneChain_of_positions hperm
        (fun before a after hsplit => by simp at hsplit) .nil (Nat.zero_le _)).1 h
    split
    · exact ⟨kLimitText, by simp [structuralTexts], rfl⟩
    next hbounded =>
      obtain ⟨l, hperm, hsort, _⟩ := exists_sorted (s := s) sort (u.activeContexts s pc ranges base)
      rw [hsort]
      cases hchecks : (List.range (l.map (u.candidateOf s)).length).forM
          (u.checkCandidate (l.map (u.candidateOf s))) with
      | error e =>
        obtain ⟨index, _, hindex⟩ := forM_eq_error hchecks
        obtain ⟨text, htext, rfl⟩ := checkCandidate_error hindex
        exact ⟨text, htext, rfl⟩
      | ok _ =>
        obtain ⟨hdepths, hnested⟩ := checkCandidates_iff.mp hchecks
        have hlength : l.length ≤ kMaxInlineContexts := by
          rw [hperm.length_eq]
          simpa using hbounded
        exact absurd (oneChain_of_positions hperm hdepths hnested hlength).1 h

end Chains

/-! ## The order of the entries -/

section Order

variable {u v : DieUnit} {rel : u.Index → v.Index → Prop} {s i j : u.Index} {t k l : v.Index}
  {pc : Word} {ranges : List Byte} {base : Word}

theorem Matches.boundedRangeListContainsPc (h : Matches rel) (hik : rel i k) (pc : Word)
    (ranges : List Byte) (base : Word) (version : Nat) :
    (u.die i).boundedRangeListContainsPc pc ranges base version =
      (v.die k).boundedRangeListContainsPc pc ranges base version := by
  have hrange := h.attribute hik kInlineDwAtRanges
  unfold Die.boundedRangeListContainsPc
  generalize (u.die i).attribute kInlineDwAtRanges = range,
    (v.die k).attribute kInlineDwAtRanges = range' at hrange
  cases hrange with
  | none => rfl
  | @some range range' hsame =>
    dsimp only
    rw [← hsame.form]
    by_cases hform : range.form ≠ kDwFormSecOffset ∧ range.form ≠ kDwFormData4
    · simp only [if_pos hform]
      rfl
    · have hnumber : range.number = range'.number := by
        refine hsame.number (.inl fun href => hform ?_)
        rw [href]
        decide
      rw [hnumber]

theorem Matches.inlineScopeContainsPc (h : Matches rel) (hik : rel i k) (pc : Word)
    (ranges : List Byte) (base : Word) (version : Nat) :
    (u.die i).inlineScopeContainsPc pc ranges base version =
      (v.die k).inlineScopeContainsPc pc ranges base version := by
  have hlow := h.attribute hik kDwAtLowPc
  have hhigh := h.attribute hik kDwAtHighPc
  unfold Die.inlineScopeContainsPc
  rw [h.containsPc hik, h.boundedRangeListContainsPc hik]
  generalize (u.die i).attribute kDwAtLowPc = low, (v.die k).attribute kDwAtLowPc = low' at hlow
  generalize (u.die i).attribute kDwAtHighPc = high, (v.die k).attribute kDwAtHighPc = high'
    at hhigh
  cases hlow with
  | none => cases hhigh <;> rfl
  | some hlow =>
    cases hhigh with
    | none => rfl
    | some _ =>
      dsimp only
      rw [hlow.form]

/-- What is related to an entry below the subprogram is below it as well. -/
theorem SharesSubprogram.below_right (h : SharesSubprogram rel s t) (hik : rel i k)
    (hi : u.isDescendantOf i s = true) : v.isDescendantOf k t = true := by
  obtain ⟨k', hk', hrel⟩ := h.total i hi
  exact (h.single hik hrel).mp rfl ▸ hk'

theorem SharesSubprogram.below_left (h : SharesSubprogram rel s t) (hik : rel i k)
    (hk : v.isDescendantOf k t = true) : u.isDescendantOf i s = true := by
  obtain ⟨i', hi', hrel⟩ := h.onto k hk
  exact (h.single hik hrel).mpr rfl ▸ hi'

theorem SharesSubprogram.isDescendantOf_iff (h : SharesSubprogram rel s t) (hik : rel i k)
    (hjl : rel j l) (hi : u.isDescendantOf i s = true) (hj : u.isDescendantOf j s = true) :
    u.isDescendantOf i j = true ↔ v.isDescendantOf k l = true := by
  induction hroom : i.val using Nat.strongRecOn generalizing i k with
  | ind room ih =>
    subst hroom
    obtain ⟨hp, hq⟩ | ⟨p, q, hp, hq, hpq, hmem⟩ := h.parent_cases hik hi
    · rw [isDescendantOf_of_none hp, isDescendantOf_of_none hq]
    · rw [DieUnit.isDescendantOf_iff hp, DieUnit.isDescendantOf_iff hq, h.single hpq hjl]
      refine or_congr_right ?_
      obtain rfl | hp' := hmem
      · -- at the subprogram both walks have passed everything below it
        have hl := h.below_right hjl hj
        have ht : t = q := (h.single h.root hpq).mp rfl
        refine iff_of_false (fun hpj => ?_) fun hql => ?_
        · exact lt_asymm (lt_of_isDescendantOf hpj) (lt_of_isDescendantOf hj)
        · exact lt_asymm (lt_of_isDescendantOf (ht ▸ hql)) (lt_of_isDescendantOf hl)
      · exact ih p (parent_lt hp) hpq hp' rfl

theorem SharesSubprogram.inlined_iff (h : SharesSubprogram rel s t) (hik : rel i k) :
    u.Inlined s i ↔ v.Inlined t k := by
  unfold Inlined
  rw [h.tag hik]
  exact and_congr_right fun _ => ⟨h.below_right hik, h.below_left hik⟩

theorem SharesSubprogram.activeContext_iff (h : SharesSubprogram rel s t) (hik : rel i k)
    (hversion : u.version = v.version) :
    u.ActiveContext s pc ranges base i ↔ v.ActiveContext t pc ranges base k := by
  unfold ActiveContext
  rw [h.inlined_iff hik, h.inlineScopeContainsPc hik, hversion]

theorem exists_forall₂ {l : List u.Index} (h : ∀ i ∈ l, ∃ k, rel i k) :
    ∃ l', List.Forall₂ rel l l' := by
  induction l with
  | nil => exact ⟨[], .nil⟩
  | cons i l ih =>
    obtain ⟨k, hik⟩ := h i List.mem_cons_self
    obtain ⟨l', hrest⟩ := ih fun j hj => h j (List.mem_cons_of_mem i hj)
    exact ⟨k :: l', .cons hik hrest⟩

theorem exists_left_of_mem {l : List u.Index} {l' : List v.Index} (h : List.Forall₂ rel l l')
    (hk : k ∈ l') : ∃ i ∈ l, rel i k := by
  induction h with
  | nil => exact absurd hk List.not_mem_nil
  | cons hik _ ih =>
    obtain rfl | hk := List.mem_cons.mp hk
    · exact ⟨_, List.mem_cons_self, hik⟩
    · obtain ⟨j, hj, hjk⟩ := ih hk
      exact ⟨j, List.mem_cons_of_mem _ hj, hjk⟩

/-- A chain of the one unit is a chain of the other. -/
theorem SharesSubprogram.exists_chainOf (h : SharesSubprogram rel s t)
    (hversion : u.version = v.version) {chain : List u.Index}
    (hchain : u.ChainOf s pc ranges base chain) :
    ∃ chain', v.ChainOf t pc ranges base chain' ∧ List.Forall₂ rel chain chain' := by
  obtain ⟨chain', himage⟩ := exists_forall₂ fun i hi =>
    (h.total i ((hchain.mem i).mp hi).1.2).imp fun k hk => hk.2
  refine ⟨chain', ⟨fun k => ⟨fun hk => ?_, fun hk => ?_⟩, ?_⟩, himage⟩
  · obtain ⟨i, hi, hik⟩ := exists_left_of_mem himage hk
    exact (h.activeContext_iff hik hversion).mp ((hchain.mem i).mp hi)
  · obtain ⟨i, _, hik⟩ := h.onto k hk.1.2
    have hi := (hchain.mem i).mpr ((h.activeContext_iff hik hversion).mpr hk)
    obtain ⟨k', hk', hik'⟩ := exists_left_of_mem himage.flip hi
    exact (h.single hik hik').mp rfl ▸ hk'
  · have hbelow : ∀ i ∈ chain, u.isDescendantOf i s = true := fun i hi =>
      ((hchain.mem i).mp hi).1.2
    have hnested := hchain.nested
    clear hchain
    induction himage with
    | nil => exact .nil
    | @cons i k chain chain' hik hrest ih =>
      obtain ⟨hfirst, hpairs⟩ := List.pairwise_cons.mp hnested
      have hi := hbelow i List.mem_cons_self
      have hother := fun j hj => hbelow j (List.mem_cons_of_mem i hj)
      refine List.pairwise_cons.mpr ⟨fun l hl => ?_, ih hother hpairs⟩
      obtain ⟨j, hj, hjl⟩ := exists_left_of_mem hrest hl
      exact (h.isDescendantOf_iff hjl hik (hother j hj) hi).mp (hfirst j hj)

theorem SharesSubprogram.scopesEvaluate (h : SharesSubprogram rel s t)
    (hversion : u.version = v.version) (hscopes : u.ScopesEvaluate s pc ranges base) :
    v.ScopesEvaluate t pc ranges base := by
  intro k hk
  obtain ⟨i, _, hik⟩ := h.onto k hk.2
  rw [← h.inlineScopeContainsPc hik, ← hversion]
  exact hscopes i ((h.inlined_iff hik).mpr hk)

theorem OneChain.exists_chainOf (h : u.OneChain s pc ranges base) :
    ∃ chain, u.ChainOf s pc ranges base chain := by
  let le : u.Index → u.Index → Bool := fun i j => u.contextDepth s i ≤ u.contextDepth s j
  have htrans (i j k : u.Index) (hij : le i j) (hjk : le j k) : le i k :=
    decide_eq_true ((of_decide_eq_true hij).trans (of_decide_eq_true hjk))
  have hsorted := List.pairwise_mergeSort htrans
    (fun i j => by simpa [le] using Nat.le_total _ _) (u.activeContexts s pc ranges base)
  exact ⟨_, h.chainOf (List.mergeSort_perm _ le) (hsorted.imp of_decide_eq_true)⟩

/-- Whether the active contexts form one chain does not depend on the order of the entries. -/
theorem SharesSubprogram.oneChain (h : SharesSubprogram rel s t) (hversion : u.version = v.version)
    (hone : u.OneChain s pc ranges base) : v.OneChain t pc ranges base := by
  have hpull : ∀ k, v.ActiveContext t pc ranges base k →
      ∃ i, rel i k ∧ u.ActiveContext s pc ranges base i := by
    intro k hk
    obtain ⟨i, _, hik⟩ := h.onto k hk.1.2
    exact ⟨i, hik, (h.activeContext_iff hik hversion).mpr hk⟩
  refine ⟨fun k l hk hl => ?_, fun k l hk hl hinside => ?_, ?_⟩
  · obtain ⟨i, hik, hi⟩ := hpull k hk
    obtain ⟨j, hjl, hj⟩ := hpull l hl
    rw [← h.isDescendantOf_iff hik hjl hi.1.2 hj.1.2, ← h.isDescendantOf_iff hjl hik hj.1.2 hi.1.2,
      ← h.single hik hjl]
    exact hone.nested i j hi hj
  · obtain ⟨i, hik, hi⟩ := hpull k hk
    obtain ⟨j, hj, hjl⟩ := h.onto l hl.2
    refine (h.activeContext_iff hjl hversion).mp (hone.enclosed i j hi ?_ ?_)
    · exact (h.inlined_iff hjl).mpr hl
    · exact (h.isDescendantOf_iff hik hjl hi.1.2 hj).mpr hinside
  · obtain ⟨chain, hchain⟩ := hone.exists_chainOf
    obtain ⟨chain', hchain', himage⟩ := h.exists_chainOf hversion hchain
    rw [← hchain'.perm.length_eq, ← himage.length_eq, hchain.perm.length_eq]
    exact hone.bounded

theorem optionRel_flip {α β : Type} {r : α → β → Prop} {a : Option α} {b : Option β}
    (h : Option.Rel r a b) : Option.Rel (flip r) b a := by
  cases h with
  | none => exact .none
  | some hab => exact .some hab

theorem SameAttribute.symm {a b : AttributeValue} (h : SameAttribute rel a b) :
    SameAttribute (flip rel) b a where
  name := h.name.symm
  form := h.form.symm
  text := h.text.symm
  expression := h.expression.symm
  number hb := (h.number (by rwa [h.form, h.name])).symm
  reference hb := optionRel_flip (h.reference (h.form.trans hb))

theorem SharesSubprogram.symm (h : SharesSubprogram rel s t) :
    SharesSubprogram (flip rel) t s where
  single hik hjl := (h.single hik hjl).symm
  tag hik := (h.tag hik).symm
  attributes hik := ((h.attributes hik).imp fun _ _ hsame => hsame.symm).flip
  root := h.root
  parent hik hk := optionRel_flip (h.parent hik (h.below_left hik hk))
  total k hk := h.onto k hk
  onto i hi := h.total i hi

theorem SharesSubprogram.oneChain_iff (h : SharesSubprogram rel s t)
    (hversion : u.version = v.version) :
    (u.ScopesEvaluate s pc ranges base ∧ u.OneChain s pc ranges base) ↔
      (v.ScopesEvaluate t pc ranges base ∧ v.OneChain t pc ranges base) :=
  ⟨fun ⟨hscopes, hone⟩ => ⟨h.scopesEvaluate hversion hscopes, h.oneChain hversion hone⟩,
    fun ⟨hscopes, hone⟩ =>
      ⟨h.symm.scopesEvaluate hversion.symm hscopes, h.symm.oneChain hversion.symm hone⟩⟩

end Order

section Discovery

variable {u : DieUnit} {s : u.Index} {pc : Word} {ranges : List Byte} {base : Word}

/-- Contexts are returned if and only if the active ones form one chain, which they do in any order
of the entries. What is returned is the chain from the outermost to the innermost, and a structural
error is thrown where there is none. -/
theorem discoverInlineUnit_chain (howner : u.OwnedBy pc ranges base s)
    (sort : StdSort (@InlineCandidate.shallower u)) (modulePath : String) :
    (∀ table, u.MetadataAvailable table s pc ranges base →
      ((∃ contexts, u.discoverInlineUnit sort (.ok table) ranges pc modulePath =
          .ok (some contexts)) ↔
        u.ScopesEvaluate s pc ranges base ∧ u.OneChain s pc ranges base)) ∧
    (∀ lineTable contexts, u.discoverInlineUnit sort lineTable ranges pc modulePath =
        .ok (some contexts) →
      ∃ chain, u.ChainOf s pc ranges base chain ∧ ContextsOf u chain contexts) ∧
    (∀ lineTable, u.ScopesEvaluate s pc ranges base → ¬u.OneChain s pc ranges base →
      ∃ text ∈ structuralTexts, u.discoverInlineUnit sort lineTable ranges pc modulePath =
        .error (.runtimeError text)) ∧
    ∀ (v : DieUnit) (t : v.Index) (rel : u.Index → v.Index → Prop), SharesSubprogram rel s t →
      u.version = v.version →
      ((u.ScopesEvaluate s pc ranges base ∧ u.OneChain s pc ranges base) ↔
        (v.ScopesEvaluate t pc ranges base ∧ v.OneChain t pc ranges base)) ∧
      ∀ chain chain', u.ChainOf s pc ranges base chain → v.ChainOf t pc ranges base chain' →
        List.Forall₂ rel chain chain' := by
  refine ⟨fun table hmetadata => ⟨?_, ?_⟩, fun lineTable contexts h => ?_,
    fun lineTable hscopes hnot => discoverInlineUnit_error howner hscopes hnot,
    fun v t rel hshares hversion => ⟨hshares.oneChain_iff hversion, ?_⟩⟩
  · rintro ⟨contexts, h⟩
    obtain ⟨hscopes, hone, _⟩ := oneChain_of_discoverInlineUnit howner h
    exact ⟨hscopes, hone⟩
  · rintro ⟨hscopes, hone⟩
    exact discoverInlineUnit_of_oneChain howner hmetadata hscopes hone
  · exact (oneChain_of_discoverInlineUnit howner h).2.2
  · intro chain chain' hchain hchain'
    obtain ⟨image, himage, hrel⟩ := hshares.exists_chainOf hversion hchain
    have hsame : image = chain' := by
      refine (nesting t).chain_unique himage.nested hchain'.nested fun k => ?_
      rw [himage.mem, hchain'.mem]
    exact hsame ▸ hrel

end Discovery

/-- The sort that keeps candidates of one depth in their order. -/
def depthSort (u : DieUnit) : StdSort (@InlineCandidate.shallower u) where
  sort l := l.insertionSort fun left right => left.depth ≤ right.depth
  perm l := List.perm_insertionSort _ l
  sorted l := by
    let deeper (left right : u.InlineCandidate) : Prop := left.depth ≤ right.depth
    have : Std.Total deeper := ⟨fun left right => Nat.le_total left.depth right.depth⟩
    have : IsTrans u.InlineCandidate deeper := ⟨fun _ _ _ => Nat.le_trans⟩
    have hsorted := List.pairwise_insertionSort deeper l
    exact hsorted.imp fun hle => decide_eq_false (not_lt.mpr hle)

/-- The attributes of an inlined call in line `line`. -/
def callAttributes (name : String) (line : Word) : List AttributeValue :=
  [⟨kDwAtName, 0x08, 0, name, []⟩, ⟨kInlineDwAtCallFile, kDwFormData4, 1, "", []⟩,
    ⟨kInlineDwAtCallLine, kDwFormData4, line, "", []⟩]

def scopeAttributes (low size : Word) : List AttributeValue :=
  [⟨kDwAtLowPc, kDwFormAddr, low, "", []⟩, ⟨kDwAtHighPc, kDwFormData4, size, "", []⟩]

/-- A subprogram with the inlined call `outer` in two pieces, a block in it with the inlined call
`inner`, and another inlined call after them. -/
def nestedInlines : DieUnit where
  dies :=
    [{ offset := 11, tag := 0x11 },
      { offset := 12, tag := kDwTagSubprogram, parent := some 0
        attributes := scopeAttributes 0x1000 0x100 },
      { offset := 30, tag := kDwTagInlinedSubroutine, parent := some 1
        attributes := ⟨kInlineDwAtRanges, kDwFormSecOffset, 0, "", []⟩ ::
          callAttributes "outer" 5 },
      { offset := 50, tag := kDwTagLexicalBlock, parent := some 2
        attributes := scopeAttributes 0x1060 0x10 },
      { offset := 60, tag := kDwTagInlinedSubroutine, parent := some 3
        attributes := scopeAttributes 0x1064 8 ++ callAttributes "inner" 7 },
      { offset := 80, tag := kDwTagInlinedSubroutine, parent := some 1
        attributes := scopeAttributes 0x1080 0x10 ++ callAttributes "later" 9 }]
  ascending := by decide
  rooted := by decide

/-- The pieces `0x1010..0x1020` and `0x1060..0x1070`. -/
def twoPieces : List Byte :=
  [0x10, 0x10, 0, 0, 0, 0, 0, 0, 0x20, 0x10, 0, 0, 0, 0, 0, 0, 0x60, 0x10, 0, 0, 0, 0, 0, 0,
    0x70, 0x10, 0, 0, 0, 0, 0, 0] ++ List.replicate 16 0

def oneFile : LineTable where
  fileTables := [⟨false, ["a.c".toList]⟩]
  ranges := [⟨0x1000, 0x1100, ⟨"a.c".toList, 5, 0⟩, 0⟩]
  nonempty := by decide
  sorted := by decide
  owned := by decide

/-- Its subprogram. -/
def nestedSubprogram : nestedInlines.Index := ⟨1, by decide⟩

/-- The chain at an address in `inner` goes through the block. -/
theorem discoverInlineUnit_chain_nestedInlines :
    (∃ contexts, nestedInlines.discoverInlineUnit (depthSort _) (.ok oneFile) twoPieces 0x1068
      "m" = .ok (some contexts)) ∧
    ∃ chain, nestedInlines.ChainOf nestedSubprogram 0x1068 twoPieces 0 chain ∧
      ContextsOf nestedInlines chain
        [⟨30, 0, "m", "outer", ⟨"a.c", 5, 0⟩⟩, ⟨60, 1, "m", "inner", ⟨"a.c", 7, 0⟩⟩] := by
  have howner : nestedInlines.OwnedBy 0x1068 twoPieces 0 nestedSubprogram :=
    ⟨by decide, by decide +kernel⟩
  have hactive : ∀ i, nestedInlines.ActiveContext nestedSubprogram 0x1068 twoPieces 0 i →
      i = ⟨2, by decide⟩ ∨ i = ⟨4, by decide⟩ := by decide +kernel
  have hmetadata : nestedInlines.MetadataAvailable oneFile nestedSubprogram 0x1068 twoPieces 0 := by
    refine ⟨by decide +kernel, fun i hi => ?_⟩
    obtain rfl | rfl := hactive i hi
    all_goals exact ⟨_, _, _, _, rfl, by decide, rfl, by decide, rfl, by decide, rfl⟩
  have hscopes : nestedInlines.ScopesEvaluate nestedSubprogram 0x1068 twoPieces 0 := by
    have hread : ∀ i, ((nestedInlines.die i).inlineScopeContainsPc 0x1068 twoPieces 0
        nestedInlines.version).toOption.any (fun _ => true) ∨
          ¬nestedInlines.Inlined nestedSubprogram i := by decide +kernel
    intro i hi
    obtain ⟨inside, hinside, -⟩ := toOption_any_eq_true.mp ((hread i).resolve_right (not_not.mpr hi))
    exact ⟨inside, hinside⟩
  have hone : nestedInlines.OneChain nestedSubprogram 0x1068 twoPieces 0 :=
    ⟨by decide +kernel, by decide +kernel, by decide +kernel⟩
  have htheorem := discoverInlineUnit_chain howner (depthSort _) "m"
  exact ⟨(htheorem.1 oneFile hmetadata).mpr ⟨hscopes, hone⟩,
    htheorem.2.1 (.ok oneFile) _ (by decide +kernel)⟩

end DieUnit

end MiniDebugger
