import Mathlib.Data.List.MinMax
import MiniDebugger.Checks
import MiniDebugger.Paths.Normal
import MiniDebugger.Process

/-!
# Path substitution

Two resolvers put a local directory in the place of a recorded one: `SourcePathResolver` for the
source files and `SnapshotModulePathResolver` for the modules of a snapshot. Both keep a list of
substitutions and take the one whose prefix has the most components.
-/

namespace MiniDebugger

open FilePath Checks

structure Substitution where
  fromPath : FilePath
  toPath : FilePath
  deriving DecidableEq, Repr

/-! ## What both resolvers do -/

def hasComponentPrefix (path fromPath : FilePath) : Bool :=
  (elements fromPath).isPrefixOf (elements path)

def componentCount (path : FilePath) : Nat := (elements path).length

def suffixAfter (path fromPath : FilePath) : FilePath :=
  ((elements path).drop (elements fromPath).length).foldl append []

/-- The rule for a prefix is replaced where it stands. -/
def putSubstitution (substitution : Substitution) : List Substitution → List Substitution
  | [] => [substitution]
  | known :: rest =>
    if known.fromPath = substitution.fromPath then substitution :: rest
    else known :: putSubstitution substitution rest

/-- `add_substitution`, with what is said about an empty prefix and an empty target. -/
def addSubstitution (prefixError targetError : String) (substitutions : List Substitution)
    (fromPath toPath : FilePath) : Except Exception (List Substitution) :=
  let fromPath := lexicallyNormal fromPath
  let toPath := lexicallyNormal toPath
  if fromPath = [] ∨ fromPath = ['.'] then throw (.invalidArgument prefixError)
  else if toPath = [] then throw (.invalidArgument targetError)
  else return putSubstitution ⟨fromPath, toPath⟩ substitutions

/-- A round of the loop of `substituted_candidate`. -/
def betterSubstitution (candidate : FilePath) (best : Option Substitution)
    (substitution : Substitution) : Option Substitution :=
  if hasComponentPrefix candidate substitution.fromPath then
    match best with
    | none => some substitution
    | some known =>
      if componentCount substitution.fromPath > componentCount known.fromPath then
        some substitution
      else best
  else best

def bestSubstitution (substitutions : List Substitution) (candidate : FilePath) :
    Option Substitution :=
  substitutions.foldl (betterSubstitution candidate) none

namespace SourcePathResolver

def addSubstitution (substitutions : List Substitution) (fromPath toPath : FilePath) :
    Except Exception (List Substitution) :=
  MiniDebugger.addSubstitution "source substitution prefix must not be empty"
    "source substitution target must not be empty" substitutions fromPath toPath

def substitutedCandidate (substitutions : List Substitution) (candidate : FilePath) :
    Option FilePath :=
  let normalizedCandidate := lexicallyNormal candidate
  match bestSubstitution substitutions normalizedCandidate with
  | none => none
  | some best =>
    some (lexicallyNormal (append best.toPath (suffixAfter normalizedCandidate best.fromPath)))

end SourcePathResolver

namespace SnapshotModulePathResolver

def addSubstitution (substitutions : List Substitution) (fromPath toPath : FilePath) :
    Except Exception (List Substitution) :=
  MiniDebugger.addSubstitution "snapshot module substitution prefix must not be empty"
    "snapshot module substitution target must not be empty" substitutions fromPath toPath

/-- `resolve` has normalised the candidate. -/
def substitutedCandidate (substitutions : List Substitution) (candidate : FilePath) :
    Option FilePath :=
  match bestSubstitution substitutions candidate with
  | none => none
  | some best =>
    let suffix := suffixAfter candidate best.fromPath
    if suffix = [] then some best.toPath
    else some (lexicallyNormal (append best.toPath suffix))

end SnapshotModulePathResolver

/-! ## What a list of substitutions means -/

namespace Substitution

variable (call : Substitution) (path : FilePath)

/-- The names of the prefix are the first names of the path. -/
def Matches : Prop :=
  (normalForm call.fromPath).absolute = true ∧
    (normalForm call.fromPath).names <+: (normalForm path).names

instance : Decidable (call.Matches path) := inferInstanceAs (Decidable (_ ∧ _))

/-- The same prefix, with or without a separator at its end. -/
def SamePrefix (other : Substitution) : Prop :=
  (normalForm call.fromPath).absolute = (normalForm other.fromPath).absolute ∧
    (normalForm call.fromPath).names = (normalForm other.fromPath).names

/-- The names that the prefix leaves over. -/
def unmatched : List FilePath :=
  (normalForm path).names.drop (normalForm call.fromPath).names.length

/-- The target followed by what is left over of the path. -/
def substituted : FilePath :=
  spelled (normalForm call.toPath).absolute
    ((normalForm call.toPath).names ++ call.unmatched path) (normalForm path).trailing

/-- What the resolvers keep of a call. -/
def normal : Substitution := ⟨lexicallyNormal call.fromPath, lexicallyNormal call.toPath⟩

end Substitution

/-- The call whose prefix matches the most names, the last one for that prefix. -/
structure IsChoice (calls : List Substitution) (path : FilePath) (call : Substitution) : Prop where
  covers : call.Matches path
  most : ∀ other ∈ calls, other.Matches path →
    (normalForm other.fromPath).names.length ≤ (normalForm call.fromPath).names.length
  last : ∃ before after, calls = before ++ call :: after ∧ ∀ other ∈ after, ¬call.SamePrefix other

/-- Both resolvers choose the right substitution and follow it. -/
structure Substitutes (calls substitutions moduleSubstitutions : List Substitution)
    (path : FilePath) : Prop where
  chosen : ∀ call, IsChoice calls path call →
    bestSubstitution substitutions (lexicallyNormal path) = some call.normal ∧
      bestSubstitution moduleSubstitutions (lexicallyNormal path) = some call.normal
  source : ∀ call, IsChoice calls path call →
    SourcePathResolver.substitutedCandidate substitutions path = some (call.substituted path)
  snapshot : ∀ call, IsChoice calls path call →
    SnapshotModulePathResolver.substitutedCandidate moduleSubstitutions (lexicallyNormal path) =
      some (call.substituted path)
  unmatched : (∀ call ∈ calls, ¬call.Matches path) →
    SourcePathResolver.substitutedCandidate substitutions path = none ∧
      SnapshotModulePathResolver.substitutedCandidate moduleSubstitutions
        (lexicallyNormal path) = none

/-- No separator at the end of the prefix, of the path or of the target gets in the way. -/
structure Substitution.Faithful (calls : List Substitution) (path : FilePath)
    (call : Substitution) : Prop where
  ended : (normalForm call.fromPath).trailing = true →
    call.unmatched path = [] ∧ (normalForm path).trailing = true
  alone : (normalForm call.fromPath).trailing = false → call.unmatched path = [] →
    (normalForm path).trailing = true →
      ∀ other ∈ calls, call.SamePrefix other → (normalForm other.fromPath).trailing = false
  whole : call.unmatched path = [] → (normalForm call.toPath).Open →
    (normalForm path).trailing = true ∧ (normalForm call.toPath).trailing = true

/-! ## The rules that a list of calls leaves -/

/-- The last element with its key. -/
def IsLatest {α κ : Type} (key : α → κ) (l : List α) (a : α) : Prop :=
  ∃ before after, l = before ++ a :: after ∧ ∀ b ∈ after, key b ≠ key a

section Rules

variable {rules calls : List Substitution} {substitution rule : Substitution}

theorem mem_map_putSubstitution {fromPath : FilePath} :
    fromPath ∈ (putSubstitution substitution rules).map (·.fromPath) ↔
      fromPath = substitution.fromPath ∨ fromPath ∈ rules.map (·.fromPath) := by
  induction rules with
  | nil => simp [putSubstitution]
  | cons known rules ih =>
    unfold putSubstitution
    split
    · next hsame => simp [hsame]
    · simp only [List.map_cons, List.mem_cons, ih]
      exact or_left_comm

theorem nodup_putSubstitution (h : (rules.map (·.fromPath)).Nodup) :
    ((putSubstitution substitution rules).map (·.fromPath)).Nodup := by
  induction rules with
  | nil => exact List.nodup_singleton _
  | cons known rules ih =>
    obtain ⟨hknown, hrules⟩ := List.nodup_cons.mp h
    unfold putSubstitution
    split
    · next hsame =>
      have hfresh : substitution.fromPath ∉ rules.map (·.fromPath) := hsame ▸ hknown
      exact List.nodup_cons.mpr ⟨hfresh, hrules⟩
    · next hother =>
      refine List.nodup_cons.mpr ⟨fun hmem => ?_, ih hrules⟩
      exact (mem_map_putSubstitution.mp hmem).elim hother hknown

theorem mem_putSubstitution (h : (rules.map (·.fromPath)).Nodup) :
    rule ∈ putSubstitution substitution rules ↔
      rule = substitution ∨ (rule ∈ rules ∧ rule.fromPath ≠ substitution.fromPath) := by
  induction rules with
  | nil => simp [putSubstitution]
  | cons known rules ih =>
    obtain ⟨hknown, hrules⟩ := List.nodup_cons.mp h
    unfold putSubstitution
    split
    · next hsame =>
      have hne : rule ∈ rules → rule.fromPath ≠ substitution.fromPath := fun hmem heq =>
        hknown (List.mem_map.mpr ⟨rule, hmem, heq.trans hsame.symm⟩)
      rw [List.mem_cons, List.mem_cons]
      refine or_congr_right ⟨fun hmem => ⟨.inr hmem, hne hmem⟩, ?_⟩
      rintro ⟨rfl | hmem, hother⟩
      · exact absurd hsame hother
      · exact hmem
    · next hother =>
      rw [List.mem_cons, List.mem_cons, ih hrules]
      constructor
      · rintro (rfl | rfl | hrule)
        · exact .inr ⟨.inl rfl, hother⟩
        · exact .inl rfl
        · exact .inr ⟨.inr hrule.1, hrule.2⟩
      · rintro (rfl | ⟨rfl | hmem, hne⟩)
        · exact .inr (.inl rfl)
        · exact .inl rfl
        · exact .inr (.inr ⟨hmem, hne⟩)

/-- The rules after all the calls. -/
def rulesOf (calls : List Substitution) : List Substitution :=
  calls.foldl (fun rules call => putSubstitution call.normal rules) []

theorem rulesOf_concat (call : Substitution) :
    rulesOf (calls ++ [call]) = putSubstitution call.normal (rulesOf calls) := by
  rw [rulesOf, List.foldl_append]
  rfl

theorem nodup_rulesOf (calls : List Substitution) : ((rulesOf calls).map (·.fromPath)).Nodup := by
  induction calls using List.reverseRecOn with
  | nil => exact List.nodup_nil
  | append_singleton calls call ih =>
    rw [rulesOf_concat]
    exact nodup_putSubstitution ih

theorem isLatest_concat {α κ : Type} {key : α → κ} {l : List α} {a b : α} :
    IsLatest key (l ++ [b]) a ↔ a = b ∨ (IsLatest key l a ∧ key b ≠ key a) := by
  constructor
  · rintro ⟨before, after, heq, hafter⟩
    obtain rfl | ⟨after, last, rfl⟩ := List.eq_nil_or_concat' after
    · exact .inl (List.head_eq_of_cons_eq (List.append_inj' heq rfl).2.symm)
    · rw [← List.cons_append, ← List.append_assoc] at heq
      obtain ⟨hl, hb⟩ := List.append_inj' heq rfl
      obtain rfl := List.head_eq_of_cons_eq hb
      refine .inr ⟨⟨before, after, hl, fun c hc => ?_⟩, ?_⟩
      · exact hafter c (List.mem_append_left _ hc)
      · exact hafter _ (List.mem_append_right _ (List.mem_singleton_self _))
  · rintro (rfl | ⟨⟨before, after, rfl, hafter⟩, hne⟩)
    · exact ⟨l, [], rfl, fun _ h => absurd h List.not_mem_nil⟩
    · refine ⟨before, after ++ [b], by simp, fun c hc => ?_⟩
      obtain hc | hc := List.mem_append.mp hc
      · exact hafter c hc
      · exact List.mem_singleton.mp hc ▸ hne

/-- A rule is what the last call for its prefix says. -/
theorem mem_rulesOf : rule ∈ rulesOf calls ↔
    ∃ call, IsLatest (fun call => call.normal.fromPath) calls call ∧ call.normal = rule := by
  induction calls using List.reverseRecOn with
  | nil =>
    refine iff_of_false List.not_mem_nil ?_
    rintro ⟨call, ⟨before, after, hnil, -⟩, -⟩
    exact absurd hnil (by simp)
  | append_singleton calls last ih =>
    rw [rulesOf_concat, mem_putSubstitution (nodup_rulesOf calls), ih]
    constructor
    · rintro (rfl | ⟨⟨call, hlatest, rfl⟩, hne⟩)
      · exact ⟨last, isLatest_concat.mpr (.inl rfl), rfl⟩
      · exact ⟨call, isLatest_concat.mpr (.inr ⟨hlatest, hne.symm⟩), rfl⟩
    · rintro ⟨call, hlatest, rfl⟩
      obtain rfl | ⟨hlatest, hne⟩ := isLatest_concat.mp hlatest
      · exact .inl rfl
      · exact .inr ⟨⟨call, hlatest, rfl⟩, hne.symm⟩

theorem exists_isLatest {α κ : Type} (key : α → κ) {l : List α} {a : α} (h : a ∈ l) :
    ∃ b, IsLatest key l b ∧ key b = key a := by
  induction l using List.reverseRecOn with
  | nil => exact absurd h List.not_mem_nil
  | append_singleton l last ih =>
    by_cases hlast : key last = key a
    · exact ⟨last, isLatest_concat.mpr (.inl rfl), hlast⟩
    · obtain h | h := List.mem_append.mp h
      · obtain ⟨b, hb, hkey⟩ := ih h
        exact ⟨b, isLatest_concat.mpr (.inr ⟨hb, hkey ▸ hlast⟩), hkey⟩
      · exact absurd (congrArg key (List.mem_singleton.mp h).symm) hlast

theorem IsLatest.mem {α κ : Type} {key : α → κ} {l : List α} {a : α} (h : IsLatest key l a) :
    a ∈ l := by
  obtain ⟨before, after, rfl, -⟩ := h
  exact List.mem_append_right _ List.mem_cons_self

/-- What `add_substitution` asks of its arguments. -/
def Accepted (call : Substitution) : Prop :=
  (call.normal.fromPath ≠ [] ∧ call.normal.fromPath ≠ ['.']) ∧ call.normal.toPath ≠ []

theorem addSubstitution_eq_ok {prefixError targetError : String} {fromPath toPath : FilePath}
    {rules' : List Substitution} :
    addSubstitution prefixError targetError rules fromPath toPath = .ok rules' ↔
      Accepted ⟨fromPath, toPath⟩ ∧
        putSubstitution (Substitution.normal ⟨fromPath, toPath⟩) rules = rules' := by
  unfold addSubstitution
  rw [ite_throw_eq_ok, ite_throw_eq_ok, pure_eq_ok, ← and_assoc, not_or]
  rfl

theorem foldlM_addSubstitution {prefixError targetError : String} {rules' : List Substitution}
    (h : calls.foldlM (fun rules call =>
      addSubstitution prefixError targetError rules call.fromPath call.toPath) [] = .ok rules') :
    (∀ call ∈ calls, Accepted call) ∧ rules' = rulesOf calls := by
  induction calls using List.reverseRecOn generalizing rules' with
  | nil =>
    rw [List.foldlM_nil, pure_eq_ok] at h
    exact ⟨fun _ hmem => absurd hmem List.not_mem_nil, h.symm⟩
  | append_singleton calls last ih =>
    rw [List.foldlM_append, bind_eq_ok] at h
    obtain ⟨rules, hrules, hlast⟩ := h
    rw [List.foldlM_cons, bind_eq_ok] at hlast
    obtain ⟨rules'', hlast, hnil⟩ := hlast
    rw [List.foldlM_nil, pure_eq_ok] at hnil
    obtain ⟨haccepted, rfl⟩ := ih hrules
    obtain ⟨hlast, hput⟩ := addSubstitution_eq_ok.mp hlast
    refine ⟨fun call hcall => ?_, ?_⟩
    · obtain hcall | hcall := List.mem_append.mp hcall
      · exact haccepted call hcall
      · exact List.mem_singleton.mp hcall ▸ hlast
    · rw [← hnil, ← hput, rulesOf_concat]

end Rules

/-! ## The best rule -/

section Best

variable {rules : List Substitution} {rule : Substitution} {candidate : FilePath}

theorem bestSubstitution_eq_argmax (rules : List Substitution) (candidate : FilePath) :
    bestSubstitution rules candidate =
      (rules.filter fun rule => hasComponentPrefix candidate rule.fromPath).argmax
        fun rule => componentCount rule.fromPath := by
  rw [List.argmax, List.foldl_filter]
  refine List.foldl_ext _ _ _ fun best rule _ => ?_
  unfold betterSubstitution
  cases best <;> rfl

/-- Rules with different prefixes cannot have prefixes of the same length fit one path. -/
theorem bestSubstitution_eq_some_iff
    (hdistinct : ∀ first ∈ rules, ∀ second ∈ rules,
      elements first.fromPath = elements second.fromPath → first = second) :
    bestSubstitution rules candidate = some rule ↔
      rule ∈ rules ∧ hasComponentPrefix candidate rule.fromPath = true ∧
        ∀ other ∈ rules, hasComponentPrefix candidate other.fromPath = true →
          componentCount other.fromPath ≤ componentCount rule.fromPath := by
  have hmax : ∀ best, bestSubstitution rules candidate = some best →
      best ∈ rules ∧ hasComponentPrefix candidate best.fromPath = true ∧
        ∀ other ∈ rules, hasComponentPrefix candidate other.fromPath = true →
          componentCount other.fromPath ≤ componentCount best.fromPath := by
    intro best hbest
    rw [bestSubstitution_eq_argmax] at hbest
    obtain ⟨hmem, hfits⟩ := List.mem_filter.mp (List.argmax_mem hbest)
    refine ⟨hmem, hfits, fun other hother hprefix => ?_⟩
    exact List.le_of_mem_argmax (f := fun rule : Substitution => componentCount rule.fromPath)
      (List.mem_filter.mpr ⟨hother, hprefix⟩) hbest
  refine ⟨hmax rule, ?_⟩
  rintro ⟨hmem, hfits, hmost⟩
  cases hbest : bestSubstitution rules candidate with
  | none =>
    rw [bestSubstitution_eq_argmax, List.argmax_eq_none] at hbest
    exact absurd (List.mem_filter.mpr ⟨hmem, hfits⟩) (hbest ▸ List.not_mem_nil)
  | some best =>
    obtain ⟨hbestMem, hbestFits, hbestMost⟩ := hmax best hbest
    have hlength := le_antisymm (hmost best hbestMem hbestFits) (hbestMost rule hmem hfits)
    have hprefix := List.isPrefixOf_iff_prefix.mp hfits
    have hbestPrefix := List.isPrefixOf_iff_prefix.mp hbestFits
    have helements := (List.prefix_of_prefix_length_le hbestPrefix hprefix hlength.le).eq_of_length
      hlength
    exact congrArg some (hdistinct best hbestMem rule hmem helements)

theorem bestSubstitution_eq_none_iff :
    bestSubstitution rules candidate = none ↔
      ∀ rule ∈ rules, ¬hasComponentPrefix candidate rule.fromPath = true := by
  rw [bestSubstitution_eq_argmax, List.argmax_eq_none, List.filter_eq_nil_iff]

end Best

/-! ## Where a prefix fits -/

theorem ne_nil_of_lexicallyNormal {path : FilePath} (h : lexicallyNormal path ≠ []) : path ≠ [] :=
  fun hnil => h (by rw [hnil]; rfl)

section Prefixes

variable {call other : Substitution} {path : FilePath}

theorem Accepted.fromPath_eq (h : Accepted call) :
    call.normal.fromPath = (normalForm call.fromPath).text :=
  lexicallyNormal_eq (ne_nil_of_lexicallyNormal h.1.1)

theorem Accepted.toPath_eq (h : Accepted call) :
    call.normal.toPath = (normalForm call.toPath).text :=
  lexicallyNormal_eq (ne_nil_of_lexicallyNormal h.2)

theorem Accepted.normalForm_eq (hcall : Accepted call) (hother : Accepted other)
    (h : other.normal.fromPath = call.normal.fromPath) :
    normalForm other.fromPath = normalForm call.fromPath := by
  rw [hcall.fromPath_eq, hother.fromPath_eq] at h
  exact text_injective h

theorem lexicallyNormal_of_isAbsolute (h : isAbsolute path = true) :
    lexicallyNormal path = (normalForm path).text :=
  lexicallyNormal_eq fun hnil => by simp [hnil, isAbsolute] at h

/-- The prefix as it is kept is the beginning of the path. -/
def Substitution.Fits (call : Substitution) (path : FilePath) : Prop :=
  call.Matches path ∧ ((normalForm call.fromPath).trailing = true →
    call.unmatched path = [] ∧ (normalForm path).trailing = true)

theorem Substitution.Matches.unmatched_eq_nil_iff (h : call.Matches path) :
    call.unmatched path = [] ↔ (normalForm call.fromPath).names = (normalForm path).names := by
  rw [Substitution.unmatched, List.drop_eq_nil_iff]
  exact ⟨fun hlength => h.2.eq_of_length_le hlength, fun hnames => hnames ▸ le_rfl⟩

theorem hasComponentPrefix_iff (hpath : isAbsolute path = true) (hcall : Accepted call) :
    hasComponentPrefix (lexicallyNormal path) call.normal.fromPath = true ↔ call.Fits path := by
  rw [hasComponentPrefix, List.isPrefixOf_iff_prefix, hcall.fromPath_eq,
    lexicallyNormal_of_isAbsolute hpath, elements_text, elements_text, Substitution.Fits]
  cases habsolute : (normalForm call.fromPath).absolute with
  | false =>
    refine iff_of_false (not_elements_isPrefix habsolute hpath) fun hfits => ?_
    exact Bool.false_ne_true (habsolute.symm.trans hfits.1.1)
  | true =>
    rw [elements_prefix_iff habsolute hpath]
    constructor
    · rintro ⟨hbegins, htrailing⟩
      have hmatches : call.Matches path := ⟨habsolute, hbegins⟩
      exact ⟨hmatches, fun htrail => (htrailing htrail).imp_left hmatches.unmatched_eq_nil_iff.mpr⟩
    · rintro ⟨hmatches, htrailing⟩
      exact ⟨hmatches.2, fun htrail => (htrailing htrail).imp_left hmatches.unmatched_eq_nil_iff.mp⟩

theorem componentCount_eq (hcall : Accepted call) (h : call.Matches path) :
    componentCount call.normal.fromPath =
      1 + (normalForm call.fromPath).names.length +
        if (normalForm call.fromPath).trailing then 1 else 0 := by
  rw [componentCount, hcall.fromPath_eq, elements_text, elements_of_absolute h.1]
  cases (normalForm call.fromPath).trailing <;> simp [Nat.add_comm]

/-- Two accepted prefixes with the same elements are the same. -/
theorem Accepted.fromPath_eq_of_elements (hcall : Accepted call) (hother : Accepted other)
    (h : elements call.normal.fromPath = elements other.normal.fromPath) :
    call.normal.fromPath = other.normal.fromPath := by
  rw [hcall.fromPath_eq, hother.fromPath_eq, elements_text, elements_text] at h
  rw [hcall.fromPath_eq, hother.fromPath_eq, elements_injective h]

end Prefixes

/-! ## The choice -/

section Choice

variable {calls : List Substitution} {call : Substitution} {path : FilePath}

theorem distinct_rulesOf (haccepted : ∀ call ∈ calls, Accepted call) :
    ∀ first ∈ rulesOf calls, ∀ second ∈ rulesOf calls,
      elements first.fromPath = elements second.fromPath → first = second := by
  intro first hfirst second hsecond helements
  obtain ⟨a, ha, rfl⟩ := mem_rulesOf.mp hfirst
  obtain ⟨b, hb, rfl⟩ := mem_rulesOf.mp hsecond
  exact List.inj_on_of_nodup_map (nodup_rulesOf calls) hfirst hsecond
    ((haccepted a ha.mem).fromPath_eq_of_elements (haccepted b hb.mem) helements)

/-- A choice is the last call for its prefix as it is kept. -/
theorem IsChoice.normal_mem (h : IsChoice calls path call)
    (haccepted : ∀ call ∈ calls, Accepted call) : call.normal ∈ rulesOf calls := by
  obtain ⟨before, after, hcalls, hafter⟩ := h.last
  have hmem : ∀ other ∈ after, other ∈ calls := fun other hother => by
    rw [hcalls]
    exact List.mem_append_right _ (List.mem_cons_of_mem _ hother)
  have hcall : call ∈ calls := by
    rw [hcalls]
    exact List.mem_append_right _ List.mem_cons_self
  refine mem_rulesOf.mpr ⟨call, ⟨before, after, hcalls, ?_⟩, rfl⟩
  intro other hother heq
  have hform := (haccepted call hcall).normalForm_eq (haccepted other (hmem other hother)) heq
  exact hafter other hother ⟨by rw [hform], by rw [hform]⟩

theorem IsChoice.mem (h : IsChoice calls path call) : call ∈ calls := by
  obtain ⟨before, after, rfl, -⟩ := h.last
  exact List.mem_append_right _ List.mem_cons_self

/-- The rule of the choice is the best one unless a separator at an end gets in the way. -/
theorem IsChoice.best_iff (h : IsChoice calls path call) (hpath : isAbsolute path = true)
    (haccepted : ∀ call ∈ calls, Accepted call) :
    bestSubstitution (rulesOf calls) (lexicallyNormal path) = some call.normal ↔
      call.Fits path ∧ ((normalForm call.fromPath).trailing = false → call.unmatched path = [] →
        (normalForm path).trailing = true → ∀ other ∈ calls, call.SamePrefix other →
          (normalForm other.fromPath).trailing = false) := by
  have hcall := haccepted call h.mem
  rw [bestSubstitution_eq_some_iff (distinct_rulesOf haccepted),
    hasComponentPrefix_iff hpath hcall, and_iff_right (h.normal_mem haccepted)]
  refine and_congr_right fun hfits => ⟨?_, ?_⟩
  · intro hmost htrailing hrest hseparator other hother hsame
    -- the last call with the separator would have one component more
    by_contra htrail
    obtain ⟨latest, hlatest, heq⟩ :=
      exists_isLatest (fun call : Substitution => call.normal.fromPath) hother
    have hlatestAccepted := haccepted latest hlatest.mem
    have hform := (haccepted other hother).normalForm_eq hlatestAccepted heq
    have hmatches : latest.Matches path := by
      rw [Substitution.Matches, hform, ← hsame.1, ← hsame.2]
      exact h.covers
    have hrest' : latest.unmatched path = [] := by
      rw [Substitution.unmatched, hform, ← hsame.2]
      exact hrest
    have hle := hmost latest.normal (mem_rulesOf.mpr ⟨latest, hlatest, rfl⟩)
      ((hasComponentPrefix_iff hpath hlatestAccepted).mpr ⟨hmatches, fun _ => ⟨hrest', hseparator⟩⟩)
    rw [componentCount_eq hlatestAccepted hmatches, componentCount_eq hcall h.covers, hform,
      ← hsame.2, htrailing, if_pos (by simpa using htrail), if_neg Bool.false_ne_true] at hle
    omega
  · intro halone rule hrule hprefix
    obtain ⟨other, hlatest, rfl⟩ := mem_rulesOf.mp hrule
    have hother := hlatest.mem
    have hotherFits := (hasComponentPrefix_iff hpath (haccepted other hother)).mp hprefix
    have hlength := h.most other hother hotherFits.1
    rw [componentCount_eq (haccepted other hother) hotherFits.1, componentCount_eq hcall h.covers]
    cases htrail : (normalForm other.fromPath).trailing with
    | false =>
      rw [if_neg Bool.false_ne_true]
      omega
    | true =>
      -- the other prefix is the whole path, so that of the choice is too
      obtain ⟨hrest, hseparator⟩ := hotherFits.2 htrail
      have hwhole := hotherFits.1.unmatched_eq_nil_iff.mp hrest
      have hnames : (normalForm call.fromPath).names = (normalForm path).names :=
        h.covers.2.eq_of_length_le (hwhole ▸ hlength)
      have hsame : call.SamePrefix other :=
        ⟨h.covers.1.trans hotherFits.1.1.symm, hnames.trans hwhole.symm⟩
      have hkept : (normalForm call.fromPath).trailing = true := by
        by_contra hkept
        have hfalse := halone (by simpa using hkept) (h.covers.unmatched_eq_nil_iff.mpr hnames)
          hseparator other hother hsame
        exact Bool.false_ne_true (hfalse.symm.trans htrail)
      rw [hkept]
      omega

end Choice

/-! ## The path that is put in place -/

section Target

variable {call : Substitution} {path : FilePath}

theorem suffixAfter_eq (hpath : isAbsolute path = true) (hcall : Accepted call)
    (h : call.Fits path) :
    suffixAfter (lexicallyNormal path) call.normal.fromPath =
      joined (call.unmatched path) (normalForm path).trailing := by
  have hprefix := List.isPrefixOf_iff_prefix.mp ((hasComponentPrefix_iff hpath hcall).mpr h)
  rw [suffixAfter, hcall.fromPath_eq, lexicallyNormal_of_isAbsolute hpath, elements_text,
    elements_text]
  rw [hcall.fromPath_eq, lexicallyNormal_of_isAbsolute hpath, elements_text, elements_text]
    at hprefix
  exact foldl_append_drop h.1.1 hpath hprefix

theorem isPlain_of_mem_unmatched (hpath : isAbsolute path = true) :
    ∀ name ∈ call.unmatched path, IsPlain name := fun name hname =>
  isPlain_of_absolute (n := normalForm path) hpath name (List.mem_of_mem_drop hname)

theorem lexicallyNormal_append_suffix (hpath : isAbsolute path = true) (hcall : Accepted call)
    (h : call.Fits path) :
    lexicallyNormal (append call.normal.toPath
        (suffixAfter (lexicallyNormal path) call.normal.fromPath)) =
      spelled (normalForm call.toPath).absolute
        ((normalForm call.toPath).names ++ call.unmatched path)
        ((normalForm path).trailing || decide (call.unmatched path = [])) := by
  rw [suffixAfter_eq hpath hcall h, hcall.toPath_eq,
    lexicallyNormal_append_joined _ (isPlain_of_mem_unmatched hpath), extend_text_eq_spelled]

theorem joined_eq_nil_iff {rest : List FilePath} (h : ∀ name ∈ rest, IsPlain name)
    (trailing : Bool) : joined rest trailing = [] ↔ rest = [] := by
  constructor
  · intro hnil
    have hnames := names_joined (fun name hname => (h name hname).1) trailing
    rw [hnil] at hnames
    exact hnames.symm
  · rintro rfl
    cases trailing <;> rfl

end Target

/-! ## When the resolvers substitute right -/

/-- The whole path is replaced by the target as it was given only if the path and the target both
end with a separator. -/
theorem candidates_eq_iff {calls : List Substitution} {path : FilePath} {call : Substitution}
    (hpath : isAbsolute path = true) (hcall : Accepted call) (hfits : call.Fits path)
    (hbest : bestSubstitution (rulesOf calls) (lexicallyNormal path) = some call.normal) :
    (SourcePathResolver.substitutedCandidate (rulesOf calls) path = some (call.substituted path) ∧
      SnapshotModulePathResolver.substitutedCandidate (rulesOf calls) (lexicallyNormal path) =
        some (call.substituted path)) ↔
      (call.unmatched path = [] → (normalForm call.toPath).Open →
        (normalForm path).trailing = true ∧ (normalForm call.toPath).trailing = true) := by
  have hsource : SourcePathResolver.substitutedCandidate (rulesOf calls) path =
      some (spelled (normalForm call.toPath).absolute
        ((normalForm call.toPath).names ++ call.unmatched path)
        ((normalForm path).trailing || decide (call.unmatched path = []))) := by
    unfold SourcePathResolver.substitutedCandidate
    dsimp only
    rw [hbest]
    exact congrArg some (lexicallyNormal_append_suffix hpath hcall hfits)
  have hsnapshot : SnapshotModulePathResolver.substitutedCandidate (rulesOf calls)
      (lexicallyNormal path) =
        if call.unmatched path = [] then some (normalForm call.toPath).text
        else some (spelled (normalForm call.toPath).absolute
          ((normalForm call.toPath).names ++ call.unmatched path)
          ((normalForm path).trailing || decide (call.unmatched path = []))) := by
    unfold SnapshotModulePathResolver.substitutedCandidate
    rw [hbest]
    dsimp only
    rw [lexicallyNormal_append_suffix hpath hcall hfits, suffixAfter_eq hpath hcall hfits,
      hcall.toPath_eq]
    exact if_congr (joined_eq_nil_iff (isPlain_of_mem_unmatched hpath) _) rfl rfl
  rw [hsource, hsnapshot, Substitution.substituted, Option.some_inj, spelled_eq_iff]
  by_cases hrest : call.unmatched path = []
  · rw [if_pos hrest, hrest, List.append_nil, text_eq_spelled, Option.some_inj, spelled_eq_iff]
    simp only [decide_true, Bool.or_true, forall_const, NormalPath.Open, and_imp]
    constructor
    · rintro ⟨hsource, hsnapshot⟩ hnames hdots
      have hpathEnd := (hsource hnames hdots).symm
      exact ⟨hpathEnd, (hsnapshot hnames hdots).trans hpathEnd⟩
    · intro h
      exact ⟨fun hnames hdots => (h hnames hdots).1.symm,
        fun hnames hdots => (h hnames hdots).2.trans (h hnames hdots).1.symm⟩
  · rw [if_neg hrest, Option.some_inj, spelled_eq_iff]
    simp [hrest]

theorem candidates_eq_none {calls : List Substitution} {path : FilePath}
    (hpath : isAbsolute path = true) (haccepted : ∀ call ∈ calls, Accepted call)
    (h : ∀ call ∈ calls, ¬call.Matches path) :
    SourcePathResolver.substitutedCandidate (rulesOf calls) path = none ∧
      SnapshotModulePathResolver.substitutedCandidate (rulesOf calls) (lexicallyNormal path) =
        none := by
  have hbest : bestSubstitution (rulesOf calls) (lexicallyNormal path) = none := by
    refine bestSubstitution_eq_none_iff.mpr fun rule hrule hprefix => ?_
    obtain ⟨call, hlatest, rfl⟩ := mem_rulesOf.mp hrule
    have hfits := (hasComponentPrefix_iff hpath (haccepted call hlatest.mem)).mp hprefix
    exact h call hlatest.mem hfits.1
  constructor
  · unfold SourcePathResolver.substitutedCandidate
    dsimp only
    rw [hbest]
  · unfold SnapshotModulePathResolver.substitutedCandidate
    rw [hbest]

/-- No separator gets in the way of a prefix of some of the path. -/
theorem Substitution.faithful_of_unmatched {calls : List Substitution} {path : FilePath}
    {call : Substitution} (hends : (normalForm call.fromPath).trailing = false)
    (hrest : call.unmatched path ≠ []) : call.Faithful calls path where
  ended htrailing := absurd (hends.symm.trans htrailing) Bool.false_ne_true
  alone _ hnil := absurd hnil hrest
  whole hnil := absurd hnil hrest

/-- Both resolvers substitute what the calls mean exactly if no separator at the end of the prefix,
of the path or of the target gets in the way. -/
theorem substitutes_iff {calls substitutions moduleSubstitutions : List Substitution}
    {path : FilePath} (hpath : isAbsolute path = true)
    (hsource : calls.foldlM (fun rules call =>
      SourcePathResolver.addSubstitution rules call.fromPath call.toPath) [] = .ok substitutions)
    (hsnapshot : calls.foldlM (fun rules call =>
      SnapshotModulePathResolver.addSubstitution rules call.fromPath call.toPath) [] =
        .ok moduleSubstitutions) :
    Substitutes calls substitutions moduleSubstitutions path ↔
      ∀ call, IsChoice calls path call → call.Faithful calls path := by
  obtain ⟨haccepted, rfl⟩ := foldlM_addSubstitution hsource
  obtain ⟨-, rfl⟩ := foldlM_addSubstitution hsnapshot
  constructor
  · intro hall call hchoice
    have hbest := (hall.chosen call hchoice).1
    obtain ⟨hfits, halone⟩ := (hchoice.best_iff hpath haccepted).mp hbest
    have hwhole := (candidates_eq_iff hpath (haccepted call hchoice.mem) hfits hbest).mp
      ⟨hall.source call hchoice, hall.snapshot call hchoice⟩
    exact ⟨hfits.2, halone, hwhole⟩
  · intro hall
    have hbest : ∀ call, IsChoice calls path call →
        bestSubstitution (rulesOf calls) (lexicallyNormal path) = some call.normal :=
      fun call hchoice => (hchoice.best_iff hpath haccepted).mpr
        ⟨⟨hchoice.covers, (hall call hchoice).ended⟩, (hall call hchoice).alone⟩
    have hcandidates := fun call hchoice =>
      (candidates_eq_iff hpath (haccepted call hchoice.mem)
        ⟨hchoice.covers, (hall call hchoice).ended⟩ (hbest call hchoice)).mpr
          (hall call hchoice).whole
    exact ⟨fun call hchoice => ⟨hbest call hchoice, hbest call hchoice⟩,
      fun call hchoice => (hcandidates call hchoice).1,
      fun call hchoice => (hcandidates call hchoice).2, candidates_eq_none hpath haccepted⟩

/-- `/src` is `/new` -/
def plainCall : Substitution := ⟨['/', 's', 'r', 'c'], ['/', 'n', 'e', 'w']⟩

/-- `/src/` is `/new` -/
def slashCall : Substitution := ⟨['/', 's', 'r', 'c', '/'], ['/', 'n', 'e', 'w']⟩

/-- `/src/a.c` -/
def sourceFile : FilePath := ['/', 's', 'r', 'c', '/', 'a', '.', 'c']

/-- `/src/lib/a.c` -/
def libraryFile : FilePath := ['/', 's', 'r', 'c', '/', 'l', 'i', 'b', '/', 'a', '.', 'c']

/-- `/src` is `/old`, `/src/lib` is `/lib`, and then `/src` is `/new`. -/
def competingCalls : List Substitution :=
  [⟨['/', 's', 'r', 'c'], ['/', 'o', 'l', 'd']⟩,
    ⟨['/', 's', 'r', 'c', '/', 'l', 'i', 'b'], ['/', 'l', 'i', 'b']⟩, plainCall]

/-- The longer prefix is chosen where it matches, elsewhere what was said last of `/src`. -/
theorem substitutes_competingCalls : ∃ rules,
    competingCalls.foldlM (fun rules call =>
      SourcePathResolver.addSubstitution rules call.fromPath call.toPath) [] = .ok rules ∧
    Substitutes competingCalls rules rules sourceFile ∧
    Substitutes competingCalls rules rules libraryFile ∧
    SourcePathResolver.substitutedCandidate rules sourceFile =
      some ['/', 'n', 'e', 'w', '/', 'a', '.', 'c'] ∧
    SourcePathResolver.substitutedCandidate rules libraryFile =
      some ['/', 'l', 'i', 'b', '/', 'a', '.', 'c'] := by
  have hends : ∀ call ∈ competingCalls, (normalForm call.fromPath).trailing = false := by decide
  have hsource : ∀ call ∈ competingCalls, call.Matches sourceFile →
      call.unmatched sourceFile ≠ [] := by decide
  have hlibrary : ∀ call ∈ competingCalls, call.Matches libraryFile →
      call.unmatched libraryFile ≠ [] := by decide
  refine ⟨rulesOf competingCalls, rfl, ?_, ?_, by decide, by decide⟩
  · exact (substitutes_iff (by decide) rfl rfl).mpr fun call hchoice =>
      Substitution.faithful_of_unmatched (hends call hchoice.mem)
        (hsource call hchoice.mem hchoice.covers)
  · exact (substitutes_iff (by decide) rfl rfl).mpr fun call hchoice =>
      Substitution.faithful_of_unmatched (hends call hchoice.mem)
        (hlibrary call hchoice.mem hchoice.covers)

theorem isChoice_singleton {call : Substitution} {path : FilePath} (h : call.Matches path) :
    IsChoice [call] path call := by
  refine ⟨h, fun other hother _ => ?_, [], [], rfl, fun _ hnil => absurd hnil List.not_mem_nil⟩
  exact List.mem_singleton.mp hother ▸ le_rfl

/-- A prefix given with a separator at its end covers nothing, and the two resolvers disagree about
the prefix itself. -/
theorem not_substitutes_slashCall :
    SourcePathResolver.addSubstitution [] slashCall.fromPath slashCall.toPath = .ok [slashCall] ∧
      ¬Substitutes [slashCall] [slashCall] [slashCall] sourceFile ∧
      SourcePathResolver.substitutedCandidate [slashCall] sourceFile = none ∧
      ¬Substitutes [plainCall] [plainCall] [plainCall] plainCall.fromPath ∧
      SourcePathResolver.substitutedCandidate [plainCall] plainCall.fromPath =
        some (plainCall.toPath ++ ['/']) ∧
      SnapshotModulePathResolver.substitutedCandidate [plainCall] plainCall.fromPath =
        some plainCall.toPath := by
  have hslash : SourcePathResolver.substitutedCandidate [slashCall] sourceFile = none := by decide
  have hwhole : SourcePathResolver.substitutedCandidate [plainCall] plainCall.fromPath =
      some (plainCall.toPath ++ ['/']) := by decide
  refine ⟨rfl, fun hall => ?_, hslash, fun hall => ?_, hwhole, by decide⟩
  · have hsource := hall.source slashCall (isChoice_singleton ⟨by decide, by decide⟩)
    rw [hslash] at hsource
    exact absurd hsource (by decide)
  · have hsource := hall.source plainCall (isChoice_singleton ⟨by decide, by decide⟩)
    rw [hwhole] at hsource
    exact absurd hsource (by decide)

end MiniDebugger
