import Mathlib.Data.List.Basic
import Mathlib.Data.List.TakeWhile
import MiniDebugger.Paths

/-!
# Normal paths

What `lexically_normal` returns is given by whether the path is absolute, by its names and by
whether it ends with a separator. A path is iterated over by its elements; those of a normal path
are the root, the names and an empty element for the last separator.
-/

namespace MiniDebugger.FilePath

/-- The names of a path, without the empty ones between separators. -/
def names (path : FilePath) : List FilePath := (components path).filter (· ≠ [])

/-- What an iterator over the path visits. -/
def elements (path : FilePath) : List FilePath :=
  (if isAbsolute path then [['/']] else []) ++ names path ++
    (if path.getLast? = some '/' ∧ names path ≠ [] then [[]] else [])

/-! ## Names -/

theorem components_append_separator (left right : FilePath) :
    components (left ++ '/' :: right) = components left ++ components right :=
  List.splitOn_append_cons_self left right

theorem names_append_separator (left right : FilePath) :
    names (left ++ '/' :: right) = names left ++ names right := by
  rw [names, components_append_separator, List.filter_append]
  rfl

theorem names_nil : names [] = [] := rfl

theorem components_of_not_mem {name : FilePath} (h : '/' ∉ name) : components name = [name] :=
  List.splitOn_eq_singleton h

theorem names_of_not_mem {name : FilePath} (h : '/' ∉ name) (hne : name ≠ []) :
    names name = [name] := by
  rw [names, components_of_not_mem h]
  simp [hne]

/-- A name is not empty and has no separator. -/
def IsName (name : FilePath) : Prop := name ≠ [] ∧ '/' ∉ name

theorem separator_not_mem_of_mem_components {path name : FilePath} (h : name ∈ components path) :
    '/' ∉ name := by
  induction path generalizing name with
  | nil =>
    rw [List.mem_singleton.mp h]
    exact List.not_mem_nil
  | cons character path ih =>
    rw [components, List.splitOn_cons_eq_if_modifyHead] at h
    split at h
    · obtain rfl | h := List.mem_cons.mp h
      · exact List.not_mem_nil
      · exact ih h
    · next hne =>
      obtain ⟨first, rest, hsplit⟩ : ∃ first rest, components path = first :: rest :=
        List.exists_cons_of_ne_nil (List.splitOn_ne_nil '/' path)
      rw [← components, hsplit, List.modifyHead_cons] at h
      obtain rfl | h := List.mem_cons.mp h
      · have hfirst : '/' ∉ first := ih (hsplit ▸ List.mem_cons_self)
        have hcharacter : '/' ≠ character := fun heq => hne (beq_iff_eq.mpr heq.symm)
        simp [hfirst, hcharacter]
      · exact ih (hsplit ▸ List.mem_cons_of_mem first h)

theorem isName_of_mem_names {path name : FilePath} (h : name ∈ names path) : IsName name := by
  obtain ⟨hmem, hne⟩ := List.mem_filter.mp h
  exact ⟨of_decide_eq_true hne, separator_not_mem_of_mem_components hmem⟩

theorem names_intercalate {l : List FilePath} (h : ∀ name ∈ l, IsName name) :
    names (['/'].intercalate l) = l := by
  induction l with
  | nil => rfl
  | cons name l ih =>
    obtain ⟨hname, hrest⟩ := List.forall_mem_cons.mp h
    cases l with
    | nil => simpa using names_of_not_mem hname.2 hname.1
    | cons next l =>
      rw [List.intercalate_cons_cons, List.append_assoc, List.singleton_append,
        names_append_separator, ih hrest, names_of_not_mem hname.2 hname.1]
      rfl

/-! ## Normal names -/

/-- The names that the normal form keeps, the last of them first. -/
def pushed (absolute : Bool) (l : List FilePath) : List FilePath :=
  l.foldl (pushComponent absolute) []

theorem foldl_pushComponent_filter (absolute : Bool) (l before : List FilePath) :
    (l.filter (· ≠ [])).foldl (pushComponent absolute) before =
      l.foldl (pushComponent absolute) before := by
  induction l generalizing before with
  | nil => rfl
  | cons name l ih =>
    by_cases hname : name = []
    · subst hname
      exact ih before
    · rw [List.filter_cons_of_pos (by simpa using hname), List.foldl_cons, List.foldl_cons, ih]

/-- Names that are as normal as they get. -/
def Stable (absolute : Bool) (l : List FilePath) : Prop := pushed absolute l = l.reverse

theorem pushComponent_of_plain {absolute : Bool} {before : List FilePath} {name : FilePath}
    (hne : name ≠ []) (hdot : name ≠ ['.']) (hdots : name ≠ ['.', '.']) :
    pushComponent absolute before name = name :: before := by
  unfold pushComponent
  rw [if_neg (not_or.mpr ⟨hne, hdot⟩), if_neg hdots]

/-- Names, the last of them first, that are stable. -/
structure Kept (absolute : Bool) (before : List FilePath) : Prop where
  stable : Stable absolute before.reverse
  plain : ∀ name ∈ before, name ≠ [] ∧ name ≠ ['.']
  dots : absolute = true → ['.', '.'] ∉ before

theorem Kept.pushed_reverse {absolute : Bool} {before : List FilePath} (h : Kept absolute before) :
    before.reverse.foldl (pushComponent absolute) [] = before := by
  have hstable := h.stable
  rwa [Stable, pushed, List.reverse_reverse] at hstable

theorem Kept.cons {absolute : Bool} {before : List FilePath} {name : FilePath}
    (h : Kept absolute before) (hpush : pushComponent absolute before name = name :: before)
    (hplain : name ≠ [] ∧ name ≠ ['.']) (hdots : absolute = true → name ≠ ['.', '.']) :
    Kept absolute (name :: before) where
  stable := by
    rw [Stable, pushed, List.reverse_reverse, List.reverse_cons, List.foldl_append,
      h.pushed_reverse]
    exact hpush
  plain := List.forall_mem_cons.mpr ⟨hplain, h.plain⟩
  dots habsolute hmem := by
    obtain heq | hmem := List.mem_cons.mp hmem
    · exact hdots habsolute heq.symm
    · exact h.dots habsolute hmem

theorem Kept.tail {absolute : Bool} {before : List FilePath} {last : FilePath}
    (h : Kept absolute (last :: before)) (hlast : last ≠ ['.', '.']) : Kept absolute before where
  stable := by
    have hpushed := h.pushed_reverse
    obtain ⟨hne, hdot⟩ := h.plain last List.mem_cons_self
    rw [List.reverse_cons, List.foldl_append, List.foldl_cons, List.foldl_nil,
      pushComponent_of_plain hne hdot hlast] at hpushed
    rw [Stable, pushed, List.reverse_reverse]
    exact (List.cons.inj hpushed).2
  plain name hname := h.plain name (List.mem_cons_of_mem last hname)
  dots habsolute hmem := h.dots habsolute (List.mem_cons_of_mem last hmem)

theorem kept_nil (absolute : Bool) : Kept absolute [] :=
  ⟨rfl, fun _ h => absurd h List.not_mem_nil, fun _ => List.not_mem_nil⟩

/-- What is kept stays stable when another name is pushed. -/
theorem Kept.push {absolute : Bool} {before : List FilePath} (name : FilePath)
    (h : Kept absolute before) : Kept absolute (pushComponent absolute before name) := by
  by_cases hskip : name = [] ∨ name = ['.']
  · unfold pushComponent
    rwa [if_pos hskip]
  obtain ⟨hne, hdot⟩ := not_or.mp hskip
  by_cases hdots : name = ['.', '.']
  · subst hdots
    cases before with
    | nil =>
      cases absolute with
      | true => exact kept_nil true
      | false => exact h.cons rfl ⟨hne, hdot⟩ nofun
    | cons last before =>
      by_cases hlast : last = ['.', '.']
      · have hpush : pushComponent absolute (last :: before) ['.', '.'] =
            ['.', '.'] :: last :: before := by
          unfold pushComponent
          rw [if_neg hskip, if_pos rfl]
          exact if_pos hlast
        rw [hpush]
        refine h.cons hpush ⟨hne, hdot⟩ fun habsolute => ?_
        exact absurd (hlast ▸ List.mem_cons_self) (h.dots habsolute)
      · have hpush : pushComponent absolute (last :: before) ['.', '.'] = before := by
          unfold pushComponent
          rw [if_neg hskip, if_pos rfl]
          exact if_neg hlast
        rw [hpush]
        exact h.tail hlast
  · have hpush : pushComponent absolute before name = name :: before :=
      pushComponent_of_plain hne hdot hdots
    rw [hpush]
    exact h.cons hpush ⟨hne, hdot⟩ fun _ => hdots

theorem Kept.foldl {absolute : Bool} {before : List FilePath} (l : List FilePath)
    (h : Kept absolute before) : Kept absolute (l.foldl (pushComponent absolute) before) := by
  induction l generalizing before with
  | nil => exact h
  | cons name l ih => exact ih (h.push name)

/-- Every name that is kept was there. -/
theorem mem_of_mem_pushComponent {absolute : Bool} {before : List FilePath} {name kept : FilePath}
    (h : kept ∈ pushComponent absolute before name) : kept = name ∨ kept ∈ before := by
  unfold pushComponent at h
  split at h
  · exact .inr h
  split at h
  · split at h
    · split at h
      · exact .inr h
      · exact .inl (List.mem_singleton.mp h)
    · split at h
      · exact List.mem_cons.mp h
      · exact .inr (List.mem_cons_of_mem _ h)
  · exact List.mem_cons.mp h

theorem mem_of_mem_foldl {absolute : Bool} {l before : List FilePath} {kept : FilePath}
    (h : kept ∈ l.foldl (pushComponent absolute) before) : kept ∈ l ∨ kept ∈ before := by
  induction l generalizing before with
  | nil => exact .inr h
  | cons name l ih =>
    obtain hkept | hkept := ih h
    · exact .inl (List.mem_cons_of_mem name hkept)
    · obtain rfl | hkept := mem_of_mem_pushComponent hkept
      · exact .inl List.mem_cons_self
      · exact .inr hkept

/-! ## Joining -/

theorem filename_of_not_mem {name : FilePath} (h : '/' ∉ name) : filename name = name := by
  rw [filename, List.takeWhile_eq_self_iff.mpr, List.reverse_reverse]
  intro character hmem
  have hcharacter : character ≠ '/' := fun heq => h (heq ▸ List.mem_reverse.mp hmem)
  simpa using hcharacter

theorem filename_append_separator (left right : FilePath) :
    filename (left ++ '/' :: right) = filename right := by
  have hreverse : (left ++ '/' :: right).reverse = right.reverse ++ '/' :: left.reverse := by simp
  unfold filename
  rw [hreverse, List.takeWhile_append]
  split
  · next hall =>
    rw [(List.takeWhile_prefix _).eq_of_length hall, List.takeWhile_cons_of_neg (by simp),
      List.append_nil]
  · rfl

theorem not_isAbsolute_of_isName {name : FilePath} (h : IsName name) : isAbsolute name = false := by
  cases name with
  | nil => exact absurd rfl h.1
  | cons character name =>
    have hcharacter : character ≠ '/' := fun heq => h.2 (heq ▸ List.mem_cons_self)
    simpa [isAbsolute] using hcharacter

theorem append_of_filename {directory path : FilePath} (hpath : isAbsolute path = false)
    (h : filename directory ≠ []) : append directory path = directory ++ '/' :: path := by
  rw [append, if_neg (by simp [hpath]), if_neg h]

theorem append_of_no_filename {directory path : FilePath} (hpath : isAbsolute path = false)
    (h : filename directory = []) : append directory path = directory ++ path := by
  rw [append, if_neg (by simp [hpath]), if_pos h]

theorem intercalate_cons_flatMap (name : FilePath) (l : List FilePath) :
    ['/'].intercalate (name :: l) = name ++ l.flatMap fun next => '/' :: next := by
  induction l generalizing name with
  | nil => simp
  | cons next l ih =>
    rw [List.intercalate_cons_cons, ih next, List.flatMap_cons]
    simp

/-- Names appended to a path that ends with a name. -/
theorem foldl_append {directory : FilePath} {l : List FilePath} (hl : ∀ name ∈ l, IsName name)
    (h : filename directory ≠ []) :
    l.foldl append directory = directory ++ l.flatMap fun next => '/' :: next := by
  induction l generalizing directory with
  | nil => simp
  | cons name l ih =>
    obtain ⟨hname, hrest⟩ := List.forall_mem_cons.mp hl
    have hlast : filename (directory ++ '/' :: name) ≠ [] := by
      rw [filename_append_separator, filename_of_not_mem hname.2]
      exact hname.1
    rw [List.foldl_cons, append_of_filename (not_isAbsolute_of_isName hname) h, ih hrest hlast,
      List.flatMap_cons, List.append_assoc]

/-- Names appended to each other. -/
theorem foldl_append_nil {l : List FilePath} (hl : ∀ name ∈ l, IsName name) :
    l.foldl append [] = ['/'].intercalate l := by
  cases l with
  | nil => rfl
  | cons name l =>
    obtain ⟨hname, hrest⟩ := List.forall_mem_cons.mp hl
    have hfirst : append [] name = name :=
      append_of_no_filename (not_isAbsolute_of_isName hname) rfl
    have hlast : filename name ≠ [] := by
      rw [filename_of_not_mem hname.2]
      exact hname.1
    rw [List.foldl_cons, hfirst, foldl_append hrest hlast, intercalate_cons_flatMap]

theorem filename_intercalate {l : List FilePath} (hl : ∀ name ∈ l, IsName name) (hne : l ≠ []) :
    filename (['/'].intercalate l) ≠ [] := by
  induction l with
  | nil => exact absurd rfl hne
  | cons name l ih =>
    obtain ⟨hname, hrest⟩ := List.forall_mem_cons.mp hl
    cases l with
    | nil =>
      rw [List.intercalate_singleton, filename_of_not_mem hname.2]
      exact hname.1
    | cons next l =>
      rw [List.intercalate_cons_cons, List.append_assoc, List.singleton_append,
        filename_append_separator]
      exact ih hrest (List.cons_ne_nil next l)

end MiniDebugger.FilePath

namespace MiniDebugger

open FilePath

/-! ## Normal forms -/

/-- A path that `lexically_normal` leaves alone. -/
structure NormalPath where
  absolute : Bool
  names : List FilePath
  trailing : Bool
  kept : Kept absolute names.reverse
  isName : ∀ name ∈ names, IsName name
  ended : trailing = true → names ≠ [] ∧ names.getLast? ≠ some ['.', '.']

attribute [ext] NormalPath

namespace NormalPath

variable (n : NormalPath)

/-- The path up to the separator at its end. -/
def stem : FilePath :=
  if n.names = [] then (if n.absolute then [] else ['.'])
  else (if n.absolute then ['/'] else []) ++ ['/'].intercalate n.names

def text : FilePath :=
  if n.names = [] then (if n.absolute then ['/'] else ['.'])
  else n.stem ++ (if n.trailing then ['/'] else [])

/-- What an iterator over the path visits. -/
def elements : List FilePath :=
  if n.names = [] then (if n.absolute then [['/']] else [['.']])
  else (if n.absolute then [['/']] else []) ++ n.names ++ (if n.trailing then [[]] else [])

/-- A separator can stand at the end. -/
def Open : Prop := n.names ≠ [] ∧ n.names.getLast? ≠ some ['.', '.']

instance : Decidable n.Open := instDecidableAnd

end NormalPath

namespace FilePath

/-- The last component is none or leads to a directory. -/
def EndsInDirectory (path : FilePath) : Prop :=
  (components path).getLast? = some [] ∨ (components path).getLast? = some ['.'] ∨
    (components path).getLast? = some ['.', '.']

instance (path : FilePath) : Decidable (EndsInDirectory path) := instDecidableOr

def normalForm (path : FilePath) : NormalPath where
  absolute := isAbsolute path
  names := (pushed (isAbsolute path) (names path)).reverse
  trailing := decide (EndsInDirectory path ∧
    (pushed (isAbsolute path) (names path)).reverse ≠ [] ∧
    (pushed (isAbsolute path) (names path)).reverse.getLast? ≠ some ['.', '.'])
  kept := by
    rw [List.reverse_reverse]
    exact (kept_nil _).foldl _
  isName name hname := by
    obtain hname | hname := mem_of_mem_foldl (List.mem_reverse.mp hname)
    · exact isName_of_mem_names hname
    · exact absurd hname List.not_mem_nil
  ended h := (of_decide_eq_true h).2

theorem intercalate_ne_nil {l : List FilePath} (hl : ∀ name ∈ l, IsName name) (hne : l ≠ []) :
    ['/'].intercalate l ≠ [] := by
  intro hnil
  exact filename_intercalate hl hne (by rw [hnil]; rfl)

theorem lexicallyNormal_eq {path : FilePath} (h : path ≠ []) :
    lexicallyNormal path = (normalForm path).text := by
  have hfold : (components path).foldl (pushComponent (isAbsolute path)) [] =
      pushed (isAbsolute path) (names path) := (foldl_pushComponent_filter _ _ _).symm
  have htrailing : (normalForm path).trailing = true ↔
      (EndsInDirectory path ∧ pushed (isAbsolute path) (names path) ≠ [] ∧
        (pushed (isAbsolute path) (names path)).head? ≠ some ['.', '.']) := by
    refine decide_eq_true_iff.trans ?_
    rw [List.getLast?_reverse, ne_eq, List.reverse_eq_nil_iff]
  have hnames : (normalForm path).names = (pushed (isAbsolute path) (names path)).reverse := rfl
  have hisName := (normalForm path).isName
  unfold lexicallyNormal
  rw [if_neg h]
  dsimp only
  rw [hfold]
  unfold NormalPath.text NormalPath.stem
  rw [hnames] at hisName ⊢
  generalize pushed (isAbsolute path) (names path) = kept at *
  by_cases hkept : kept = []
  · subst hkept
    cases habsolute : isAbsolute path <;> simp [normalForm, habsolute]
  · have hreverse : kept.reverse ≠ [] := by simpa using hkept
    have hne := intercalate_ne_nil hisName hreverse
    rw [if_neg hreverse, if_neg hreverse, if_neg]
    · congr 1
      by_cases htrail : (normalForm path).trailing = true
      · rw [if_pos htrail]
        exact if_pos (htrailing.mp htrail)
      · rw [if_neg htrail]
        exact if_neg fun hall => htrail (htrailing.mpr hall)
    · simp [hne]

/-! ## Reading a normal path -/

section Reading

variable (n : NormalPath)

theorem stem_of_names {n : NormalPath} (h : n.names ≠ []) :
    n.stem = (if n.absolute then ['/'] else []) ++ ['/'].intercalate n.names := if_neg h

theorem text_of_names {n : NormalPath} (h : n.names ≠ []) :
    n.text = n.stem ++ (if n.trailing then ['/'] else []) := if_neg h

theorem names_stem_of_names {n : NormalPath} (h : n.names ≠ []) : names n.stem = n.names := by
  rw [stem_of_names h]
  cases n.absolute
  · exact names_intercalate n.isName
  · have hroot := names_append_separator [] (['/'].intercalate n.names)
    rw [names_intercalate n.isName] at hroot
    exact hroot

theorem filename_stem {n : NormalPath} (h : n.names ≠ []) : filename n.stem ≠ [] := by
  have hlast := filename_intercalate n.isName h
  rw [stem_of_names h]
  cases n.absolute
  · exact hlast
  · have hroot := filename_append_separator [] (['/'].intercalate n.names)
    exact fun hnil => hlast (hroot.symm.trans hnil)

theorem isAbsolute_intercalate {l : List FilePath} (hl : ∀ name ∈ l, IsName name) (hne : l ≠ [])
    (right : FilePath) : isAbsolute (['/'].intercalate l ++ right) = false := by
  cases l with
  | nil => exact absurd rfl hne
  | cons name l =>
    have hname := hl name List.mem_cons_self
    rw [intercalate_cons_flatMap]
    cases name with
    | nil => exact absurd rfl hname.1
    | cons character name =>
      have hcharacter : character ≠ '/' := fun heq => hname.2 (heq ▸ List.mem_cons_self)
      simpa [isAbsolute] using hcharacter

theorem isAbsolute_stem (right : FilePath) : isAbsolute (n.stem ++ '/' :: right) = n.absolute := by
  by_cases hnames : n.names = []
  · unfold NormalPath.stem
    cases habsolute : n.absolute <;> simp [hnames, isAbsolute]
  · rw [stem_of_names hnames]
    cases habsolute : n.absolute
    · exact isAbsolute_intercalate n.isName hnames _
    · rfl

theorem append_text {right : FilePath} (h : isAbsolute right = false) :
    append n.text right = n.stem ++ '/' :: right := by
  by_cases hnames : n.names = []
  · unfold NormalPath.stem NormalPath.text
    cases habsolute : n.absolute
    · simp only [hnames, if_true, Bool.false_eq_true, if_false]
      exact append_of_filename h (by decide)
    · simp only [hnames, if_true]
      exact append_of_no_filename h (by decide)
  · rw [text_of_names hnames]
    cases htrailing : n.trailing
    · rw [if_neg Bool.false_ne_true, List.append_nil]
      exact append_of_filename h (filename_stem hnames)
    · have hlast : filename (n.stem ++ ['/']) = [] := filename_append_separator n.stem []
      rw [if_pos rfl, append_of_no_filename h hlast, List.append_assoc]
      rfl

/-- A name that normalising leaves where it is. -/
def IsPlain (name : FilePath) : Prop := IsName name ∧ name ≠ ['.'] ∧ name ≠ ['.', '.']

theorem pushed_stem : pushed n.absolute (names n.stem) = n.names.reverse := by
  by_cases hnames : n.names = []
  · unfold NormalPath.stem
    cases habsolute : n.absolute <;> simp only [hnames, if_true] <;> rfl
  · rw [names_stem_of_names hnames]
    have hpushed := n.kept.pushed_reverse
    rwa [List.reverse_reverse] at hpushed

theorem foldl_pushComponent_plain {absolute : Bool} {l : List FilePath} (before : List FilePath)
    (hl : ∀ name ∈ l, IsPlain name) :
    l.foldl (pushComponent absolute) before = l.reverse ++ before := by
  induction l generalizing before with
  | nil => rfl
  | cons name l ih =>
    obtain ⟨hname, hrest⟩ := List.forall_mem_cons.mp hl
    rw [List.foldl_cons, pushComponent_of_plain hname.1.1 hname.2.1 hname.2.2, ih _ hrest,
      List.reverse_cons, List.append_assoc]
    rfl

theorem pushed_names_append {right : FilePath} (h : ∀ name ∈ names right, IsPlain name) :
    (pushed n.absolute (names (n.stem ++ '/' :: right))).reverse = n.names ++ names right := by
  have hstem := pushed_stem n
  unfold pushed at hstem ⊢
  rw [names_append_separator, List.foldl_append, hstem, foldl_pushComponent_plain _ h,
    List.reverse_append, List.reverse_reverse, List.reverse_reverse]

end Reading

end FilePath

namespace NormalPath

/-- The path with more names, and a separator at its end if there can be one. -/
def extend (n : NormalPath) (rest : List FilePath) (hrest : ∀ name ∈ rest, IsPlain name)
    (trailing : Bool) : NormalPath where
  absolute := n.absolute
  names := n.names ++ rest
  trailing := trailing && decide (n.names ++ rest ≠ [] ∧
    (n.names ++ rest).getLast? ≠ some ['.', '.'])
  kept := by
    have hfold := (n.kept.foldl rest)
    rwa [foldl_pushComponent_plain _ hrest, ← List.reverse_append] at hfold
  isName name hname := by
    obtain hname | hname := List.mem_append.mp hname
    · exact n.isName name hname
    · exact (hrest name hname).1
  ended h := of_decide_eq_true (Bool.and_eq_true_iff.mp h).2

end NormalPath

namespace FilePath

/-- Names joined, with a separator at the end if there is something before it. -/
def joined (rest : List FilePath) (trailing : Bool) : FilePath :=
  ['/'].intercalate rest ++ (if trailing ∧ rest ≠ [] then ['/'] else [])

theorem isAbsolute_joined {rest : List FilePath} (h : ∀ name ∈ rest, IsName name)
    (trailing : Bool) : isAbsolute (joined rest trailing) = false := by
  by_cases hrest : rest = []
  · subst hrest
    cases trailing <;> rfl
  · exact isAbsolute_intercalate h hrest _

theorem names_joined {rest : List FilePath} (h : ∀ name ∈ rest, IsName name) (trailing : Bool) :
    names (joined rest trailing) = rest := by
  unfold joined
  split
  · rw [names_append_separator, names_intercalate h, names_nil, List.append_nil]
  · rw [List.append_nil, names_intercalate h]

theorem endsInDirectory_joined (left : FilePath) {rest : List FilePath}
    (h : ∀ name ∈ rest, IsPlain name) (trailing : Bool) :
    EndsInDirectory (left ++ '/' :: joined rest trailing) ↔ trailing = true ∨ rest = [] := by
  have hlast : (components (left ++ '/' :: joined rest trailing)).getLast? =
      (components (joined rest trailing)).getLast? := by
    rw [components_append_separator]
    exact List.getLast?_append_of_ne_nil _ (List.splitOn_ne_nil _ _)
  unfold EndsInDirectory
  rw [hlast]
  unfold joined
  by_cases hrest : rest = []
  · subst hrest
    cases trailing <;> exact iff_of_true (.inl rfl) (.inr rfl)
  · cases trailing with
    | true =>
      rw [if_pos ⟨rfl, hrest⟩, components_append_separator]
      refine iff_of_true (.inl ?_) (.inl rfl)
      exact List.getLast?_append_of_ne_nil _ (List.splitOn_ne_nil _ _)
    | false =>
      have hcomponents : components (['/'].intercalate rest) = rest :=
        List.splitOn_intercalate '/' (fun name hname => (h name hname).1.2) hrest
      rw [if_neg fun hand => Bool.false_ne_true hand.1, List.append_nil, hcomponents]
      refine iff_of_false ?_ fun hor => hor.elim Bool.false_ne_true hrest
      have hplain : ∀ name, rest.getLast? = some name → IsPlain name := fun name hname =>
        h name (List.mem_of_getLast? hname)
      rintro (hnil | hdot | hdots)
      · exact (hplain _ hnil).1.1 rfl
      · exact (hplain _ hdot).2.1 rfl
      · exact (hplain _ hdots).2.2 rfl

/-- Plain names put after a normal path. -/
theorem lexicallyNormal_append_joined (n : NormalPath) {rest : List FilePath}
    (hrest : ∀ name ∈ rest, IsPlain name) (trailing : Bool) :
    lexicallyNormal (append n.text (joined rest trailing)) =
      (n.extend rest hrest (trailing || decide (rest = []))).text := by
  have hnames : ∀ name ∈ rest, IsName name := fun name hname => (hrest name hname).1
  rw [append_text n (isAbsolute_joined hnames trailing),
    lexicallyNormal_eq (List.append_ne_nil_of_right_ne_nil _ (List.cons_ne_nil _ _))]
  congr 1
  have hjoined := names_joined hnames trailing
  have hkept : (normalForm (n.stem ++ '/' :: joined rest trailing)).names = n.names ++ rest := by
    refine (congrArg (fun absolute => (pushed absolute _).reverse) (isAbsolute_stem n _)).trans ?_
    have hplain : ∀ name ∈ names (joined rest trailing), IsPlain name := by
      rw [hjoined]
      exact hrest
    rw [pushed_names_append n hplain, hjoined]
  refine NormalPath.ext (isAbsolute_stem n _) hkept ?_
  have hends := endsInDirectory_joined n.stem hrest trailing
  have htrailing : (normalForm (n.stem ++ '/' :: joined rest trailing)).trailing =
      decide (EndsInDirectory (n.stem ++ '/' :: joined rest trailing) ∧
        (normalForm (n.stem ++ '/' :: joined rest trailing)).names ≠ [] ∧
        (normalForm (n.stem ++ '/' :: joined rest trailing)).names.getLast? ≠ some ['.', '.']) :=
    rfl
  rw [htrailing, hkept, NormalPath.extend]
  rw [Bool.eq_iff_iff, decide_eq_true_iff, hends, Bool.and_eq_true, Bool.or_eq_true,
    decide_eq_true_iff, decide_eq_true_iff]

/-! ## Elements -/

theorem isAbsolute_text_of_names {n : NormalPath} (h : n.names ≠ []) :
    isAbsolute n.text = n.absolute := by
  rw [text_of_names h, stem_of_names h]
  cases n.absolute
  · exact isAbsolute_intercalate n.isName h _
  · rfl

theorem names_text_of_names {n : NormalPath} (h : n.names ≠ []) : names n.text = n.names := by
  rw [text_of_names h]
  cases n.trailing
  · rw [if_neg Bool.false_ne_true, List.append_nil, names_stem_of_names h]
  · rw [if_pos rfl, names_append_separator, names_nil, List.append_nil, names_stem_of_names h]

theorem getLast?_eq_separator_iff (path : FilePath) :
    path.getLast? = some '/' ↔ path ≠ [] ∧ filename path = [] := by
  obtain rfl | ⟨path, character, rfl⟩ := List.eq_nil_or_concat' path
  · simp
  · by_cases hcharacter : character = '/' <;> simp [filename, hcharacter]

theorem getLast?_text_of_names {n : NormalPath} (h : n.names ≠ []) :
    n.text.getLast? = some '/' ↔ n.trailing = true := by
  rw [text_of_names h]
  cases n.trailing
  · rw [if_neg Bool.false_ne_true, List.append_nil, getLast?_eq_separator_iff]
    exact iff_of_false (fun hand => filename_stem h hand.2) Bool.false_ne_true
  · rw [if_pos rfl]
    exact iff_of_true List.getLast?_concat rfl

theorem elements_text (n : NormalPath) : elements n.text = n.elements := by
  unfold elements NormalPath.elements
  by_cases hnames : n.names = []
  · unfold NormalPath.text
    cases habsolute : n.absolute <;> simp only [hnames, if_true] <;> rfl
  · rw [isAbsolute_text_of_names hnames, names_text_of_names hnames, if_neg hnames]
    congr 2
    rw [eq_iff_iff, getLast?_text_of_names hnames]
    exact and_iff_left hnames

/-- A path that ends with a name, and perhaps a separator. -/
theorem getLast?_components_text {n : NormalPath} (h : n.names ≠ []) :
    (components n.text).getLast? = if n.trailing then some [] else n.names.getLast? := by
  have hnames : components (['/'].intercalate n.names) = n.names :=
    List.splitOn_intercalate '/' (fun name hname => (n.isName name hname).2) h
  have hstem : (components n.stem).getLast? = n.names.getLast? := by
    rw [stem_of_names h]
    cases n.absolute
    · exact congrArg List.getLast? hnames
    · have hroot := components_append_separator [] (['/'].intercalate n.names)
      rw [hnames] at hroot
      exact (congrArg List.getLast? hroot).trans (List.getLast?_append_of_ne_nil _ h)
  rw [text_of_names h]
  cases n.trailing
  · rw [if_neg Bool.false_ne_true, List.append_nil, hstem, if_neg Bool.false_ne_true]
  · rw [if_pos rfl, if_pos rfl, components_append_separator]
    exact List.getLast?_append_of_ne_nil _ (List.splitOn_ne_nil _ _)

theorem isAbsolute_text (n : NormalPath) : isAbsolute n.text = n.absolute := by
  by_cases hnames : n.names = []
  · unfold NormalPath.text
    cases habsolute : n.absolute <;> simp only [hnames, if_true] <;> rfl
  · exact isAbsolute_text_of_names hnames

theorem names_normalForm_text (n : NormalPath) : (normalForm n.text).names = n.names := by
  refine (congrArg (fun absolute => (pushed absolute _).reverse) (isAbsolute_text n)).trans ?_
  by_cases hnames : n.names = []
  · unfold NormalPath.text
    cases habsolute : n.absolute <;> simp only [hnames, if_true] <;> rfl
  · rw [names_text_of_names hnames, pushed, ← List.reverse_reverse n.names,
      n.kept.pushed_reverse, List.reverse_reverse]

/-- A normal path is read back from its text. -/
theorem normalForm_text (n : NormalPath) : normalForm n.text = n := by
  refine NormalPath.ext (isAbsolute_text n) (names_normalForm_text n) ?_
  have htrailing : (normalForm n.text).trailing = decide (EndsInDirectory n.text ∧
      (normalForm n.text).names ≠ [] ∧
      (normalForm n.text).names.getLast? ≠ some ['.', '.']) := rfl
  rw [htrailing, names_normalForm_text, Bool.eq_iff_iff, decide_eq_true_iff]
  constructor
  · rintro ⟨hends, hnames, hdots⟩
    unfold EndsInDirectory at hends
    rw [getLast?_components_text hnames] at hends
    cases htrail : n.trailing with
    | true => rfl
    | false =>
      rw [htrail, if_neg Bool.false_ne_true] at hends
      obtain hnil | hdot | hlast := hends
      · exact absurd rfl (n.isName _ (List.mem_of_getLast? hnil)).1
      · have hmem := List.mem_reverse.mpr (List.mem_of_getLast? hdot)
        exact absurd rfl (n.kept.plain _ hmem).2
      · exact absurd hlast hdots
  · intro htrail
    obtain ⟨hnames, hdots⟩ := n.ended htrail
    refine ⟨.inl ?_, hnames, hdots⟩
    rw [getLast?_components_text hnames, if_pos htrail]

theorem text_injective : Function.Injective NormalPath.text := by
  intro n m htext
  rw [← normalForm_text n, htext, normalForm_text]

theorem isPlain_of_absolute {n : NormalPath} (h : n.absolute = true) :
    ∀ name ∈ n.names, IsPlain name := by
  intro name hname
  have hmem := List.mem_reverse.mpr hname
  exact ⟨n.isName name hname, (n.kept.plain name hmem).2,
    fun hdots => n.kept.dots h (hdots ▸ hmem)⟩

section Elements

variable (n : NormalPath)

theorem root_not_mem_names : ['/'] ∉ n.names := fun h => (n.isName _ h).2 List.mem_cons_self

theorem nil_not_mem_names : [] ∉ n.names := fun h => (n.isName _ h).1 rfl

theorem dot_not_mem_names : ['.'] ∉ n.names := fun h =>
  (n.kept.plain _ (List.mem_reverse.mpr h)).2 rfl

theorem root_mem_elements_iff : ['/'] ∈ n.elements ↔ n.absolute = true := by
  have hroot := root_not_mem_names n
  unfold NormalPath.elements
  by_cases hnames : n.names = [] <;> cases n.absolute <;> cases n.trailing <;> simp [hnames, hroot]

theorem nil_mem_elements_iff : [] ∈ n.elements ↔ n.trailing = true := by
  have hnil := nil_not_mem_names n
  unfold NormalPath.elements
  by_cases hnames : n.names = []
  · have htrailing : n.trailing ≠ true := fun h => (n.ended h).1 hnames
    cases n.absolute <;> simp [hnames, htrailing]
  · cases n.absolute <;> cases n.trailing <;> simp [hnames, hnil]

theorem elements_ne_nil : n.elements ≠ [] := by
  unfold NormalPath.elements
  by_cases hnames : n.names = [] <;> cases n.absolute <;> simp [hnames]

theorem filter_elements :
    n.elements.filter (fun name => name ≠ [] ∧ name ≠ ['/'] ∧ name ≠ ['.']) = n.names := by
  have hself : n.names.filter (fun name => name ≠ [] ∧ name ≠ ['/'] ∧ name ≠ ['.']) = n.names := by
    refine List.filter_eq_self.mpr fun name hname => decide_eq_true ⟨?_, ?_, ?_⟩
    · exact fun heq => nil_not_mem_names n (heq ▸ hname)
    · exact fun heq => root_not_mem_names n (heq ▸ hname)
    · exact fun heq => dot_not_mem_names n (heq ▸ hname)
  unfold NormalPath.elements
  by_cases hnames : n.names = []
  · rw [if_pos hnames, hnames]
    cases n.absolute <;> rfl
  · rw [if_neg hnames, List.filter_append, List.filter_append, hself]
    cases n.absolute <;> cases n.trailing <;> simp

theorem elements_injective : Function.Injective NormalPath.elements := by
  intro n m helements
  refine NormalPath.ext ?_ ?_ ?_
  · rw [Bool.eq_iff_iff, ← root_mem_elements_iff, helements, root_mem_elements_iff]
  · rw [← filter_elements, helements, filter_elements]
  · rw [Bool.eq_iff_iff, ← nil_mem_elements_iff, helements, nil_mem_elements_iff]

end Elements

/-! ## Beginnings -/

theorem elements_of_absolute {n : NormalPath} (h : n.absolute = true) :
    n.elements = ['/'] :: (n.names ++ if n.trailing then [[]] else []) := by
  unfold NormalPath.elements
  by_cases hnames : n.names = []
  · have htrailing : n.trailing = false := by
      by_contra htrail
      exact (n.ended (by simpa using htrail)).1 hnames
    simp [hnames, h, htrailing]
  · simp [hnames, h]

/-- A relative path is no beginning of an absolute one. -/
theorem not_elements_isPrefix {n m : NormalPath} (hn : n.absolute = false) (hm : m.absolute = true) :
    ¬n.elements <+: m.elements := by
  rintro ⟨rest, hrest⟩
  obtain ⟨first, others, helements⟩ := List.exists_cons_of_ne_nil (elements_ne_nil n)
  rw [elements_of_absolute hm, helements, List.cons_append] at hrest
  have hroot : ['/'] ∈ n.elements := by
    rw [helements, List.head_eq_of_cons_eq hrest]
    exact List.mem_cons_self
  exact Bool.false_ne_true (hn.symm.trans ((root_mem_elements_iff n).mp hroot))

/-- The separator at the end of a beginning counts: it is there only if nothing follows. -/
theorem elements_prefix_iff {n m : NormalPath} (hn : n.absolute = true) (hm : m.absolute = true) :
    n.elements <+: m.elements ↔
      n.names <+: m.names ∧ (n.trailing = true → n.names = m.names ∧ m.trailing = true) := by
  rw [elements_of_absolute hn, elements_of_absolute hm, List.cons_prefix_cons]
  rw [and_iff_right rfl]
  cases htrailing : n.trailing <;> cases m.trailing
  · simp
  · simp only [Bool.false_eq_true, if_false, if_true, List.append_nil, false_imp_iff, and_true,
      List.prefix_concat_iff]
    refine or_iff_right fun heq => nil_not_mem_names n ?_
    rw [heq]
    exact List.mem_append_right _ (List.mem_singleton_self _)
  · simp only [Bool.false_eq_true, if_false, if_true, List.append_nil, and_false, forall_const]
    exact iff_of_false (fun hbegins => nil_not_mem_names m (hbegins.subset (by simp))) not_false
  · simp only [if_true, List.prefix_concat_iff, forall_const, and_true]
    constructor
    · rintro (heq | hbegins)
      · have hnames := List.append_cancel_right heq
        exact ⟨hnames ▸ List.prefix_rfl, hnames⟩
      · exact absurd (hbegins.subset (by simp)) (nil_not_mem_names m)
    · rintro ⟨-, hnames⟩
      exact .inl (by rw [hnames])

/-- What follows a beginning, put together again. -/
theorem foldl_append_joined {rest : List FilePath} (h : ∀ name ∈ rest, IsName name)
    (trailing : Bool) :
    (rest ++ if trailing then [[]] else []).foldl append [] = joined rest trailing := by
  rw [List.foldl_append, foldl_append_nil h, joined]
  by_cases hrest : rest = []
  · subst hrest
    cases trailing <;> rfl
  · cases trailing
    · simp
    · simp only [if_true, hrest, ne_eq, not_false_eq_true, and_self, List.foldl_cons,
        List.foldl_nil]
      exact append_of_filename rfl (filename_intercalate h hrest)

theorem foldl_append_drop {n m : NormalPath} (hn : n.absolute = true) (hm : m.absolute = true)
    (h : n.elements <+: m.elements) :
    (m.elements.drop n.elements.length).foldl append [] =
      joined (m.names.drop n.names.length) m.trailing := by
  obtain ⟨hbegins, htrailing⟩ := (elements_prefix_iff hn hm).mp h
  have hrest : ∀ name ∈ m.names.drop n.names.length, IsName name := fun name hname =>
    m.isName name (List.mem_of_mem_drop hname)
  rw [← foldl_append_joined hrest, elements_of_absolute hn, elements_of_absolute hm]
  rw [List.length_cons, List.drop_succ_cons]
  cases htrail : n.trailing with
  | false => simp [List.drop_append_of_le_length hbegins.length_le]
  | true =>
    obtain ⟨hnames, hm⟩ := htrailing htrail
    rw [hnames, hm]
    have hempty : append [] [] = [] ++ [] := append_of_no_filename rfl rfl
    simpa using hempty
/-! ## Spelling -/

/-- The path with these names. A separator at the end stands only after a name. -/
def spelled (absolute : Bool) (l : List FilePath) (trailing : Bool) : FilePath :=
  if l = [] then (if absolute then ['/'] else ['.'])
  else (if absolute then ['/'] else []) ++ ['/'].intercalate l ++
    (if trailing ∧ l.getLast? ≠ some ['.', '.'] then ['/'] else [])

theorem text_eq_spelled (n : NormalPath) : n.text = spelled n.absolute n.names n.trailing := by
  unfold NormalPath.text NormalPath.stem spelled
  by_cases hnames : n.names = []
  · rw [if_pos hnames, if_pos hnames]
  · rw [if_neg hnames, if_neg hnames, if_neg hnames]
    have hended : n.trailing = true ↔ n.trailing = true ∧ n.names.getLast? ≠ some ['.', '.'] :=
      ⟨fun htrailing => ⟨htrailing, (n.ended htrailing).2⟩, And.left⟩
    rw [if_congr hended rfl rfl]

theorem extend_text_eq_spelled (n : NormalPath) {rest : List FilePath}
    (hrest : ∀ name ∈ rest, IsPlain name) (trailing : Bool) :
    (n.extend rest hrest trailing).text = spelled n.absolute (n.names ++ rest) trailing := by
  rw [text_eq_spelled, NormalPath.extend, spelled, spelled]
  by_cases hnames : n.names ++ rest = []
  · rw [if_pos hnames, if_pos hnames]
  · rw [if_neg hnames, if_neg hnames]
    congr 1
    refine if_congr ?_ rfl rfl
    rw [Bool.and_eq_true, decide_eq_true_iff, and_assoc, and_congr_right_iff]
    exact fun _ => ⟨And.right, fun hdots => ⟨⟨hnames, hdots⟩, hdots⟩⟩

/-- The separator at the end makes a difference where one can stand. -/
theorem spelled_eq_iff {absolute : Bool} {l : List FilePath} {first second : Bool} :
    spelled absolute l first = spelled absolute l second ↔
      (l ≠ [] → l.getLast? ≠ some ['.', '.'] → first = second) := by
  unfold spelled
  by_cases hnames : l = []
  · simp [hnames]
  · by_cases hdots : l.getLast? = some ['.', '.']
    · simp [hnames, hdots]
    · cases first <;> cases second <;> simp [hnames, hdots]

end FilePath

end MiniDebugger
