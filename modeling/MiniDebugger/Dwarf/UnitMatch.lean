import MiniDebugger.Dwarf.LocalSelection
import MiniDebugger.Agree

/-!
# Units that share a subprogram

`SharesSubprogram` relates two units that have one subprogram in common, with everything below it
and whatever that refers to: offsets and positions may differ, since other entries stand between.
What the lookups ask about an entry below the subprogram has the same answer in both.
`SameSubprogram` adds that the entries below it come in the same order.
-/

namespace MiniDebugger

namespace DieUnit

variable {u v : DieUnit}

/-- The attributes say the same; references lead to related entries. -/
structure SameAttribute (rel : u.Index → v.Index → Prop) (a b : AttributeValue) : Prop where
  name : a.name = b.name
  form : a.form = b.form
  text : a.text = b.text
  expression : a.expression = b.expression
  number : a.form ≠ kDwFormRef4 ∨ a.name = kDwAtHighPc → a.number = b.number
  reference : a.form = kDwFormRef4 →
    Option.Rel rel (u.dieIndexByOffset a.number) (v.dieIndexByOffset b.number)

/-- Related entries are the same entries. -/
structure Matches (rel : u.Index → v.Index → Prop) : Prop where
  single : ∀ {i j k l}, rel i k → rel j l → (i = j ↔ k = l)
  tag : ∀ {i k}, rel i k → (u.die i).tag = (v.die k).tag
  attributes : ∀ {i k}, rel i k →
    List.Forall₂ (SameAttribute rel) (u.die i).attributes (v.die k).attributes

variable (u) in
/-- What stands below an entry, in the order of the unit. -/
def below (subprogram : u.Index) : List u.Index :=
  (List.finRange u.size).filter (u.isDescendantOf · subprogram)

/-- The units share a subprogram and all that is below it. -/
structure SharesSubprogram (rel : u.Index → v.Index → Prop) (s : u.Index) (t : v.Index) : Prop
    extends Matches rel where
  root : rel s t
  parent : ∀ {i k}, rel i k → u.isDescendantOf i s = true →
    Option.Rel rel (u.parent i) (v.parent k)
  total : ∀ i, u.isDescendantOf i s = true → ∃ k, v.isDescendantOf k t = true ∧ rel i k
  onto : ∀ k, v.isDescendantOf k t = true → ∃ i, u.isDescendantOf i s = true ∧ rel i k

/-- They come in the same order, too. -/
structure SameSubprogram (rel : u.Index → v.Index → Prop) (s : u.Index) (t : v.Index) : Prop
    extends SharesSubprogram rel s t where
  descendants : List.Forall₂ rel (u.below s) (v.below t)

section Matches

variable {rel : u.Index → v.Index → Prop} {i : u.Index} {k : v.Index}

theorem Matches.attribute (h : Matches rel) (hik : rel i k) (name : Nat) :
    Option.Rel (SameAttribute rel) ((u.die i).attribute name) ((v.die k).attribute name) := by
  have hlists := h.attributes hik
  unfold Die.attribute
  generalize (u.die i).attributes = left, (v.die k).attributes = right at hlists
  induction hlists with
  | nil => exact .none
  | cons hab _ ih =>
    rw [List.find?_cons, List.find?_cons, hab.name]
    split
    · exact .some hab
    · exact ih

theorem Matches.isScope (h : Matches rel) (hik : rel i k) :
    (u.die i).isScope = (v.die k).isScope := by
  simp only [Die.isScope, h.tag hik]

theorem Matches.isValue (h : Matches rel) (hik : rel i k) :
    (u.die i).isValue = (v.die k).isValue := by
  simp only [Die.isValue, h.tag hik]

theorem Matches.discoveryKind (h : Matches rel) (hik : rel i k) :
    (u.die i).discoveryKind = (v.die k).discoveryKind := by
  simp only [Die.discoveryKind, h.tag hik]

theorem Matches.hasRange (h : Matches rel) (hik : rel i k) :
    (u.die i).hasRange = (v.die k).hasRange := by
  have hlow := h.attribute hik kDwAtLowPc
  have hhigh := h.attribute hik kDwAtHighPc
  unfold Die.hasRange
  generalize (u.die i).attribute kDwAtLowPc = low, (v.die k).attribute kDwAtLowPc = low' at hlow
  generalize (u.die i).attribute kDwAtHighPc = high, (v.die k).attribute kDwAtHighPc = high'
    at hhigh
  cases hlow with
  | none => rfl
  | some hlow =>
    cases hhigh with
    | none => rfl
    | some hhigh =>
      dsimp only
      rw [hlow.form]

theorem Matches.containsPc (h : Matches rel) (hik : rel i k) (pc : Word) :
    (u.die i).containsPc pc = (v.die k).containsPc pc := by
  have hlow := h.attribute hik kDwAtLowPc
  have hhigh := h.attribute hik kDwAtHighPc
  have hname : ∀ high, (u.die i).attribute kDwAtHighPc = some high → high.name = kDwAtHighPc := by
    intro high hfind
    simpa using List.find?_some hfind
  unfold Die.containsPc
  generalize (u.die i).attribute kDwAtLowPc = low, (v.die k).attribute kDwAtLowPc = low' at hlow
  generalize (u.die i).attribute kDwAtHighPc = high, (v.die k).attribute kDwAtHighPc = high'
    at hhigh hname
  cases hlow with
  | none => rfl
  | @some low low' hlow =>
    cases hhigh with
    | none => rfl
    | @some high high' hhigh =>
      dsimp only
      rw [← hlow.form, ← hhigh.form, ← hhigh.number (.inr (hname high rfl))]
      by_cases hform : low.form = kDwFormAddr
      · have hnumber : low.number = low'.number := hlow.number (.inl (by rw [hform]; decide))
        rw [hnumber]
      · rw [if_pos hform, if_pos hform]

/-- Names and other inherited attributes are found in both units or in neither. -/
theorem Matches.attributeFrom (h : Matches rel) (name depth : Nat) (hik : rel i k) :
    Agree (Option.Rel (SameAttribute rel)) (u.attributeFrom name depth i)
      (v.attributeFrom name depth k) := by
  induction depth generalizing i k with
  | zero => exact .error _
  | succ depth ih =>
    have hdirect := h.attribute hik name
    have horigin := h.attribute hik kDwAtAbstractOrigin
    unfold DieUnit.attributeFrom
    generalize (u.die i).attribute name = direct, (v.die k).attribute name = direct' at hdirect
    generalize (u.die i).attribute kDwAtAbstractOrigin = origin,
      (v.die k).attribute kDwAtAbstractOrigin = origin' at horigin
    cases hdirect with
    | some hdirect => exact .ok (.some hdirect)
    | none =>
      cases horigin with
      | none => exact .ok .none
      | @some origin origin' horigin =>
        dsimp only
        rw [← horigin.form]
        by_cases hform : origin.form = kDwFormRef4
        · rw [if_neg (not_not.mpr hform), if_neg (not_not.mpr hform)]
          have href := horigin.reference hform
          generalize u.dieIndexByOffset origin.number = next,
            v.dieIndexByOffset origin'.number = next' at href
          cases href with
          | none => exact .error _
          | @some next next' hnext =>
            dsimp only
            by_cases hself : next = i
            · rw [if_pos hself, if_pos ((h.single hnext hik).mp hself)]
              exact .error _
            · rw [if_neg hself, if_neg fun heq => hself ((h.single hnext hik).mpr heq)]
              exact ih hnext
        · rw [if_pos hform, if_pos hform]
          exact .error _

end Matches

/-! ## One step towards the root -/

section Walks

variable {s i p : u.Index}

theorem isDescendantOf_of_none (h : u.parent i = none) : u.isDescendantOf i s = false := by
  rw [isDescendantOf]
  split <;> simp_all

theorem isDescendantOf_of_some (h : u.parent i = some p) :
    u.isDescendantOf i s = if p = s then true else u.isDescendantOf p s := by
  rw [isDescendantOf]
  split <;> simp_all

theorem crossesInlineScope_of_none (h : u.parent i = none) : u.crossesInlineScope i s = false := by
  rw [crossesInlineScope]
  split <;> simp_all

theorem crossesInlineScope_of_some (h : u.parent i = some p) :
    u.crossesInlineScope i s = if p = s then false
      else if (u.die p).tag = kDwTagInlinedSubroutine then true else u.crossesInlineScope p s := by
  rw [crossesInlineScope]
  split <;> simp_all

theorem activeScopeDepthFrom_eq (pc : Word) (depth : Nat) :
    u.activeScopeDepthFrom s pc i depth =
      if i = s then .ok (some depth)
      else if !(u.die i).isScope then .ok none
      else if !(u.die i).hasRange then
        .error (.runtimeError
          "local scope does not use the supported DW_AT_low_pc/DW_AT_high_pc range")
      else (u.die i).containsPc pc >>= fun inside =>
        if !inside then .ok none
        else match u.parent i with
          | none => .ok none
          | some p => u.activeScopeDepthFrom s pc p (depth + 1) := by
  rw [activeScopeDepthFrom]
  split
  · rfl
  · split
    · rfl
    · split
      · rfl
      · refine bind_congr fun inside => ?_
        split
        · rfl
        · split
          · next hparent =>
            simp only [hparent]
            rfl
          · next p hparent => simp only [hparent]

end Walks

section SharesSubprogram

variable {rel : u.Index → v.Index → Prop} {s i : u.Index} {t k : v.Index}

theorem mem_below : i ∈ u.below s ↔ u.isDescendantOf i s = true := by
  simp [below]

/-- The parent of a descendant is the ancestor or a descendant. -/
theorem isDescendantOf_parent {p : u.Index} (hi : u.isDescendantOf i s = true)
    (hparent : u.parent i = some p) : p = s ∨ u.isDescendantOf p s = true := by
  rw [isDescendantOf_of_some hparent] at hi
  split at hi
  case isTrue heq => exact .inl heq
  case isFalse => exact .inr hi

theorem SharesSubprogram.parent_cases (h : SharesSubprogram rel s t) (hik : rel i k)
    (hi : u.isDescendantOf i s = true) :
    (u.parent i = none ∧ v.parent k = none) ∨
      ∃ p q, u.parent i = some p ∧ v.parent k = some q ∧ rel p q ∧
        (p = s ∨ u.isDescendantOf p s = true) := by
  have hparents := h.parent hik hi
  cases hp : u.parent i with
  | none =>
    cases hq : v.parent k with
    | none => exact .inl ⟨rfl, rfl⟩
    | some q =>
      rw [hp, hq] at hparents
      cases hparents
  | some p =>
    cases hq : v.parent k with
    | none =>
      rw [hp, hq] at hparents
      cases hparents
    | some q =>
      rw [hp, hq] at hparents
      cases hparents with
      | some hpq => exact .inr ⟨p, q, rfl, rfl, hpq, isDescendantOf_parent hi hp⟩

theorem SharesSubprogram.activeScopeDepthFrom (h : SharesSubprogram rel s t) (pc : Word)
    (hik : rel i k) (hi : i = s ∨ u.isDescendantOf i s = true) (depth : Nat) :
    u.activeScopeDepthFrom s pc i depth = v.activeScopeDepthFrom t pc k depth := by
  induction hroom : i.val using Nat.strongRecOn generalizing i k depth with
  | ind room ih =>
    subst hroom
    rw [activeScopeDepthFrom_eq, activeScopeDepthFrom_eq, ← h.isScope hik, ← h.hasRange hik,
      ← h.containsPc hik]
    by_cases hroot : i = s
    · rw [if_pos hroot, if_pos ((h.single hik h.root).mp hroot)]
    · rw [if_neg hroot, if_neg fun heq => hroot ((h.single hik h.root).mpr heq)]
      obtain ⟨hp, hq⟩ | ⟨p, q, hp, hq, hpq, hmem⟩ := h.parent_cases hik (hi.resolve_left hroot)
      · rw [hp, hq]
      · rw [hp, hq]
        dsimp only
        rw [ih p (parent_lt hp) hpq hmem (depth + 1) rfl]

theorem SharesSubprogram.activeScopeDepth (h : SharesSubprogram rel s t) (pc : Word) (hik : rel i k)
    (hi : u.isDescendantOf i s = true) :
    u.activeScopeDepth i s pc = v.activeScopeDepth k t pc := by
  unfold DieUnit.activeScopeDepth
  obtain ⟨hp, hq⟩ | ⟨p, q, hp, hq, hpq, hmem⟩ := h.parent_cases hik hi
  · rw [hp, hq]
  · rw [hp, hq]
    exact h.activeScopeDepthFrom pc hpq hmem 0

theorem SharesSubprogram.crossesInlineScope (h : SharesSubprogram rel s t) (hik : rel i k)
    (hi : u.isDescendantOf i s = true) :
    u.crossesInlineScope i s = v.crossesInlineScope k t := by
  induction hroom : i.val using Nat.strongRecOn generalizing i k with
  | ind room ih =>
    subst hroom
    obtain ⟨hp, hq⟩ | ⟨p, q, hp, hq, hpq, hmem⟩ := h.parent_cases hik hi
    · rw [crossesInlineScope_of_none hp, crossesInlineScope_of_none hq]
    · rw [crossesInlineScope_of_some hp, crossesInlineScope_of_some hq, ← h.tag hpq]
      by_cases hroot : p = s
      · rw [if_pos hroot, if_pos ((h.single hpq h.root).mp hroot)]
      · rw [if_neg hroot, if_neg fun heq => hroot ((h.single hpq h.root).mpr heq),
          ih p (parent_lt hp) hpq (hmem.resolve_left hroot) rfl]

end SharesSubprogram

end DieUnit

end MiniDebugger
