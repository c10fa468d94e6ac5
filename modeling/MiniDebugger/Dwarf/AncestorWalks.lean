import MiniDebugger.Dwarf.UnitMatch
import MiniDebugger.Loops

/-!
# Walks towards the root

The walks over the parents of an entry, as loops over indexes into the list of entries. In a
`DieUnit` a parent comes before its children, so each of them ends, with the result of the function
that recurses on the parent.
-/

namespace MiniDebugger

open Loop (Round)

namespace DieUnit

variable (u : DieUnit)

/-- The loop of `inline_depth_from_physical`, from `parent` at depth `depth`. -/
def inlineDepthFrom (subprogram parent : u.Index) (depth : Nat) : Option Nat :=
  if parent = subprogram then some depth
  else
    let depth := if (u.die parent).tag = kDwTagInlinedSubroutine then depth + 1 else depth
    match h : u.parent parent with
    | none => none
    | some next =>
      have := parent_lt h
      inlineDepthFrom subprogram next depth
termination_by parent.val

def inlineDepthFromPhysical (inlineIndex subprogram : u.Index) : Option Nat :=
  match u.parent inlineIndex with
  | none => none
  | some parent => u.inlineDepthFrom subprogram parent 1

/-- The loop of `inline_local_scope_depth`, from the scope `scope` at depth `depth`. -/
def inlineLocalScopeDepthFrom (inlineIndex : u.Index) (pc : Word) (ranges : List Byte)
    (unitBase : Word) (scope : u.Index) (depth : Nat) : Except Exception (Option Nat) :=
  if scope = inlineIndex then return some depth
  else if (u.die scope).tag = kDwTagInlinedSubroutine then return none
  else if (u.die scope).tag ≠ kDwTagLexicalBlock then return none
  else do
    if !(← (u.die scope).inlineScopeContainsPc pc ranges unitBase u.version) then return none
    match h : u.parent scope with
    | none => return none
    | some parent =>
      have := parent_lt h
      inlineLocalScopeDepthFrom inlineIndex pc ranges unitBase parent (depth + 1)
termination_by scope.val

def inlineLocalScopeDepth (value inlineIndex : u.Index) (pc : Word) (ranges : List Byte)
    (unitBase : Word) : Except Exception (Option Nat) :=
  match u.parent value with
  | none => return none
  | some parent => u.inlineLocalScopeDepthFrom inlineIndex pc ranges unitBase parent 0

end DieUnit

/-! ## The loops -/

/-- `dies[index].parent` -/
def parentAt (dies : List Die) (index : Nat) : Option Nat := (dies[index]?).bind (·.parent)

/-- `dies[index].tag` -/
def tagAt (dies : List Die) (index : Nat) : Option Nat := (dies[index]?).map (·.tag)

/-- A round of `is_descendant_of` -/
def descendantRound (dies : List Die) (ancestor : Nat) : Option Nat → Round (Option Nat) Bool
  | none => .stop false
  | some parent => if parent = ancestor then .stop true else .again (parentAt dies parent)

/-- A round of `crosses_inline_scope` -/
def crossesRound (dies : List Die) (subprogram : Nat) : Option Nat → Round (Option Nat) Bool
  | none => .stop false
  | some parent =>
    if parent = subprogram then .stop false
    else if tagAt dies parent = some kDwTagInlinedSubroutine then .stop true
    else .again (parentAt dies parent)

/-- A round of `inline_depth_from_physical` -/
def inlineDepthRound (dies : List Die) (subprogram : Nat) :
    Option Nat × Nat → Round (Option Nat × Nat) (Option Nat)
  | (none, _) => .stop none
  | (some parent, depth) =>
    if parent = subprogram then .stop (some depth)
    else .again (parentAt dies parent,
      if tagAt dies parent = some kDwTagInlinedSubroutine then depth + 1 else depth)

/-- A round of `active_scope_depth` -/
def activeScopeRound (dies : List Die) (subprogram : Nat) (pc : Word) (state : Option Nat × Nat) :
    Round (Option Nat × Nat) (Except Exception (Option Nat)) :=
  match state.1 with
  | none => .stop (.ok none)
  | some parent =>
    if parent = subprogram then .stop (.ok (some state.2))
    else
      match dies[parent]? with
      | none => .stop (.ok none)
      | some scope =>
        if !scope.isScope then .stop (.ok none)
        else if !scope.hasRange then
          .stop (.error (.runtimeError
            "local scope does not use the supported DW_AT_low_pc/DW_AT_high_pc range"))
        else
          match scope.containsPc pc with
          | .error e => .stop (.error e)
          | .ok false => .stop (.ok none)
          | .ok true => .again (scope.parent, state.2 + 1)

/-- A round of `inline_local_scope_depth` -/
def inlineLocalScopeRound (dies : List Die) (inlineIndex : Nat) (pc : Word) (ranges : List Byte)
    (unitBase : Word) (version : Nat) (state : Option Nat × Nat) :
    Round (Option Nat × Nat) (Except Exception (Option Nat)) :=
  match state.1 with
  | none => .stop (.ok none)
  | some parent =>
    if parent = inlineIndex then .stop (.ok (some state.2))
    else
      match dies[parent]? with
      | none => .stop (.ok none)
      | some scope =>
        if scope.tag = kDwTagInlinedSubroutine then .stop (.ok none)
        else if scope.tag ≠ kDwTagLexicalBlock then .stop (.ok none)
        else
          match scope.inlineScopeContainsPc pc ranges unitBase version with
          | .error e => .stop (.error e)
          | .ok false => .stop (.ok none)
          | .ok true => .again (scope.parent, state.2 + 1)

/-- A round of `attribute_with_abstract_origin`; the state is the number of rounds before this one
and the entry. -/
def originRound (dies : List Die) (name : Nat) (state : Nat × Nat) :
    Round (Nat × Nat) (Except Exception (Option AttributeValue)) :=
  if kMaxAbstractOriginDepth ≤ state.1 then
    .stop (.error (.runtimeError "inlined local abstract-origin chain is too deep"))
  else
    match dies[state.2]? with
    | none => .stop (.ok none)
    | some die =>
      match die.attribute name with
      | some direct => .stop (.ok (some direct))
      | none =>
        match die.attribute kDwAtAbstractOrigin with
        | none => .stop (.ok none)
        | some origin =>
          if origin.form ≠ kDwFormRef4 then
            .stop (.error (.runtimeError
              "inlined local abstract origin does not use supported DW_FORM_ref4"))
          else
            match dies.findIdx? fun die => die.offset = origin.number with
            | none =>
              .stop (.error (.runtimeError
                "inlined local abstract origin references an unknown DIE"))
            | some next =>
              if next = state.2 then
                .stop (.error (.runtimeError
                  "inlined local abstract origin is self-referential"))
              else .again (state.1 + 1, next)

/-! ## The loops end -/

section Ends

variable {u : DieUnit} {i p s : u.Index}

theorem getElem?_die (i : u.Index) : u.dies[i.val]? = some (u.die i) :=
  List.getElem?_eq_getElem i.isLt

theorem die_parent (i : u.Index) : (u.die i).parent = (u.parent i).map Fin.val := by
  unfold DieUnit.parent
  rw [Option.map_pmap, Option.pmap_eq_map, Option.map_id']

theorem parentAt_eq (i : u.Index) : parentAt u.dies i = (u.parent i).map Fin.val := by
  unfold parentAt
  rw [getElem?_die, Option.bind_some, die_parent]

theorem tagAt_eq (i : u.Index) : tagAt u.dies i = some (u.die i).tag := by
  unfold tagAt
  rw [getElem?_die, Option.map_some]

theorem descendantRound_ends (i s : u.Index) :
    Loop.Ends (descendantRound u.dies s) ((u.parent i).map Fin.val) (u.isDescendantOf i s) := by
  induction i using WellFoundedLT.induction with
  | _ i ih =>
    cases hp : u.parent i with
    | none =>
      rw [DieUnit.isDescendantOf_of_none hp]
      exact .stop rfl
    | some p =>
      rw [DieUnit.isDescendantOf_of_some hp]
      have hround : descendantRound u.dies s ((some p).map Fin.val) =
          if p = s then .stop true else .again ((u.parent p).map Fin.val) := by
        simp only [descendantRound, Option.map_some, Fin.ext_iff, parentAt_eq]
      by_cases hfound : p = s
      · rw [if_pos hfound] at hround ⊢
        exact .stop hround
      · rw [if_neg hfound] at hround ⊢
        exact .again hround (ih p (DieUnit.parent_lt hp))

theorem crossesRound_ends (i s : u.Index) :
    Loop.Ends (crossesRound u.dies s) ((u.parent i).map Fin.val) (u.crossesInlineScope i s) := by
  induction i using WellFoundedLT.induction with
  | _ i ih =>
    cases hp : u.parent i with
    | none =>
      rw [DieUnit.crossesInlineScope_of_none hp]
      exact .stop rfl
    | some p =>
      rw [DieUnit.crossesInlineScope_of_some hp]
      have hround : crossesRound u.dies s ((some p).map Fin.val) =
          if p = s then .stop false
          else if (u.die p).tag = kDwTagInlinedSubroutine then .stop true
          else .again ((u.parent p).map Fin.val) := by
        simp only [crossesRound, Option.map_some, Fin.ext_iff, parentAt_eq, tagAt_eq,
          Option.some.injEq]
      by_cases hfound : p = s
      · rw [if_pos hfound] at hround ⊢
        exact .stop hround
      rw [if_neg hfound] at hround ⊢
      by_cases hinline : (u.die p).tag = kDwTagInlinedSubroutine
      · rw [if_pos hinline] at hround ⊢
        exact .stop hround
      · rw [if_neg hinline] at hround ⊢
        exact .again hround (ih p (DieUnit.parent_lt hp))

theorem inlineDepthFrom_eq (s p : u.Index) (depth : Nat) :
    u.inlineDepthFrom s p depth = if p = s then some depth
      else match u.parent p with
        | none => none
        | some next => u.inlineDepthFrom s next
          (if (u.die p).tag = kDwTagInlinedSubroutine then depth + 1 else depth) := by
  rw [DieUnit.inlineDepthFrom]
  split
  · rfl
  · dsimp only
    split <;> simp_all

theorem inlineDepthRound_ends_from (s p : u.Index) (depth : Nat) :
    Loop.Ends (inlineDepthRound u.dies s) (some p.val, depth) (u.inlineDepthFrom s p depth) := by
  induction p using WellFoundedLT.induction generalizing depth with
  | _ p ih =>
    rw [inlineDepthFrom_eq]
    have hround : inlineDepthRound u.dies s (some p.val, depth) =
        if p = s then .stop (some depth)
        else .again ((u.parent p).map Fin.val,
          if (u.die p).tag = kDwTagInlinedSubroutine then depth + 1 else depth) := by
      simp only [inlineDepthRound, Fin.ext_iff, parentAt_eq, tagAt_eq, Option.some.injEq]
    by_cases hfound : p = s
    · rw [if_pos hfound] at hround ⊢
      exact .stop hround
    · rw [if_neg hfound] at hround ⊢
      refine .again hround ?_
      cases hp : u.parent p with
      | none => exact .stop rfl
      | some next => exact ih next (DieUnit.parent_lt hp) _

theorem inlineDepthRound_ends (i s : u.Index) :
    Loop.Ends (inlineDepthRound u.dies s) ((u.parent i).map Fin.val, 1)
      (u.inlineDepthFromPhysical i s) := by
  unfold DieUnit.inlineDepthFromPhysical
  cases u.parent i with
  | none => exact .stop rfl
  | some p => exact inlineDepthRound_ends_from s p 1

theorem activeScopeRound_ends_from (s p : u.Index) (pc : Word) (depth : Nat) :
    Loop.Ends (activeScopeRound u.dies s pc) (some p.val, depth)
      (u.activeScopeDepthFrom s pc p depth) := by
  induction p using WellFoundedLT.induction generalizing depth with
  | _ p ih =>
    rw [DieUnit.activeScopeDepthFrom_eq]
    have hround := activeScopeRound.eq_def u.dies s pc (some p.val, depth)
    simp only [getElem?_die, ← Fin.ext_iff] at hround
    by_cases hfound : p = s
    · rw [if_pos hfound] at hround ⊢
      exact .stop hround
    rw [if_neg hfound] at hround ⊢
    cases hscope : (u.die p).isScope with
    | false =>
      rw [hscope] at hround
      exact .stop hround
    | true =>
      cases hrange : (u.die p).hasRange with
      | false =>
        rw [hscope, hrange] at hround
        exact .stop hround
      | true =>
        rw [hscope, hrange] at hround
        cases hcontains : (u.die p).containsPc pc with
        | error e =>
          rw [hcontains] at hround
          exact .stop hround
        | ok inside =>
          rw [hcontains] at hround
          cases inside with
          | false => exact .stop hround
          | true =>
            refine .again hround ?_
            rw [die_parent]
            cases hp : u.parent p with
            | none => exact .stop rfl
            | some next => exact ih next (DieUnit.parent_lt hp) _

theorem activeScopeRound_ends (i s : u.Index) (pc : Word) :
    Loop.Ends (activeScopeRound u.dies s pc) ((u.parent i).map Fin.val, 0)
      (u.activeScopeDepth i s pc) := by
  unfold DieUnit.activeScopeDepth
  cases u.parent i with
  | none => exact .stop rfl
  | some p => exact activeScopeRound_ends_from s p pc 0

theorem inlineLocalScopeDepthFrom_eq (s p : u.Index) (pc : Word) (ranges : List Byte)
    (unitBase : Word) (depth : Nat) :
    u.inlineLocalScopeDepthFrom s pc ranges unitBase p depth =
      if p = s then .ok (some depth)
      else if (u.die p).tag = kDwTagInlinedSubroutine then .ok none
      else if (u.die p).tag ≠ kDwTagLexicalBlock then .ok none
      else (u.die p).inlineScopeContainsPc pc ranges unitBase u.version >>= fun inside =>
        if !inside then .ok none
        else match u.parent p with
          | none => .ok none
          | some next => u.inlineLocalScopeDepthFrom s pc ranges unitBase next (depth + 1) := by
  rw [DieUnit.inlineLocalScopeDepthFrom]
  split
  · rfl
  · split
    · rfl
    · split
      · rfl
      · refine bind_congr fun inside => ?_
        split
        · rfl
        · split
          · next hparent =>
            rw [hparent]
            rfl
          · next hparent => simp only [hparent]

theorem inlineLocalScopeRound_ends_from (s p : u.Index) (pc : Word) (ranges : List Byte)
    (unitBase : Word) (depth : Nat) :
    Loop.Ends (inlineLocalScopeRound u.dies s pc ranges unitBase u.version) (some p.val, depth)
      (u.inlineLocalScopeDepthFrom s pc ranges unitBase p depth) := by
  induction p using WellFoundedLT.induction generalizing depth with
  | _ p ih =>
    rw [inlineLocalScopeDepthFrom_eq]
    have hround :=
      inlineLocalScopeRound.eq_def u.dies s pc ranges unitBase u.version (some p.val, depth)
    simp only [getElem?_die, ← Fin.ext_iff] at hround
    by_cases hfound : p = s
    · rw [if_pos hfound] at hround ⊢
      exact .stop hround
    rw [if_neg hfound] at hround ⊢
    by_cases hinline : (u.die p).tag = kDwTagInlinedSubroutine
    · rw [if_pos hinline] at hround ⊢
      exact .stop hround
    rw [if_neg hinline] at hround ⊢
    by_cases hblock : (u.die p).tag ≠ kDwTagLexicalBlock
    · rw [if_pos hblock] at hround ⊢
      exact .stop hround
    rw [if_neg hblock] at hround ⊢
    cases hcontains : (u.die p).inlineScopeContainsPc pc ranges unitBase u.version with
    | error e =>
      rw [hcontains] at hround
      exact .stop hround
    | ok inside =>
      rw [hcontains] at hround
      cases inside with
      | false => exact .stop hround
      | true =>
        refine .again hround ?_
        rw [die_parent]
        cases hp : u.parent p with
        | none => exact .stop rfl
        | some next => exact ih next (DieUnit.parent_lt hp) _

theorem inlineLocalScopeRound_ends (i s : u.Index) (pc : Word) (ranges : List Byte)
    (unitBase : Word) :
    Loop.Ends (inlineLocalScopeRound u.dies s pc ranges unitBase u.version)
      ((u.parent i).map Fin.val, 0) (u.inlineLocalScopeDepth i s pc ranges unitBase) := by
  unfold DieUnit.inlineLocalScopeDepth
  cases u.parent i with
  | none => exact .stop rfl
  | some p => exact inlineLocalScopeRound_ends_from s p pc ranges unitBase 0

/-- With `rounds` rounds left. -/
theorem originRound_ends_from (i : u.Index) (name rounds : Nat) {depth : Nat}
    (hdepth : depth + rounds = kMaxAbstractOriginDepth) :
    Loop.Ends (originRound u.dies name) (depth, i.val) (u.attributeFrom name rounds i) := by
  induction rounds generalizing depth i with
  | zero => exact .stop (if_pos hdepth.ge)
  | succ rounds ih =>
    have hround := originRound.eq_def u.dies name (depth, i.val)
    simp only [getElem?_die] at hround
    rw [if_neg (by omega)] at hround
    unfold DieUnit.attributeFrom
    cases hdirect : (u.die i).attribute name with
    | some direct =>
      rw [hdirect] at hround
      exact .stop hround
    | none =>
      rw [hdirect] at hround
      cases horigin : (u.die i).attribute kDwAtAbstractOrigin with
      | none =>
        rw [horigin] at hround
        exact .stop hround
      | some origin =>
        rw [horigin] at hround
        dsimp only at hround ⊢
        by_cases hform : origin.form ≠ kDwFormRef4
        · rw [if_pos hform] at hround ⊢
          exact .stop hround
        rw [if_neg hform] at hround ⊢
        rw [List.findIdx?_eq_map_findFinIdx?_val] at hround
        unfold DieUnit.dieIndexByOffset
        cases hnext : u.dies.findFinIdx? fun die => die.offset = origin.number with
        | none =>
          rw [hnext] at hround
          exact .stop hround
        | some next =>
          rw [hnext] at hround
          simp only [Option.map_some, ← Fin.ext_iff] at hround
          by_cases hself : next = i
          · rw [if_pos hself] at hround
            dsimp only
            rw [if_pos hself]
            exact .stop hround
          · rw [if_neg hself] at hround
            dsimp only
            rw [if_neg hself]
            exact .again hround (ih next (by omega))

/-- Every walk over the unit ends with what the function on the unit returns. -/
structure DieUnit.WalksEnd (u : DieUnit) : Prop where
  isDescendantOf (child ancestor : u.Index) : Loop.Ends (descendantRound u.dies ancestor)
    (u.die child).parent (u.isDescendantOf child ancestor)
  crossesInlineScope (value subprogram : u.Index) : Loop.Ends (crossesRound u.dies subprogram)
    (u.die value).parent (u.crossesInlineScope value subprogram)
  inlineDepthFromPhysical (inlineIndex subprogram : u.Index) :
    Loop.Ends (inlineDepthRound u.dies subprogram) ((u.die inlineIndex).parent, 1)
      (u.inlineDepthFromPhysical inlineIndex subprogram)
  activeScopeDepth (value subprogram : u.Index) (pc : Word) :
    Loop.Ends (activeScopeRound u.dies subprogram pc) ((u.die value).parent, 0)
      (u.activeScopeDepth value subprogram pc)
  inlineLocalScopeDepth (value inlineIndex : u.Index) (pc : Word) (ranges : List Byte)
    (unitBase : Word) :
    Loop.Ends (inlineLocalScopeRound u.dies inlineIndex pc ranges unitBase u.version)
      ((u.die value).parent, 0) (u.inlineLocalScopeDepth value inlineIndex pc ranges unitBase)
  attributeWithAbstractOrigin (i : u.Index) (name : Nat) : Loop.Ends (originRound u.dies name)
    (0, i.val) (u.attributeWithAbstractOrigin i name)

theorem walksEnd (u : DieUnit) : u.WalksEnd where
  isDescendantOf i s := die_parent i ▸ descendantRound_ends i s
  crossesInlineScope i s := die_parent i ▸ crossesRound_ends i s
  inlineDepthFromPhysical i s := die_parent i ▸ inlineDepthRound_ends i s
  activeScopeDepth i s pc := die_parent i ▸ activeScopeRound_ends i s pc
  inlineLocalScopeDepth i s pc ranges unitBase :=
    die_parent i ▸ inlineLocalScopeRound_ends i s pc ranges unitBase
  attributeWithAbstractOrigin i name := originRound_ends_from i name _ (Nat.zero_add _)

end Ends

end MiniDebugger
