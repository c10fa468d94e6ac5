import MiniDebugger.Dwarf.Die

/-!
# Looking up local values

Which entry a local name stands for at an address. Live inspection, caller frames and core frames
each have their own copy of one loop, `selectLocal`, which keeps the deepest active entry of that
name. `discoverScopedLocalCatalogueUnit` lists the names instead, and looks at neither the
instances of inlined functions nor the low and high address of the subprogram alone.
-/

namespace MiniDebugger

open Std (ExtTreeMap)

namespace DieUnit

variable (u : DieUnit)

/-! ## Inspection -/

/-- The errors of a lookup, which its three callers word differently. -/
structure LookupTexts where
  multiple : String
  ambiguous : String
  outside : String
  missing : String

/-- The subprogram that covers the address. -/
def findSubprogram (texts : LookupTexts) (pc : Word) : Except Exception (Option u.Index) :=
  (List.finRange u.size).foldlM (fun found index => do
    if (u.die index).tag ≠ kDwTagSubprogram then return found
    if !(← (u.die index).containsPc pc) then return found
    if found.isSome then throw (.runtimeError texts.multiple)
    return some index) none

/-- What the loop over the entries has found: `value_die_index` with `best_depth`, and whether an
inactive entry of that name belongs to the subprogram. -/
structure LocalSelection where
  best : Option (u.Index × Nat) := none
  nestedName : Bool := false

def selectStep (texts : LookupTexts) (subprogram : u.Index) (pc : Word) (name : String)
    (selection : LocalSelection u) (index : u.Index) : Except Exception (LocalSelection u) := do
  if !(u.die index).isValue then return selection
  match ← u.attributeWithAbstractOrigin index kDwAtName with
  | none => return selection
  | some dieName =>
    if dieName.text ≠ name then return selection
    match ← u.activeScopeDepth index subprogram pc with
    | none =>
      if u.isDescendantOf index subprogram then return { selection with nestedName := true }
      else return selection
    | some depth =>
      match selection.best with
      | none => return { selection with best := some (index, depth) }
      | some (_, bestDepth) =>
        if bestDepth < depth then return { selection with best := some (index, depth) }
        else if depth = bestDepth then throw (.runtimeError (texts.ambiguous ++ name))
        else return selection

/-- The entry a name stands for; `none` when the unit does not cover the address. -/
def selectLocal (texts : LookupTexts) (pc : Word) (name : String) :
    Except Exception (Option u.Index) := do
  match ← u.findSubprogram texts pc with
  | none => return none
  | some subprogram =>
    let selection ←
      (List.finRange u.size).foldlM (u.selectStep texts subprogram pc name) {}
    match selection.best with
    | some (index, _) => return some index
    | none =>
      if selection.nestedName then throw (.runtimeError (texts.outside ++ name))
      else throw (.runtimeError (texts.missing ++ name))

def inspectUnitTexts : LookupTexts where
  multiple := "current PC matches multiple DWARF subprograms"
  ambiguous := "ambiguous local value in current lexical scope: "
  outside := "local value is outside the current lexical scope: "
  missing := "local value is not in the current subprogram: "

def inspectCallerStackUnitTexts : LookupTexts where
  multiple := "inspection frame PC matches multiple DWARF subprograms"
  ambiguous := "ambiguous local value in inspection-frame lexical scope: "
  outside := "local value is outside the inspection-frame lexical scope: "
  missing := "local value is not in the inspection-frame subprogram: "

def inspectSnapshotUnitTexts : LookupTexts where
  multiple := "snapshot inspection frame PC matches multiple DWARF subprograms"
  ambiguous := "ambiguous local value in snapshot inspection-frame lexical scope: "
  outside := "local value is outside the snapshot inspection-frame lexical scope: "
  missing := "local value is not in the snapshot inspection-frame subprogram: "

/-- The entry `inspect_unit` reads. -/
def inspectUnit (pc : Word) (name : String) : Except Exception (Option u.Index) :=
  u.selectLocal inspectUnitTexts pc name

end DieUnit

/-! ## Discovery -/

def kInlineDwAtRanges : Nat := 0x55
def kMaxInlineRangeEntries : Nat := 64
def kMaxDiscoveredLocals : Nat := 64

/-- `compilation_unit_base` -/
def DieUnit.compilationUnitBase (u : DieUnit) : Except Exception Word :=
  match u.dies.head? with
  | none => return 0
  | some die =>
    match die.attribute kDwAtLowPc with
    | none => return 0
    | some low =>
      if low.form ≠ kDwFormAddr then
        throw (.runtimeError "compilation-unit DW_AT_low_pc is not DW_FORM_addr")
      else return low.number

/-- `read_scalar` of the debug-info readers, which word the boundary differently. -/
def readDwarfScalar (bytes : List Byte) (limit size : Nat) (what : String) : Parse Nat :=
  fun cursor =>
    if limit < cursor ∨ limit - cursor < size then
      throw (.runtimeError (what ++ " extends past DWARF boundary"))
    else do
      let value ← readAt bytes cursor size what
      return (value, cursor + size)

/-- The loop over a range list, with `entries` entries left. -/
def rangeListContainsPc (ranges : List Byte) (pc : Word) :
    Nat → Word → Parse Bool
  | 0, _ => throw (.runtimeError "DWARF4 inline range list exceeds the bounded 64-entry limit")
  | entries + 1, base => do
    let begin_ ← readDwarfScalar ranges ranges.length 8 "DWARF4 range begin"
    let end_ ← readDwarfScalar ranges ranges.length 8 "DWARF4 range end"
    if begin_ = 0 ∧ end_ = 0 then return false
    if begin_ = 2 ^ 64 - 1 then rangeListContainsPc ranges pc entries (BitVec.ofNat 64 end_)
    else
      if end_ < begin_ then
        throw (.runtimeError "DWARF4 inline range has descending endpoints")
      let absoluteBegin ← addUnsigned base (BitVec.ofNat 64 begin_) "DWARF4 range begin"
      let absoluteEnd ← addUnsigned base (BitVec.ofNat 64 end_) "DWARF4 range end"
      if absoluteBegin ≤ pc ∧ pc < absoluteEnd then return true
      rangeListContainsPc ranges pc entries base

/-- `bounded_range_list_contains_pc` -/
def Die.boundedRangeListContainsPc (die : Die) (pc : Word) (ranges : List Byte)
    (initialBase : Word) (unitVersion : Nat) : Except Exception Bool :=
  match die.attribute kInlineDwAtRanges with
  | none => return false
  | some range => do
    if unitVersion ≠ 4 then
      throw (.runtimeError "inline DW_AT_ranges is currently bounded to DWARF4 .debug_ranges")
    if range.form ≠ kDwFormSecOffset ∧ range.form ≠ kDwFormData4 then
      throw (.runtimeError "inline DW_AT_ranges does not use a supported section-offset form")
    if ranges.length = 0 ∨ ranges.length < range.number.toNat then
      throw (.runtimeError "inline DW_AT_ranges references unavailable .debug_ranges data")
    let (inside, _) ←
      rangeListContainsPc ranges pc kMaxInlineRangeEntries initialBase range.number.toNat
    return inside

/-- `inline_scope_contains_pc` -/
def Die.inlineScopeContainsPc (die : Die) (pc : Word) (ranges : List Byte) (unitBase : Word)
    (unitVersion : Nat) : Except Exception Bool :=
  match die.attribute kDwAtLowPc, die.attribute kDwAtHighPc with
  | none, none => die.boundedRangeListContainsPc pc ranges unitBase unitVersion
  | some low, some _ =>
    if low.form ≠ kDwFormAddr then
      throw (.runtimeError "inline scope has an incomplete DW_AT_low_pc/DW_AT_high_pc range")
    else die.containsPc pc
  | _, _ => throw (.runtimeError "inline scope has an incomplete DW_AT_low_pc/DW_AT_high_pc range")

inductive LocalDiscoveryKind where
  | variable | formalParameter
  deriving DecidableEq, Repr

structure LocalDiscoveryEntry where
  name : String
  kind : LocalDiscoveryKind
  deriving DecidableEq, Repr

def Die.discoveryKind (die : Die) : LocalDiscoveryKind :=
  if die.tag = kDwTagFormalParameter then .formalParameter else .variable

/-- The deepest entry of a name so far. -/
structure CatalogueCandidate where
  depth : Nat
  kind : LocalDiscoveryKind
  deriving DecidableEq

namespace DieUnit

variable (u : DieUnit)

/-- `find_physical_subprogram` -/
def findPhysicalSubprogram (pc : Word) (ranges : List Byte) (unitBase : Word) :
    Except Exception (Option u.Index) :=
  (List.finRange u.size).foldlM (fun found index => do
    if (u.die index).tag ≠ kDwTagSubprogram then return found
    if !(← (u.die index).inlineScopeContainsPc pc ranges unitBase u.version) then return found
    if found.isSome then
      throw (.runtimeError
        "snapshot inline discovery PC matches multiple physical DWARF subprograms")
    return some index) none

/-- `crosses_inline_scope` -/
def crossesInlineScope (value subprogram : u.Index) : Bool :=
  match h : u.parent value with
  | none => false
  | some parent =>
    have := parent_lt h
    if parent = subprogram then false
    else if (u.die parent).tag = kDwTagInlinedSubroutine then true
    else crossesInlineScope parent subprogram
termination_by value.val

def catalogueStep (subprogram : u.Index) (pc : Word)
    (selected : ExtTreeMap String CatalogueCandidate) (index : u.Index) :
    Except Exception (ExtTreeMap String CatalogueCandidate) := do
  if !(u.die index).isValue then return selected
  if u.crossesInlineScope index subprogram then return selected
  match ← u.attributeWithAbstractOrigin index kDwAtName with
  | none => return selected
  | some name =>
    if name.text = "" then return selected
    match ← u.activeScopeDepth index subprogram pc with
    | none => return selected
    | some depth =>
      let candidate : CatalogueCandidate := ⟨depth, (u.die index).discoveryKind⟩
      match selected[name.text]? with
      | none =>
        if kMaxDiscoveredLocals ≤ selected.size then
          throw (.runtimeError "active scoped-local catalogue exceeds the bounded 64-name limit")
        return selected.insert name.text candidate
      | some existing =>
        if existing.depth < depth then return selected.insert name.text candidate
        else if depth = existing.depth then
          throw (.runtimeError ("ambiguous active local name at equal lexical depth: " ++ name.text))
        else return selected

/-- `discover_scoped_local_catalogue_unit` -/
def discoverScopedLocalCatalogueUnit (ranges : List Byte) (pc : Word) :
    Except Exception (Option (List LocalDiscoveryEntry)) := do
  let unitBase ← u.compilationUnitBase
  match ← u.findPhysicalSubprogram pc ranges unitBase with
  | none => return none
  | some subprogram =>
    let selected ← (List.finRange u.size).foldlM (u.catalogueStep subprogram pc) ∅
    return some (selected.toList.map fun (name, candidate) => ⟨name, candidate.kind⟩)

end DieUnit

end MiniDebugger
