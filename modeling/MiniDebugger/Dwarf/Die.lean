import MiniDebugger.Dwarf.Reader

/-!
# Debugging information entries

`DieUnit` is one unit of `.debug_info` as `parse_unit_dies` leaves it: the entries in the order of
the section, each with the index of its parent. Offsets increase and parents come first, which is
why every walk towards the root ends.
-/

namespace MiniDebugger

def kDwTagFormalParameter : Nat := 0x05
def kDwTagLexicalBlock : Nat := 0x0b
def kDwTagInlinedSubroutine : Nat := 0x1d
def kDwTagSubprogram : Nat := 0x2e
def kDwTagVariable : Nat := 0x34

def kDwAtLocation : Nat := 0x02
def kDwAtName : Nat := 0x03
def kDwAtLowPc : Nat := 0x11
def kDwAtHighPc : Nat := 0x12
def kDwAtAbstractOrigin : Nat := 0x31
def kDwAtFrameBase : Nat := 0x40

def kDwFormAddr : Nat := 0x01
def kDwFormData4 : Nat := 0x06
def kDwFormRef4 : Nat := 0x13
def kDwFormSecOffset : Nat := 0x17
def kDwFormExprloc : Nat := 0x18
def kDwFormLoclistx : Nat := 0x22

def kMaxAbstractOriginDepth : Nat := 8

structure AttributeValue where
  name : Nat
  form : Nat
  number : Word := 0
  text : String := ""
  expression : List Byte := []
  deriving DecidableEq, Repr

structure Die where
  offset : Word
  tag : Nat
  parent : Option Nat := none
  attributes : List AttributeValue := []
  deriving DecidableEq, Repr

/-- `attribute` -/
def Die.attribute (die : Die) (name : Nat) : Option AttributeValue :=
  die.attributes.find? fun value => value.name = name

/-- A parsed unit. -/
structure DieUnit where
  dies : List Die
  version : Nat := 4
  /-- Offsets increase. -/
  ascending : dies.Pairwise (fun left right => left.offset < right.offset)
  /-- A parent comes before its children. -/
  rooted : ∀ i : Fin dies.length, ∀ p ∈ (dies.get i).parent, p < i

namespace DieUnit

abbrev size (u : DieUnit) : Nat := u.dies.length

/-- The position of an entry in the unit. -/
abbrev Index (u : DieUnit) : Type := Fin u.size

variable (u : DieUnit)

def die (i : u.Index) : Die := u.dies.get i

def parent (i : u.Index) : Option u.Index :=
  (u.die i).parent.pmap (fun p hp => ⟨p, hp⟩) fun p hp => (u.rooted i p hp).trans i.isLt

variable {u} in
theorem parent_lt {i p : u.Index} (h : u.parent i = some p) : p < i := by
  unfold parent at h
  obtain ⟨q, hbound, hq, rfl⟩ := Option.pmap_eq_some_iff.mp h
  exact u.rooted i q hq

/-- `die_index_by_offset` -/
def dieIndexByOffset (offset : Word) : Option u.Index :=
  u.dies.findFinIdx? fun die => die.offset = offset

/-- The loop of `attribute_with_abstract_origin`, with `depth` rounds left. -/
def attributeFrom (name : Nat) : Nat → u.Index → Except Exception (Option AttributeValue)
  | 0, _ => throw (.runtimeError "inlined local abstract-origin chain is too deep")
  | depth + 1, i =>
    match (u.die i).attribute name with
    | some direct => return some direct
    | none =>
      match (u.die i).attribute kDwAtAbstractOrigin with
      | none => return none
      | some origin =>
        if origin.form ≠ kDwFormRef4 then
          throw (.runtimeError "inlined local abstract origin does not use supported DW_FORM_ref4")
        else
          match u.dieIndexByOffset origin.number with
          | none =>
            throw (.runtimeError "inlined local abstract origin references an unknown DIE")
          | some next =>
            if next = i then
              throw (.runtimeError "inlined local abstract origin is self-referential")
            else attributeFrom name depth next

/-- `attribute_with_abstract_origin` -/
def attributeWithAbstractOrigin (i : u.Index) (name : Nat) :
    Except Exception (Option AttributeValue) :=
  u.attributeFrom name kMaxAbstractOriginDepth i

/-- `is_descendant_of` -/
def isDescendantOf (child ancestor : u.Index) : Bool :=
  match h : u.parent child with
  | none => false
  | some parent =>
    have := parent_lt h
    if parent = ancestor then true else isDescendantOf parent ancestor
termination_by child.val

end DieUnit

/-- `add_unsigned` -/
def addUnsigned (base offset : Word) (what : String) : Except Exception Word :=
  if 2 ^ 64 ≤ base.toNat + offset.toNat then
    throw (.runtimeError (what ++ " overflows address space"))
  else return base + offset

/-- `die_contains_pc` -/
def Die.containsPc (die : Die) (pc : Word) : Except Exception Bool :=
  match die.attribute kDwAtLowPc, die.attribute kDwAtHighPc with
  | some low, some high =>
    if low.form ≠ kDwFormAddr then return false
    else do
      let highPc ← if high.form = kDwFormAddr then pure high.number
        else addUnsigned low.number high.number "DWARF high_pc"
      return low.number ≤ pc && pc < highPc
  | _, _ => return false

/-- The entry carries a range that `active_scope_depth` supports. -/
def Die.hasRange (die : Die) : Bool :=
  match die.attribute kDwAtLowPc, die.attribute kDwAtHighPc with
  | some low, some _ => low.form = kDwFormAddr
  | _, _ => false

/-- A scope a local value can stand in. -/
def Die.isScope (die : Die) : Bool :=
  die.tag = kDwTagLexicalBlock || die.tag = kDwTagInlinedSubroutine

/-- A local value. -/
def Die.isValue (die : Die) : Bool :=
  die.tag = kDwTagVariable || die.tag = kDwTagFormalParameter

namespace DieUnit

variable (u : DieUnit)

/-- The loop of `active_scope_depth`, from the scope `scope` at depth `depth`. -/
def activeScopeDepthFrom (subprogram : u.Index) (pc : Word) (scope : u.Index) (depth : Nat) :
    Except Exception (Option Nat) :=
  if scope = subprogram then return some depth
  else if !(u.die scope).isScope then return none
  else if !(u.die scope).hasRange then
    throw (.runtimeError
      "local scope does not use the supported DW_AT_low_pc/DW_AT_high_pc range")
  else do
    if !(← (u.die scope).containsPc pc) then return none
    match h : u.parent scope with
    | none => return none
    | some parent =>
      have := parent_lt h
      activeScopeDepthFrom subprogram pc parent (depth + 1)
termination_by scope.val

/-- `active_scope_depth` -/
def activeScopeDepth (value subprogram : u.Index) (pc : Word) : Except Exception (Option Nat) :=
  match u.parent value with
  | none => return none
  | some parent => u.activeScopeDepthFrom subprogram pc parent 0

end DieUnit

end MiniDebugger
