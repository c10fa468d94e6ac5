import MiniDebugger.Dwarf.Die

/-!
# The types of local values

A local value is read by a bounded description of its type. The resolvers build one from the
entries of a unit: each follows typedefs and `const` to the entry that decides, checks its
attributes, and gives up on anything outside the model it was written for.

Most resolvers are one loop over wrappers (`unwrap`) followed by one loop over direct children
(`collectChildren`); they differ in the checks they make and in the texts of their errors.
-/

namespace MiniDebugger

def kDwTagArrayType : Nat := 0x01
def kDwTagEnumerationType : Nat := 0x04
def kDwTagMember : Nat := 0x0d
def kDwTagPointerType : Nat := 0x0f
def kDwTagStructureType : Nat := 0x13
def kDwTagTypedef : Nat := 0x16
def kDwTagUnionType : Nat := 0x17
def kDwTagSubrangeType : Nat := 0x21
def kDwTagBaseType : Nat := 0x24
def kDwTagConstType : Nat := 0x26
def kDwTagEnumerator : Nat := 0x28

def kDwAtByteSize : Nat := 0x0b
def kDwAtBitOffset : Nat := 0x0c
def kDwAtBitSize : Nat := 0x0d
def kDwAtConstValue : Nat := 0x1c
def kDwAtLowerBound : Nat := 0x22
def kDwAtUpperBound : Nat := 0x2f
def kDwAtCount : Nat := 0x37
def kDwAtDataMemberLocation : Nat := 0x38
def kDwAtEncoding : Nat := 0x3e
def kDwAtType : Nat := 0x49
def kDwAtDataBitOffset : Nat := 0x6b

def kDwFormData2 : Nat := 0x05
def kDwFormData8 : Nat := 0x07
def kDwFormData1 : Nat := 0x0b
def kDwFormSdata : Nat := 0x0d
def kDwFormUdata : Nat := 0x0f
def kDwFormImplicitConst : Nat := 0x21

def kSnapshotDwAteFloat : Word := 0x04
def kDwAteSigned : Word := 0x05
def kDwAteUnsigned : Word := 0x07

def kMaxLocalStructSize : Nat := 256
def kMaxLocalStructMembers : Nat := 32
def kMaxLocalArrayElements : Nat := 64
def kMaxLocalEnumEntries : Nat := 64

inductive LocalValueKind where
  | integer | pointer | floating | structure_ | union | array | enumeration
  deriving DecidableEq, Repr

structure LocalPointerPointeeMemberType where
  name : String
  offset : Nat
  byteSize : Nat
  isSigned : Bool
  kind : LocalValueKind := .integer
  deriving DecidableEq, Repr

structure LocalPointerPointeeType where
  byteSize : Nat
  isSigned : Bool
  kind : LocalValueKind := .integer
  members : List LocalPointerPointeeMemberType := []
  deriving DecidableEq, Repr

structure LocalBitSlice where
  bitOffset : Nat
  bitSize : Nat
  deriving DecidableEq, Repr

structure LocalEnumEntry where
  name : String
  rawValue : Word
  deriving DecidableEq, Repr

structure LocalEnumType where
  name : String
  byteSize : Nat
  isSigned : Bool
  enumerators : List LocalEnumEntry := []
  deriving DecidableEq, Repr

structure LocalArrayType where
  elementCount : Nat
  elementByteSize : Nat
  elementIsSigned : Bool
  elementKind : LocalValueKind := .integer
  deriving DecidableEq, Repr

structure LocalStructMemberType where
  name : String
  offset : Nat
  byteSize : Nat
  isSigned : Bool
  kind : LocalValueKind := .integer
  pointeeType : Option LocalPointerPointeeType := none
  bitSlice : Option LocalBitSlice := none
  enumType : Option LocalEnumType := none
  members : List LocalStructMemberType := []
  deriving Repr

structure LocalValueType where
  byteSize : Nat
  isSigned : Bool
  kind : LocalValueKind := .integer
  members : List LocalStructMemberType := []
  arrayType : Option LocalArrayType := none
  enumType : Option LocalEnumType := none
  deriving Repr

structure IntegerType where
  byteSize : Nat
  isSigned : Bool
  deriving DecidableEq, Repr

/-- `bounded_enum_constant_form`; `is_bounded_array_bound_form` is the same test. -/
def boundedEnumConstantForm (form : Nat) : Bool :=
  form = kDwFormData1 || form = kDwFormData2 || form = kDwFormData4 || form = kDwFormData8 ||
    form = kDwFormUdata || form = kDwFormImplicitConst

def isBoundedArrayBoundForm (form : Nat) : Bool := boundedEnumConstantForm form

def isConstantMemberOffsetForm (form : Nat) : Bool :=
  form = kDwFormData1 || form = kDwFormData2 || form = kDwFormData4 || form = kDwFormData8 ||
    form = kDwFormSdata

namespace Die

def isWrapper (die : Die) : Bool := die.tag = kDwTagTypedef || die.tag = kDwTagConstType

/-- The target of a `DW_AT_type` in the form every resolver asks for. -/
def typeReference (die : Die) : Option Word :=
  match die.attribute kDwAtType with
  | some type => if type.form = kDwFormRef4 then some type.number else none
  | none => none

/-- A name that is not empty. -/
def memberName (die : Die) : Option String :=
  match die.attribute kDwAtName with
  | some name => if name.text = "" then none else some name.text
  | none => none

/-- A `DW_AT_data_member_location` with a constant. -/
def constantMemberOffset (die : Die) : Option Nat :=
  match die.attribute kDwAtDataMemberLocation with
  | some offset =>
    if isConstantMemberOffsetForm offset.form then some offset.number.toNat else none
  | none => none

/-- A size that is neither zero nor above `limit`. -/
def boundedSize (die : Die) (limit : Nat) : Option Nat :=
  match die.attribute kDwAtByteSize with
  | some size =>
    if size.number = 0 ∨ limit < size.number.toNat then none else some size.number.toNat
  | none => none

def isBitField (die : Die) : Bool :=
  (die.attribute kDwAtBitSize).isSome || (die.attribute kDwAtBitOffset).isSome ||
    (die.attribute kDwAtDataBitOffset).isSome

def pointerSize (die : Die) : Nat :=
  match die.attribute kDwAtByteSize with
  | some size => size.number.toNat
  | none => 8

end Die

/-- The errors of a loop over wrappers. -/
structure WrapperTexts where
  unknown : String
  wrapper : String
  deep : String

namespace DieUnit

variable (u : DieUnit)

/-- The loop over wrappers, with `depth` rounds left. -/
def unwrapFrom (texts : WrapperTexts) : Nat → Word → Except Exception u.Index
  | 0, _ => throw (.runtimeError texts.deep)
  | depth + 1, offset =>
    match u.dieIndexByOffset offset with
    | none => throw (.runtimeError texts.unknown)
    | some i =>
      if (u.die i).isWrapper then
        match (u.die i).typeReference with
        | none => throw (.runtimeError texts.wrapper)
        | some wrapped => unwrapFrom texts depth wrapped
      else return i

/-- The entry a type offset stands for once typedefs and `const` are gone. -/
def unwrap (texts : WrapperTexts) (offset : Word) : Except Exception u.Index :=
  u.unwrapFrom texts 16 offset

def children (i : u.Index) : List u.Index :=
  (List.finRange u.size).filter fun child => u.parent child = some i

/-- The loop of a resolver over the direct children of an entry. -/
def collectChildren {α : Type} (i : u.Index) (tag limit : Nat) (wrongTag tooMany : String)
    (resolve : List α → Die → Except Exception α) : Except Exception (List α) :=
  (u.children i).foldlM (fun found child => do
    if (u.die child).tag ≠ tag then throw (.runtimeError wrongTag)
    if limit ≤ found.length then throw (.runtimeError tooMany)
    return found ++ [← resolve found (u.die child)]) []

def resolveIntegerType (offset : Word) : Except Exception IntegerType := do
  let i ← u.unwrap ⟨"local variable type references an unknown DIE",
    "local type wrapper does not use the supported DW_FORM_ref4 type link",
    "local variable typedef/const chain is too deep"⟩ offset
  let die := u.die i
  if die.tag ≠ kDwTagBaseType then
    throw (.runtimeError "local variable type is not a supported typedef/const/base-type chain")
  match die.boundedSize 8, die.attribute kDwAtEncoding with
  | some byteSize, some encoding =>
    if encoding.number ≠ kDwAteSigned ∧ encoding.number ≠ kDwAteUnsigned then
      throw (.runtimeError "local base type is not a supported signed/unsigned integer")
    return ⟨byteSize, encoding.number = kDwAteSigned⟩
  | _, _ => throw (.runtimeError "local integer base type has an unsupported byte size")

/-! ## Enumerations -/

def boundedEnumRawValue (value : Word) (byteSize : Nat) : Except Exception Word :=
  if byteSize = 0 ∨ 8 < byteSize then
    throw (.logicError "bounded enum scalar width is out of range")
  else if byteSize = 8 then return value
  else return value &&& ((1#64 <<< (byteSize * 8)) - 1#64)

/-- The signedness `resolve_bounded_enum_type` finds, from the encoding or the underlying type. -/
def boundedEnumIsSigned (die : Die) (byteSize : Nat) : Except Exception Bool :=
  match die.attribute kDwAtEncoding with
  | some encoding => do
    if encoding.number ≠ kDwAteSigned ∧ encoding.number ≠ kDwAteUnsigned then
      throw (.runtimeError "bounded enum direct encoding is not signed/unsigned integer")
    let isSigned := decide (encoding.number = kDwAteSigned)
    match die.attribute kDwAtType with
    | none => return isSigned
    | some underlyingRef =>
      if underlyingRef.form ≠ kDwFormRef4 then
        throw (.runtimeError "bounded enum underlying type does not use DW_FORM_ref4")
      let underlying ← u.resolveIntegerType underlyingRef.number
      if underlying.byteSize ≠ byteSize ∨ underlying.isSigned ≠ isSigned then
        throw (.runtimeError "bounded enum direct and underlying representations disagree")
      return isSigned
  | none =>
    match die.typeReference with
    | none =>
      throw (.runtimeError "bounded enum has no compiler-described integer representation")
    | some underlyingRef => do
      let underlying ← u.resolveIntegerType underlyingRef
      if underlying.byteSize ≠ byteSize then
        throw (.runtimeError "bounded enum byte size disagrees with its underlying type")
      return underlying.isSigned

/-- One enumerator, after those found before it. -/
def boundedEnumEntry (byteSize : Nat) (isSigned : Bool) (found : List LocalEnumEntry)
    (die : Die) : Except Exception LocalEnumEntry := do
  match die.memberName with
  | none => throw (.runtimeError "bounded enumerator has no supported name")
  | some name =>
    match die.attribute kDwAtConstValue with
    | none => throw (.runtimeError "bounded enumerator has no supported constant value")
    | some constant =>
      if !boundedEnumConstantForm constant.form then
        throw (.runtimeError "bounded enumerator has no supported constant value")
      let raw ← boundedEnumRawValue constant.number byteSize
      if !isSigned ∧ raw ≠ constant.number then
        throw (.runtimeError "bounded unsigned enumerator exceeds enum storage width")
      if found.any fun existing => existing.name = name then
        throw (.runtimeError "bounded enum has duplicate enumerator names")
      return ⟨name, raw⟩

/-- `none` where the type is not an enumeration. -/
def resolveBoundedEnumType (offset : Word) : Except Exception (Option LocalEnumType) := do
  let i ← u.unwrap ⟨"bounded enum type references an unknown DIE",
    "bounded enum wrapper does not use DW_FORM_ref4",
    "bounded enum type chain is too deep"⟩ offset
  let die := u.die i
  if die.tag ≠ kDwTagEnumerationType then return none
  match die.memberName with
  | none => throw (.runtimeError "bounded enum has no supported name")
  | some name =>
    match die.boundedSize 8 with
    | none => throw (.runtimeError "bounded enum has an unsupported scalar byte size")
    | some byteSize =>
      let isSigned ← u.boundedEnumIsSigned die byteSize
      let enumerators ← u.collectChildren i kDwTagEnumerator kMaxLocalEnumEntries
        "bounded enum has an unsupported direct child DIE"
        "bounded enum exceeds the 64-entry table" (boundedEnumEntry byteSize isSigned)
      if enumerators.isEmpty then
        throw (.runtimeError "bounded enum has no direct enumerators")
      return some ⟨name, byteSize, isSigned, enumerators⟩

/-! ## Bit-fields -/

/-- The position of a bit-field counted from the first bit of the structure. -/
def absoluteBitOffset (member : Die) (integer : IntegerType) (structSize width : Nat) :
    Except Exception Nat :=
  match member.attribute kDwAtDataBitOffset with
  | some dataBitOffset =>
    if (member.attribute kDwAtDataMemberLocation).isSome ∨
        !isConstantMemberOffsetForm dataBitOffset.form then
      throw (.runtimeError "structure DW_AT_data_bit_offset is unsupported")
    else return dataBitOffset.number.toNat
  | none =>
    match member.constantMemberOffset, member.attribute kDwAtBitOffset with
    | some byteOffset, some bitOffset => do
      if !isConstantMemberOffsetForm bitOffset.form ∨ structSize < byteOffset then
        throw (.runtimeError "structure legacy bit-field has unsupported storage offset")
      let storageBits := integer.byteSize * 8
      if storageBits < bitOffset.number.toNat ∨ storageBits - bitOffset.number.toNat < width then
        throw (.runtimeError "structure legacy bit-field exceeds its base storage unit")
      return byteOffset * 8 + (storageBits - bitOffset.number.toNat - width)
    | _, _ => throw (.runtimeError "structure legacy bit-field has unsupported storage offset")

def resolveBoundedBitSlice (member : Die) (integer : IntegerType) (structSize : Nat) :
    Except Exception (Option LocalBitSlice) :=
  match member.attribute kDwAtBitSize with
  | none =>
    if (member.attribute kDwAtBitOffset).isSome ∨ (member.attribute kDwAtDataBitOffset).isSome then
      throw (.runtimeError "structure member has compiler bit location without bit size")
    else return none
  | some bitSize => do
    if !isConstantMemberOffsetForm bitSize.form ∨ bitSize.number = 0 ∨
        integer.byteSize * 8 < bitSize.number.toNat then
      throw (.runtimeError "structure bit-field has unsupported compiler width")
    if (member.attribute kDwAtBitOffset).isSome = (member.attribute kDwAtDataBitOffset).isSome then
      throw (.runtimeError "structure bit-field requires exactly one compiler bit location")
    let width := bitSize.number.toNat
    let bitOffset ← absoluteBitOffset member integer structSize width
    let aggregateBits := structSize * 8
    if aggregateBits < bitOffset ∨ aggregateBits - bitOffset < width then
      throw (.runtimeError "structure bit-field exceeds aggregate storage")
    return some ⟨bitOffset, width⟩

/-- `none` where the member is not a bit-field. -/
def resolveBoundedBitFieldMemberType (member : Die) (structSize : Nat) :
    Except Exception (Option LocalStructMemberType) := do
  if !member.isBitField then return none
  match member.memberName with
  | none => throw (.runtimeError "structure bit-field has no supported name")
  | some name =>
    match member.typeReference with
    | none => throw (.runtimeError "structure bit-field has no supported DW_FORM_ref4 type")
    | some type =>
      let integer ← u.resolveIntegerType type
      match ← resolveBoundedBitSlice member integer structSize with
      | none => throw (.logicError "bit-field member lost compiler bit-slice metadata")
      | some slice =>
        return some { name, offset := slice.bitOffset / 8, byteSize := integer.byteSize,
                      isSigned := integer.isSigned, bitSlice := some slice }

/-! ## Unions and arrays -/

def resolveBoundedUnionMemberType (member : Die) (unionSize : Nat) :
    Except Exception LocalStructMemberType := do
  match member.memberName with
  | none => throw (.runtimeError "bounded union member has no supported name")
  | some name =>
    match member.typeReference with
    | none => throw (.runtimeError "bounded union member has no supported DW_FORM_ref4 type")
    | some type =>
      if (member.attribute kDwAtDataMemberLocation).isSome ∧
          member.constantMemberOffset ≠ some 0 then
        throw (.runtimeError "bounded union member does not share storage at offset zero")
      let i ← u.unwrap ⟨"bounded union member type references an unknown DIE",
        "bounded union member wrapper does not use DW_FORM_ref4",
        "bounded union member type chain is too deep"⟩ type
      if (u.die i).tag ≠ kDwTagBaseType then
        throw (.runtimeError "bounded union member is not a bounded integer scalar")
      let integer ← u.resolveIntegerType (u.die i).offset
      if integer.byteSize = 0 ∨ 8 < integer.byteSize ∨ unionSize < integer.byteSize then
        throw (.runtimeError "bounded union integer member exceeds shared storage")
      return { name, offset := 0, byteSize := integer.byteSize, isSigned := integer.isSigned }

/-- A member whose name none of those before it has. -/
def freshMember (duplicate : String) (found : List LocalStructMemberType)
    (member : LocalStructMemberType) : Except Exception LocalStructMemberType :=
  if found.any fun existing => existing.name = member.name then throw (.runtimeError duplicate)
  else return member

/-- `none` where the type is not a union. -/
def resolveBoundedUnionType (offset : Word) : Except Exception (Option LocalValueType) := do
  let i ← u.unwrap ⟨"bounded union type references an unknown DIE",
    "bounded union wrapper does not use DW_FORM_ref4",
    "bounded union type chain is too deep"⟩ offset
  let die := u.die i
  if die.tag ≠ kDwTagUnionType then return none
  match die.boundedSize kMaxLocalStructSize with
  | none => throw (.runtimeError "bounded union has an unsupported byte size")
  | some unionSize =>
    let members ← u.collectChildren i kDwTagMember kMaxLocalStructMembers
      "bounded union has an unsupported direct child DIE"
      "bounded union has too many direct members" fun found member => do
        freshMember "bounded union has duplicate member names" found
          (← u.resolveBoundedUnionMemberType member unionSize)
    if members.isEmpty then
      throw (.runtimeError "bounded union has no supported direct members")
    return some { byteSize := unionSize, isSigned := false, kind := .union, members }

/-- The one direct child of an array type, which is its subrange. -/
def arraySubrange (i : u.Index) : Except Exception u.Index := do
  let subrange ← (u.children i).foldlM (fun subrange child => do
    if (u.die child).tag ≠ kDwTagSubrangeType ∨ subrange.isSome then
      throw (.runtimeError "fixed array requires exactly one direct subrange")
    return some child) none
  match subrange with
  | none => throw (.runtimeError "fixed array has no direct subrange")
  | some subrange => return subrange

/-- How many elements a subrange declares, from its count or its upper bound. -/
def declaredElementCount (range : Die) : Except Exception Word := do
  if let some lower := range.attribute kDwAtLowerBound then
    if !isBoundedArrayBoundForm lower.form ∨ lower.number ≠ 0 then
      throw (.runtimeError "fixed array requires a zero lower bound")
  if let some count := range.attribute kDwAtCount then
    if !isBoundedArrayBoundForm count.form then
      throw (.runtimeError "fixed-array count has an unsupported form")
  if let some upper := range.attribute kDwAtUpperBound then
    if !isBoundedArrayBoundForm upper.form then
      throw (.runtimeError "fixed-array upper bound has an unsupported form")
  match range.attribute kDwAtCount, range.attribute kDwAtUpperBound with
  | some count, some upper =>
    if upper.number = BitVec.allOnes 64 ∨ upper.number + 1 ≠ count.number then
      throw (.runtimeError "fixed-array count conflicts with upper bound")
    return count.number
  | some count, none => return count.number
  | none, some upper =>
    if upper.number = BitVec.allOnes 64 then
      throw (.runtimeError "fixed-array upper bound overflows element count")
    return upper.number + 1
  | none, none => throw (.runtimeError "fixed array has no bounded element count")

/-- `none` where the type is not an array. -/
def resolveBoundedFixedArrayType (offset : Word) : Except Exception (Option LocalValueType) := do
  let i ← u.unwrap ⟨"fixed-array type references an unknown DIE",
    "fixed-array wrapper does not use DW_FORM_ref4",
    "fixed-array type chain is too deep"⟩ offset
  let die := u.die i
  if die.tag ≠ kDwTagArrayType then return none
  match die.typeReference with
  | none => throw (.runtimeError "fixed array has no supported element type")
  | some elementRef =>
    let element ← u.resolveIntegerType elementRef
    let subrange ← u.arraySubrange i
    let elementCount := (← declaredElementCount (u.die subrange)).toNat
    if elementCount = 0 ∨ kMaxLocalArrayElements < elementCount then
      throw (.runtimeError "fixed-array count exceeds the bounded 64-element model")
    if element.byteSize = 0 ∨ 8 < element.byteSize ∨
        kMaxLocalStructSize / element.byteSize < elementCount then
      throw (.runtimeError "fixed-array storage exceeds the bounded scalar-array model")
    let byteSize := elementCount * element.byteSize
    if let some declaredSize := die.attribute kDwAtByteSize then
      if declaredSize.number.toNat ≠ byteSize then
        throw (.runtimeError "fixed-array byte size conflicts with its element layout")
    return some { byteSize, isSigned := false, kind := .array
                  arrayType := some ⟨elementCount, element.byteSize, element.isSigned, .integer⟩ }

/-! ## Members of structures -/

/-- One member of a nested structure, after those found before it. -/
def nestedTerminal (nestedSize : Nat) (found : List LocalStructMemberType) (terminal : Die) :
    Except Exception LocalStructMemberType := do
  if terminal.isBitField then
    throw (.runtimeError "nested structure terminal bit-fields are unsupported")
  match terminal.memberName with
  | none => throw (.runtimeError "nested structure terminal has no supported name")
  | some name =>
    match terminal.typeReference with
    | none => throw (.runtimeError "nested structure terminal has no supported DW_FORM_ref4 type")
    | some type =>
      match terminal.constantMemberOffset with
      | none => throw (.runtimeError "nested structure terminal has no supported constant offset")
      | some offset =>
        let integer ← u.resolveIntegerType type
        if nestedSize < offset ∨ nestedSize - offset < integer.byteSize then
          throw (.runtimeError "nested structure terminal exceeds inner storage")
        freshMember "nested structure has duplicate terminal member names" found
          { name, offset, byteSize := integer.byteSize, isSigned := integer.isSigned }

/-- `none` where the member is not a structure. -/
def resolveBoundedNestedStructureMemberType (member : Die) (outerSize : Nat) :
    Except Exception (Option LocalStructMemberType) := do
  match member.typeReference with
  | none => return none
  | some type =>
    let i ← u.unwrap ⟨"nested structure member type references an unknown DIE",
      "nested structure member wrapper does not use DW_FORM_ref4",
      "nested structure member type chain is too deep"⟩ type
    if (u.die i).tag ≠ kDwTagStructureType then return none
    match member.memberName with
    | none => throw (.runtimeError "nested structure member has no supported name")
    | some name =>
      match member.constantMemberOffset with
      | none => throw (.runtimeError "nested structure member has no supported constant offset")
      | some offset =>
        match (u.die i).boundedSize kMaxLocalStructSize with
        | none => throw (.runtimeError "nested structure has an unsupported byte size")
        | some nestedSize =>
          if outerSize < offset ∨ outerSize - offset < nestedSize then
            throw (.runtimeError "nested structure exceeds outer aggregate storage")
          let members ← u.collectChildren i kDwTagMember kMaxLocalStructMembers
            "nested structure has an unsupported direct child DIE"
            "nested structure has too many direct members" (u.nestedTerminal nestedSize)
          if members.isEmpty then
            throw (.runtimeError "nested structure has no bounded terminal scalar members")
          return some { name, offset, byteSize := nestedSize, isSigned := false,
                        kind := .structure_, members }

/-- One member of a structure that a pointer member points to. -/
def pointeeMember (structSize : Nat) (member : Die) :
    Except Exception LocalPointerPointeeMemberType := do
  match member.memberName, member.typeReference, member.constantMemberOffset with
  | some name, some type, some offset =>
    let integer ← u.resolveIntegerType type
    if integer.byteSize = 0 ∨ 8 < integer.byteSize ∨ structSize < offset ∨
        structSize - offset < integer.byteSize then
      throw (.runtimeError
        "bounded pointer-member structure pointee member exceeds storage")
    return { name, offset, byteSize := integer.byteSize, isSigned := integer.isSigned }
  | _, _, _ =>
    throw (.runtimeError
      "bounded pointer-member structure pointee has unsupported member metadata")

def resolveBoundedPointerMemberPointeeType (offset : Word) :
    Except Exception LocalPointerPointeeType := do
  let i ← u.unwrap ⟨"bounded pointer-member pointee type references an unknown DIE",
    "bounded pointer-member pointee wrapper does not use DW_FORM_ref4",
    "bounded pointer-member pointee type chain is too deep"⟩ offset
  let die := u.die i
  if die.tag ≠ kDwTagStructureType then
    let integer ← u.resolveIntegerType die.offset
    return { byteSize := integer.byteSize, isSigned := integer.isSigned }
  match die.boundedSize kMaxLocalStructSize with
  | none =>
    throw (.runtimeError
      "bounded pointer-member structure pointee has an unsupported byte size")
  | some structSize =>
    let members ← u.collectChildren i kDwTagMember kMaxLocalStructMembers
      "bounded pointer-member structure pointee has an unsupported direct child"
      "bounded pointer-member structure pointee has too many members"
      fun _ => u.pointeeMember structSize
    if members.isEmpty then
      throw (.runtimeError
        "bounded pointer-member structure pointee has no direct integer members")
    return { byteSize := structSize, isSigned := false, kind := .structure_, members }

/-- The type of a direct member of a structure, once its wrappers are gone. -/
def directMemberOfType (name : String) (offset structSize : Nat) (i : u.Index) :
    Except Exception LocalStructMemberType := do
  let die := u.die i
  if die.tag = kDwTagPointerType then
    if die.pointerSize ≠ 8 then
      throw (.runtimeError "bounded direct pointer member has an unsupported byte size")
    match die.typeReference with
    | none => throw (.runtimeError "bounded direct pointer member has no supported pointee type")
    | some pointee =>
      let pointeeType ← u.resolveBoundedPointerMemberPointeeType pointee
      if structSize < offset ∨ structSize - offset < die.pointerSize then
        throw (.runtimeError "bounded direct pointer member exceeds aggregate storage")
      return { name, offset, byteSize := die.pointerSize, isSigned := false, kind := .pointer
               pointeeType := some pointeeType }
  else
    match ← u.resolveBoundedEnumType die.offset with
    | some enumType =>
      if structSize < offset ∨ structSize - offset < enumType.byteSize then
        throw (.runtimeError "bounded direct enum member exceeds aggregate storage")
      return { name, offset, byteSize := enumType.byteSize, isSigned := enumType.isSigned
               kind := .enumeration, enumType := some enumType }
    | none =>
      let integer ← u.resolveIntegerType die.offset
      if structSize < offset ∨ structSize - offset < integer.byteSize then
        throw (.runtimeError "bounded direct integer member exceeds aggregate storage")
      return { name, offset, byteSize := integer.byteSize, isSigned := integer.isSigned }

def resolveBoundedDirectStructureMemberType (member : Die) (structSize : Nat) :
    Except Exception LocalStructMemberType := do
  match member.memberName with
  | none => throw (.runtimeError "bounded direct structure member has no supported name")
  | some name =>
    match member.typeReference with
    | none =>
      throw (.runtimeError "bounded direct structure member has no supported DW_FORM_ref4 type")
    | some type =>
      match member.constantMemberOffset with
      | none =>
        throw (.runtimeError "bounded direct structure member has no supported constant offset")
      | some offset =>
        let i ← u.unwrap ⟨"bounded direct structure member type references an unknown DIE",
          "bounded direct structure member wrapper does not use DW_FORM_ref4",
          "bounded direct structure member type chain is too deep"⟩ type
        u.directMemberOfType name offset structSize i

/-! ## Root types -/

/-- One member of a structure local: a bit-field, a nested structure, or anything else. -/
def rootMember (structSize : Nat) (member : Die) : Except Exception LocalStructMemberType := do
  match ← u.resolveBoundedBitFieldMemberType member structSize with
  | some bitField => return bitField
  | none =>
    match ← u.resolveBoundedNestedStructureMemberType member structSize with
    | some nested => return nested
    | none => u.resolveBoundedDirectStructureMemberType member structSize

def rootStructureType (i : u.Index) : Except Exception LocalValueType := do
  match (u.die i).boundedSize kMaxLocalStructSize with
  | none => throw (.runtimeError "local struct has an unsupported byte size")
  | some structSize =>
    let members ← u.collectChildren i kDwTagMember kMaxLocalStructMembers
      "local struct has an unsupported direct child DIE" "local struct has too many direct members"
      fun _ => u.rootMember structSize
    if members.isEmpty then
      throw (.runtimeError "local struct has no supported direct members")
    return { byteSize := structSize, isSigned := false, kind := .structure_, members }

/-- `resolve_value_type`, once the wrappers are gone. -/
def valueTypeOf (i : u.Index) : Except Exception LocalValueType := do
  let die := u.die i
  if die.tag = kDwTagEnumerationType then
    match ← u.resolveBoundedEnumType die.offset with
    | none => throw (.logicError "enumeration DIE did not resolve as a bounded enum")
    | some enumType =>
      return { byteSize := enumType.byteSize, isSigned := enumType.isSigned, kind := .enumeration
               enumType := some enumType }
  else if die.tag = kDwTagUnionType then
    match ← u.resolveBoundedUnionType die.offset with
    | none => throw (.logicError "union DIE did not resolve as a bounded union")
    | some union => return union
  else if die.tag = kDwTagArrayType then
    match ← u.resolveBoundedFixedArrayType die.offset with
    | none => throw (.logicError "array DIE did not resolve as a bounded fixed array")
    | some array => return array
  else if die.tag = kDwTagPointerType then
    if die.pointerSize ≠ 8 then
      throw (.runtimeError "local pointer type has an unsupported byte size")
    match die.typeReference with
    | none => throw (.runtimeError "local pointer type has no supported DW_FORM_ref4 pointee")
    | some pointee =>
      let _ ← u.resolveIntegerType pointee
      return { byteSize := die.pointerSize, isSigned := false, kind := .pointer }
  else if die.tag = kDwTagBaseType then
    let integer ← u.resolveIntegerType die.offset
    return { byteSize := integer.byteSize, isSigned := integer.isSigned }
  else if die.tag = kDwTagStructureType then u.rootStructureType i
  else
    throw (.runtimeError ("local variable type is not a supported " ++
      "typedef/const/base-type/pointer/structure/array/union/enumeration chain"))

def resolveValueType (offset : Word) : Except Exception LocalValueType := do
  let i ← u.unwrap ⟨"local variable type references an unknown DIE",
    "local type wrapper does not use the supported DW_FORM_ref4 type link",
    "local variable type chain is too deep"⟩ offset
  u.valueTypeOf i

/-- `none` where the type is not a floating-point base type. -/
def resolveSnapshotFloatingType (offset : Word) : Except Exception (Option LocalValueType) := do
  let i ← u.unwrap ⟨"snapshot local value type references an unknown DIE",
    "snapshot floating type wrapper does not use DW_FORM_ref4",
    "snapshot floating type chain is too deep"⟩ offset
  let die := u.die i
  if die.tag ≠ kDwTagBaseType then return none
  match die.attribute kDwAtEncoding with
  | none => return none
  | some encoding =>
    if encoding.number ≠ kSnapshotDwAteFloat then return none
    match die.attribute kDwAtByteSize with
    | none =>
      throw (.runtimeError
        "snapshot floating base type must be a compiler-proven 4/8-byte scalar")
    | some size =>
      if size.number ≠ 4 ∧ size.number ≠ 8 then
        throw (.runtimeError
          "snapshot floating base type must be a compiler-proven 4/8-byte scalar")
      return some { byteSize := size.number.toNat, isSigned := false, kind := .floating }

def resolveSnapshotStructurePointeeType (offset : Word) : Except Exception LocalValueType := do
  let i ← u.unwrap ⟨"snapshot structure pointee references an unknown DIE",
    "snapshot structure pointee wrapper does not use DW_FORM_ref4",
    "snapshot structure pointee type chain is too deep"⟩ offset
  if (u.die i).tag ≠ kDwTagStructureType then
    throw (.runtimeError "snapshot pointer pointee is not a bounded integer or structure type")
  match (u.die i).boundedSize kMaxLocalStructSize with
  | none => throw (.runtimeError "snapshot structure pointee has an unsupported byte size")
  | some structSize =>
    let members ← u.collectChildren i kDwTagMember kMaxLocalStructMembers
      "snapshot structure pointee has an unsupported direct child DIE"
      "snapshot structure pointee has too many direct members" fun found member => do
        freshMember "snapshot structure pointee has duplicate member names" found
          (← u.resolveBoundedDirectStructureMemberType member structSize)
    if members.isEmpty then
      throw (.runtimeError "snapshot structure pointee has no supported direct members")
    return { byteSize := structSize, isSigned := false, kind := .structure_, members }

/-- The pointee of a pointer local; `none` where the type is not a pointer. -/
def resolvePointerPointeeType (offset : Word) : Except Exception (Option LocalValueType) := do
  let i ← u.unwrap ⟨"snapshot pointer type references an unknown DIE",
    "snapshot pointer type wrapper does not use DW_FORM_ref4",
    "snapshot pointer type chain is too deep"⟩ offset
  if (u.die i).tag ≠ kDwTagPointerType then return none
  if (u.die i).pointerSize ≠ 8 then
    throw (.runtimeError "snapshot pointer type has an unsupported byte size")
  match (u.die i).typeReference with
  | none => throw (.runtimeError "snapshot pointer has no supported DW_FORM_ref4 pointee")
  | some pointee =>
    let j ← u.unwrap ⟨"snapshot pointer pointee references an unknown DIE",
      "snapshot pointer pointee wrapper does not use DW_FORM_ref4",
      "snapshot pointer pointee type chain is too deep"⟩ pointee
    if (u.die j).tag = kDwTagBaseType then
      let integer ← u.resolveIntegerType (u.die j).offset
      return some { byteSize := integer.byteSize, isSigned := integer.isSigned }
    else if (u.die j).tag = kDwTagStructureType then
      return some (← u.resolveSnapshotStructurePointeeType (u.die j).offset)
    else
      throw (.runtimeError "snapshot pointer pointee is not a bounded integer or structure type")

end DieUnit

structure BoundedRootTypeResolution where
  valueType : LocalValueType
  pointeeType : Option LocalValueType := none
  deriving Repr

def DieUnit.resolveBoundedRootValueType (u : DieUnit) (offset : Word) :
    Except Exception BoundedRootTypeResolution := do
  match ← u.resolveSnapshotFloatingType offset with
  | some floating => return ⟨floating, none⟩
  | none =>
    match ← u.resolvePointerPointeeType offset with
    | some pointeeType =>
      return ⟨{ byteSize := 8, isSigned := false, kind := .pointer }, some pointeeType⟩
    | none => return ⟨← u.resolveValueType offset, none⟩

end MiniDebugger
