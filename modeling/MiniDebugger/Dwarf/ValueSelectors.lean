import MiniDebugger.Dwarf.MemberValues

/-!
# Selectors

A member, an element or the pointee is selected from a value that an evaluator has returned, by the
metadata that the value carries. What a selector says of a value does not depend on the raw values
inside it: `blank` takes these away.
-/

namespace MiniDebugger

open Checks

/-! ## Selecting -/

/-- The element that `inspect_local_array_element` finds; `std::out_of_range` is a
`std::logic_error`. -/
def arrayElement (array : LocalScalarValue) (index : Nat) : Except Exception LocalArrayElement :=
  let notArray := "local value is not a materialized bounded fixed array: " ++ array.name
  match array.arrayType with
  | none => throw (.logicError notArray)
  | some arrayType => do
    if array.kind ≠ .array ∨ arrayType.elementCount = 0 ∨
        array.elements.length ≠ arrayType.elementCount ∨ arrayType.elementKind ≠ .integer then
      throw (.logicError notArray)
    match array.elements[index]? with
    | none => throw (.logicError "array index is out of range")
    | some element =>
      if element.kind ≠ .integer ∨ element.byteSize ≠ arrayType.elementByteSize ∨
          element.isSigned ≠ arrayType.elementIsSigned ∨ element.byteSize = 0 ∨
          8 < element.byteSize then
        throw (.logicError "bounded fixed-array element metadata is inconsistent")
      return element

def inspectLocalArrayElement (array : LocalScalarValue) (index : Nat) :
    Except Exception LocalScalarValue := do
  let element ← arrayElement array index
  if (2 ^ 64 - 1) / element.byteSize < index then
    throw (.runtimeError "array element byte offset overflows")
  copyStorage
    { modulePath := array.modulePath, name := array.name ++ "[" ++ toString index ++ "]"
      rawValue := element.rawValue, byteSize := element.byteSize, isSigned := element.isSigned
      kind := element.kind } array (index * element.byteSize)

/-- `union_member` -/
def unionMember (value : LocalScalarValue) (memberName : String) :
    Except Exception LocalStructMember := do
  if memberName = "" then
    throw (.invalidArgument "selected-inline union member name must not be empty")
  if value.kind ≠ .union ∨ value.members.isEmpty then
    throw (.runtimeError ("selected-inline local is not a materialized bounded union: " ++
      value.name))
  match value.members.find? fun member => member.name = memberName with
  | none =>
    throw (.runtimeError ("bounded selected-inline union has no member named: " ++ memberName))
  | some member =>
    if member.kind ≠ .integer ∨ member.pointeeType.isSome ∨ !member.members.isEmpty ∨
        member.byteSize = 0 ∨ 8 < member.byteSize then
      throw (.runtimeError
        "selected-inline union member kind is outside the bounded explicit-selection model")
    return member

def inspectLocalUnionMember (value : LocalScalarValue) (memberName : String) :
    Except Exception LocalScalarValue := do
  let member ← unionMember value memberName
  copyStorage
    { modulePath := value.modulePath, name := value.name ++ "." ++ memberName
      rawValue := member.rawValue, byteSize := member.byteSize, isSigned := member.isSigned
      kind := member.kind } value member.offset

/-- The value behind a pointer. The address fits in a host address. -/
def dereferenceMaterializedLivePointer
    (readMemory : Word → Nat → Except Exception (List Byte))
    (openElf : String → Except Exception Unit) (pointer : LocalScalarValue)
    (resultName : String) : Except Exception LocalScalarValue :=
  let notPointer := "local value is not a pointer with bounded pointee metadata: " ++ pointer.name
  match pointer.pointeeType with
  | none => throw (.runtimeError notPointer)
  | some pointee => do
    if pointer.kind ≠ .pointer then throw (.runtimeError notPointer)
    if pointer.rawValue = 0 then throw (.runtimeError "cannot dereference a null live pointer")
    if pointee.byteSize = 0 ∨ kMaxLocalStructSize < pointee.byteSize ∨ pointee.arrayType.isSome ∨
        pointee.enumType.isSome then
      throw (.runtimeError "live pointer pointee is outside the bounded dereference model")
    let bytes ← readMemory pointer.rawValue pointee.byteSize
    if bytes.length ≠ pointee.byteSize then
      throw (.runtimeError "short live pointer pointee memory read")
    if pointee.kind = .integer then
      if 8 < pointee.byteSize ∨ pointee.members ≠ [] then
        throw (.runtimeError "live pointer integer pointee has invalid bounded metadata")
      return { modulePath := pointer.modulePath, name := resultName
               rawValue := ← decodeInteger bytes 0 pointee.byteSize, byteSize := pointee.byteSize
               isSigned := pointee.isSigned }
    else if pointee.kind = .structure_ then
      openElf pointer.modulePath
      decodeStructure pointer.modulePath resultName pointee bytes
    else
      throw (.runtimeError "live pointer pointee kind is unsupported for bounded dereference")

/-! ## Values without raw values -/

def LocalStructMember.blank (member : LocalStructMember) : LocalStructMember :=
  { member with
    rawValue := 0
    members := member.members.map fun child => { child with rawValue := 0 } }

def LocalArrayElement.blank (element : LocalArrayElement) : LocalArrayElement :=
  { element with rawValue := 0 }

def LocalScalarValue.blank (value : LocalScalarValue) : LocalScalarValue :=
  { value with
    rawValue := 0
    members := value.members.map (·.blank)
    elements := value.elements.map (·.blank) }

/-- Whether a selector returns, or with which error it fails. -/
def verdict {α : Type} (x : Except Exception α) : Except Exception Unit := x.map fun _ => ()

section Blank

variable {value : LocalScalarValue} {memberName : String} {index : Nat}

theorem verdict_copyStorage (result result' owner : LocalScalarValue) (byteOffset : Nat) :
    verdict (copyStorage result owner.blank byteOffset) =
      verdict (copyStorage result' owner byteOffset) := by
  have hstorage : owner.blank.storage = owner.storage := rfl
  have hoffset : owner.blank.storageFileOffset = owner.storageFileOffset := rfl
  simp only [copyStorage, hstorage, hoffset]
  split
  · rfl
  split
  · rfl
  · rfl

/-- A selector that finds its part in a value without raw values. -/
theorem verdict_select {α : Type} {x y : Except Exception α} {blank : α → α}
    {f g : α → Except Exception LocalScalarValue} (h : y = x.map blank)
    (hpart : ∀ a, verdict (g (blank a)) = verdict (f a)) :
    verdict (y >>= g) = verdict (x >>= f) := by
  subst h
  cases x with
  | error e => rfl
  | ok a => exact hpart a

theorem verdict_bind_pure {α β : Type} (x : Except Exception α) (f : α → β) :
    verdict (do return f (← x)) = verdict x := by
  cases x <;> rfl

theorem find?_blank {members : List LocalStructMember} :
    (members.map (·.blank)).find? (fun member => member.name = memberName) =
      (members.find? fun member => member.name = memberName).map (·.blank) := by
  rw [List.find?_map]
  rfl

theorem isEmpty_blank (member : LocalStructMember) :
    member.blank.members.isEmpty = member.members.isEmpty :=
  List.isEmpty_map

theorem validateTerminalMember_blank (context : String) (member : LocalStructMember) :
    validateTerminalMember context member.blank = validateTerminalMember context member := by
  unfold validateTerminalMember
  rw [isEmpty_blank]
  rfl

theorem checkNestedChildren_blank (member : LocalStructMember) :
    member.blank.members.forM (checkNestedChild member.blank) =
      member.members.forM (checkNestedChild member) := by
  have hchildren (children : List LocalStructMember) :
      (children.map fun child => { child with rawValue := 0 }).forM
          (checkNestedChild member.blank) = children.forM (checkNestedChild member) := by
    induction children with
    | nil => rfl
    | cons child children ih => exact congrArg (checkNestedChild member child >>= fun _ => ·) ih
  exact hchildren member.members

theorem checkAggregateMember_blank (member : LocalStructMember) :
    checkAggregateMember value.blank member.blank = checkAggregateMember value member := by
  unfold checkAggregateMember
  rw [checkNestedChildren_blank, isEmpty_blank, validateTerminalMember_blank]
  rfl

theorem aggregateMember_blank : aggregateMember value.blank memberName =
    (aggregateMember value memberName).map (·.blank) := by
  have hmembers : value.blank.members = value.members.map (·.blank) := rfl
  have hkind : value.blank.kind = value.kind := rfl
  have hname : value.blank.name = value.name := rfl
  simp only [aggregateMember, hmembers, hkind, hname, find?_blank, List.isEmpty_map]
  split
  · rfl
  split
  · rfl
  cases value.members.find? fun member => member.name = memberName with
  | none => rfl
  | some member =>
    dsimp only [Option.map_some]
    rw [checkAggregateMember_blank]
    cases checkAggregateMember value member <;> rfl

theorem verdict_inspectLocalAggregateMember :
    verdict (inspectLocalAggregateMember value.blank memberName) =
      verdict (inspectLocalAggregateMember value memberName) := by
  refine verdict_select aggregateMember_blank fun member => ?_
  rw [verdict_bind_pure, verdict_bind_pure]
  exact verdict_copyStorage _ _ _ _

theorem unionMember_blank : unionMember value.blank memberName =
    (unionMember value memberName).map (·.blank) := by
  have hmembers : value.blank.members = value.members.map (·.blank) := rfl
  have hkind : value.blank.kind = value.kind := rfl
  have hname : value.blank.name = value.name := rfl
  simp only [unionMember, hmembers, hkind, hname, find?_blank, List.isEmpty_map]
  split
  · rfl
  split
  · rfl
  cases value.members.find? fun member => member.name = memberName with
  | none => rfl
  | some member =>
    dsimp only [Option.map_some]
    rw [isEmpty_blank, apply_ite (Except.map LocalStructMember.blank)]
    rfl

theorem verdict_inspectLocalUnionMember :
    verdict (inspectLocalUnionMember value.blank memberName) =
      verdict (inspectLocalUnionMember value memberName) :=
  verdict_select unionMember_blank fun _ => verdict_copyStorage _ _ _ _

theorem arrayElement_blank : arrayElement value.blank index =
    (arrayElement value index).map (·.blank) := by
  have helements : value.blank.elements = value.elements.map (·.blank) := rfl
  have harray : value.blank.arrayType = value.arrayType := rfl
  have hkind : value.blank.kind = value.kind := rfl
  have hname : value.blank.name = value.name := rfl
  simp only [arrayElement, helements, harray, hkind, hname, List.length_map, List.getElem?_map]
  cases value.arrayType with
  | none => rfl
  | some arrayType =>
    dsimp only
    split
    · rfl
    cases value.elements[index]? with
    | none => rfl
    | some element =>
      dsimp only [Option.map_some]
      rw [apply_ite (Except.map LocalArrayElement.blank)]
      rfl

theorem verdict_inspectLocalArrayElement :
    verdict (inspectLocalArrayElement value.blank index) =
      verdict (inspectLocalArrayElement value index) := by
  refine verdict_select arrayElement_blank fun element => ?_
  have hsize : element.blank.byteSize = element.byteSize := rfl
  rw [hsize]
  split
  · rfl
  · exact verdict_copyStorage _ _ _ _

end Blank

end MiniDebugger
