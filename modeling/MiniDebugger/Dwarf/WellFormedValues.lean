import MiniDebugger.Dwarf.CoreValues
import MiniDebugger.Dwarf.ValueSelectors

/-!
# Inspected values

Four evaluators return the value of a local: for the innermost frame of a tracee, for the frames of
its callers, for the frames of a core and for an inlined call in one. A value is well formed if its
metadata is that of its type, and selectable if every selector says of it what it says of a value
with that metadata.
-/

namespace MiniDebugger

open Checks

/-! ## Metadata -/

/-- A member of a value for a member of its type. -/
structure LocalStructMember.OfType (type : LocalStructMemberType) (member : LocalStructMember) :
    Prop where
  name : member.name = type.name
  offset : member.offset = type.offset
  byteSize : member.byteSize = type.byteSize
  kind : member.kind = type.kind
  pointeeType : member.pointeeType = type.pointeeType
  bitSlice : member.bitSlice = type.bitSlice
  enumType : member.enumType = type.enumType
  members : List.Forall₂ (fun (terminal : LocalStructMemberType) (child : LocalStructMember) =>
    child.name = terminal.name ∧ child.offset = terminal.offset ∧
      child.byteSize = terminal.byteSize ∧ child.isSigned = terminal.isSigned)
    type.members member.members

/-- Two lists that two maps take to one list. -/
theorem forall₂_of_map_eq {α β γ : Type} {f : α → γ} {g : β → γ} {l : List α} {l' : List β}
    (h : l.map f = l'.map g) : List.Forall₂ (fun a b => f a = g b) l l' := by
  have hsame : List.Forall₂ (· = ·) (l.map f) (l'.map g) := List.forall₂_eq_eq_eq ▸ h
  rwa [List.forall₂_map_left_iff, List.forall₂_map_right_iff] at hsame

theorem LocalStructMember.OfType.of_blank {type : LocalStructMemberType}
    {member : LocalStructMember} (h : (type.valueIn []).blank = member.blank) :
    member.OfType type where
  name := (congrArg (·.name) h).symm
  offset := (congrArg (·.offset) h).symm
  byteSize := (congrArg (·.byteSize) h).symm
  kind := (congrArg (·.kind) h).symm
  pointeeType := (congrArg (·.pointeeType) h).symm
  bitSlice := (congrArg (·.bitSlice) h).symm
  enumType := (congrArg (·.enumType) h).symm
  members := by
    have hchildren := congrArg (·.members) h
    simp only [blank, LocalStructMemberType.valueIn, List.map_map] at hchildren
    refine (forall₂_of_map_eq hchildren).imp fun terminal child hchild => ?_
    exact ⟨(congrArg (·.name) hchild).symm, (congrArg (·.offset) hchild).symm,
      (congrArg (·.byteSize) hchild).symm, (congrArg (·.isSigned) hchild).symm⟩

namespace LocalScalarValue

variable {type : LocalValueType} {value : LocalScalarValue} {modulePath name : String}
  {bytes : List Byte}

/-- The metadata of a value fits its kind. -/
structure WellFormed (type : LocalValueType) (resolvesPointee : Bool) (value : LocalScalarValue) :
    Prop where
  kind : value.kind = type.kind
  byteSize : value.byteSize = type.byteSize
  array : value.kind = .array → ∃ arrayType, value.arrayType = some arrayType ∧
    value.elements.length = arrayType.elementCount ∧
    (value.elements.map (·.byteSize)).sum = value.byteSize
  members : value.kind = .structure_ ∨ value.kind = .union →
    List.Forall₂ LocalStructMember.OfType type.members value.members
  enumeration : value.kind = .enumeration → value.enumType.isSome
  pointer : value.kind = .pointer → resolvesPointee → value.pointeeType.isSome
  noArray : value.kind ≠ .array → value.arrayType = none ∧ value.elements = []
  noMembers : value.kind ≠ .structure_ → value.kind ≠ .union → value.members = []
  noEnumeration : value.kind ≠ .enumeration → value.enumType = none
  noPointer : value.kind ≠ .pointer → value.pointeeType = none

/-- The value with the metadata of its type. A pointer that has no pointee gets an integer. -/
def completed (type : LocalValueType) (value : LocalScalarValue) : LocalScalarValue :=
  let typed := type.valueIn value.modulePath value.name []
  { value with
    members := typed.members, elements := typed.elements, arrayType := typed.arrayType
    enumType := typed.enumType
    pointeeType := if type.kind = .pointer then
        some (value.pointeeType.getD { byteSize := 4, isSigned := true })
      else none }

/-- No selector says anything else of the value than of the completed value. -/
structure Selectable (type : LocalValueType) (value : LocalScalarValue) : Prop where
  element : ∀ index, verdict (inspectLocalArrayElement value index) =
    verdict (inspectLocalArrayElement (value.completed type) index)
  member : ∀ memberName, verdict (inspectLocalAggregateMember value memberName) =
    verdict (inspectLocalAggregateMember (value.completed type) memberName)
  unionMember : ∀ memberName, verdict (inspectLocalUnionMember value memberName) =
    verdict (inspectLocalUnionMember (value.completed type) memberName)
  pointee : ∀ readMemory openElf resultName,
    verdict (dereferenceMaterializedLivePointer readMemory openElf value resultName) =
      verdict (dereferenceMaterializedLivePointer readMemory openElf (value.completed type)
        resultName)

/-- The value has the metadata of its type, but for the pointee of a pointer. -/
structure Carries (type : LocalValueType) (value : LocalScalarValue) : Prop where
  kind : value.kind = type.kind
  byteSize : value.byteSize = type.byteSize
  members : value.members.map (·.blank) = (value.completed type).members.map (·.blank)
  elements : value.elements.map (·.blank) = (value.completed type).elements.map (·.blank)
  arrayType : value.arrayType = (value.completed type).arrayType
  enumType : value.enumType = (value.completed type).enumType
  noPointer : type.kind ≠ .pointer → value.pointeeType = none

theorem blank_valueIn (member : LocalStructMemberType) :
    (member.valueIn bytes).blank = (member.valueIn []).blank := by
  simp [LocalStructMemberType.valueIn, LocalStructMember.blank,
    LocalStructMemberType.terminalIn]

/-- A value that was read from bytes. -/
theorem carries_valueIn : (type.valueIn modulePath name bytes).Carries type := by
  obtain ⟨byteSize, isSigned, kind, members, arrayType, enumType⟩ := type
  cases kind with
  | structure_ =>
    refine ⟨rfl, rfl, ?_, rfl, rfl, rfl, fun _ => rfl⟩
    simp [completed, LocalValueType.valueIn, LocalValueType.structureIn, blank_valueIn]
  | union =>
    refine ⟨rfl, rfl, ?_, rfl, rfl, rfl, fun _ => rfl⟩
    simp [completed, LocalValueType.valueIn, LocalValueType.unionIn, LocalStructMember.blank,
      LocalStructMemberType.terminalIn]
  | array =>
    cases arrayType with
    | none => exact ⟨rfl, rfl, rfl, rfl, rfl, rfl, fun _ => rfl⟩
    | some arrayType =>
      refine ⟨rfl, rfl, rfl, ?_, rfl, rfl, fun _ => rfl⟩
      simp only [completed, LocalValueType.valueIn, LocalValueType.arrayIn, List.map_map]
      rfl
  | _ => exact ⟨rfl, rfl, rfl, rfl, rfl, rfl, fun _ => rfl⟩

theorem carries_scalarOf (h : type.kind.isAggregate = false) (raw : Word) :
    (type.scalarOf modulePath name raw).Carries type := by
  obtain ⟨byteSize, isSigned, kind, members, arrayType, enumType⟩ := type
  cases kind with
  | structure_ => cases h
  | union => cases h
  | array => cases h
  | _ => exact ⟨rfl, rfl, rfl, rfl, rfl, rfl, fun _ => rfl⟩

theorem completed_pointeeType (h : value.Carries type)
    (hpointer : type.kind = .pointer → value.pointeeType.isSome) :
    (value.completed type).pointeeType = value.pointeeType := by
  by_cases hkind : type.kind = .pointer
  · obtain ⟨pointee, hpointee⟩ := Option.isSome_iff_exists.mp (hpointer hkind)
    simp [completed, hkind, hpointee]
  · simp [completed, hkind, h.noPointer hkind]

theorem Carries.blank_eq (h : value.Carries type)
    (hpointer : type.kind = .pointer → value.pointeeType.isSome) :
    (value.completed type).blank = value.blank := by
  have hpointee := completed_pointeeType h hpointer
  simp only [blank, ← h.members, ← h.elements, ← h.arrayType, ← h.enumType, hpointee]
  rfl

theorem Carries.selectable (h : value.Carries type)
    (hpointer : type.kind = .pointer → value.pointeeType.isSome) : value.Selectable type where
  element index := by
    rw [← verdict_inspectLocalArrayElement, ← h.blank_eq hpointer, verdict_inspectLocalArrayElement]
  member memberName := by
    rw [← verdict_inspectLocalAggregateMember, ← h.blank_eq hpointer,
      verdict_inspectLocalAggregateMember]
  unionMember memberName := by
    rw [← verdict_inspectLocalUnionMember, ← h.blank_eq hpointer, verdict_inspectLocalUnionMember]
  pointee readMemory openElf resultName := by
    unfold dereferenceMaterializedLivePointer
    rw [completed_pointeeType h hpointer]
    rfl

/-- A pointer without a pointee is not followed, and the error does not say that it is null or that
memory cannot be read. -/
theorem not_selectable_of_pointer (hkind : value.kind = .pointer) (htype : type.kind = .pointer)
    (hpointee : value.pointeeType = none) : ¬value.Selectable type := by
  intro h
  have hsame := h.pointee (fun _ _ => .error (.invalidArgument "")) (fun _ => .ok ()) ""
  have hcompleted : (value.completed type).pointeeType =
      some { byteSize := 4, isSigned := true } := by simp [completed, htype, hpointee]
  have hkind' : (value.completed type).kind = .pointer := hkind
  have hraw : (value.completed type).rawValue = value.rawValue := rfl
  unfold dereferenceMaterializedLivePointer at hsame
  rw [hpointee, hcompleted] at hsame
  simp only [hkind', hraw] at hsame
  rw [if_neg (by simp)] at hsame
  split at hsame
  · have htext := Exception.runtimeError.inj (Except.error.inj hsame)
    have hfirst := congrArg (·.toList.head?) htext
    simp at hfirst
  · rw [if_neg (by decide)] at hsame
    cases hsame

theorem Carries.members_ofType (h : value.Carries type) (hshape : type.Shape)
    (hkind : value.kind = .structure_ ∨ value.kind = .union) :
    List.Forall₂ LocalStructMember.OfType type.members value.members := by
  have hmembers := h.members.symm
  rw [h.kind] at hkind
  cases hshape with
  | structure_ hpos hle hne hlength hshapes =>
    simp only [completed, LocalValueType.valueIn, LocalValueType.structureIn, List.map_map]
      at hmembers
    exact (forall₂_of_map_eq hmembers).imp fun _ _ => .of_blank
  | union hpos hle hne hlength hshapes hnames =>
    simp only [completed, LocalValueType.valueIn, LocalValueType.unionIn, List.map_map] at hmembers
    refine ((List.forall₂_and_left _ _).mpr ⟨hshapes, forall₂_of_map_eq hmembers⟩).imp ?_
    rintro _ member ⟨⟨name, size, isSigned, rfl, -, -⟩, hblank⟩
    exact .of_blank hblank
  | _ => rcases hkind with hkind | hkind <;> cases hkind

/-- The elements of an array. -/
theorem Carries.elements_sum (h : value.Carries type) (hshape : type.Shape)
    (hkind : value.kind = .array) : ∃ arrayType, value.arrayType = some arrayType ∧
      value.elements.length = arrayType.elementCount ∧
      (value.elements.map (·.byteSize)).sum = value.byteSize := by
  have helements := h.elements
  have hsizes := congrArg (List.map (·.byteSize)) helements
  have hlength := congrArg List.length helements
  rw [h.kind] at hkind
  rw [h.byteSize]
  cases hshape with
  | @array count byteSize isSigned hcount hbound hpos hle hfits =>
    refine ⟨⟨count, byteSize, isSigned, .integer⟩, h.arrayType, ?_, ?_⟩
    · simpa [completed, LocalValueType.valueIn, LocalValueType.arrayIn] using hlength
    · simp only [completed, LocalValueType.valueIn, LocalValueType.arrayIn, List.map_map] at hsizes
      have hmap : value.elements.map (·.byteSize) = (List.range count).map fun _ => byteSize :=
        hsizes
      rw [hmap, List.map_const', List.sum_replicate_nat, List.length_range]
  | _ => cases hkind

theorem Carries.wellFormed {resolvesPointee : Bool} (h : value.Carries type) (hshape : type.Shape)
    (hpointer : type.kind = .pointer → resolvesPointee → value.pointeeType.isSome) :
    value.WellFormed type resolvesPointee where
  kind := h.kind
  byteSize := h.byteSize
  array := h.elements_sum hshape
  members := h.members_ofType hshape
  enumeration hkind := by
    rw [h.kind] at hkind
    rw [h.enumType]
    cases hshape with
    | enumeration htype => rfl
    | _ => cases hkind
  pointer hkind := hpointer (h.kind ▸ hkind)
  noArray hkind := by
    rw [h.kind] at hkind
    have helements := h.elements
    rw [h.arrayType]
    cases hshape with
    | array => exact absurd rfl hkind
    | _ => exact ⟨rfl, List.map_eq_nil_iff.mp helements⟩
  noMembers hstructure hunion := by
    rw [h.kind] at hstructure hunion
    have hmembers := h.members
    cases hshape with
    | structure_ => exact absurd rfl hstructure
    | union => exact absurd rfl hunion
    | _ => exact List.map_eq_nil_iff.mp hmembers
  noEnumeration hkind := by
    rw [h.kind] at hkind
    rw [h.enumType]
    cases hshape with
    | enumeration => exact absurd rfl hkind
    | _ => rfl
  noPointer hkind := h.noPointer (h.kind ▸ hkind)

/-! ## Materialisers -/

theorem carries_decodeStructure (hshape : type.Shape)
    (h : decodeStructure modulePath name type bytes = .ok value) :
    type.kind = .structure_ ∧ value.Carries type := by
  have hcheck := h
  simp only [decodeStructure, throw_bind, ite_throw_eq_ok, not_or, not_not] at hcheck
  obtain ⟨⟨hkind, hbytes⟩, -⟩ := hcheck
  rw [LocalValueType.decodeStructure_eq hshape hkind hbytes] at h
  cases h
  have hcarries : (type.valueIn modulePath name bytes).Carries type := carries_valueIn
  exact ⟨hkind, by simpa only [LocalValueType.valueIn, hkind] using hcarries⟩

theorem carries_materializeBoundedUnionBytes (hshape : type.Shape)
    (h : materializeBoundedUnionBytes modulePath name type bytes = .ok value) :
    type.kind = .union ∧ value.Carries type := by
  have hcheck := h
  simp only [materializeBoundedUnionBytes, throw_bind, ite_throw_eq_ok, not_or, not_not] at hcheck
  obtain ⟨⟨hkind, -, -, -, -, -, -, hbytes⟩, -⟩ := hcheck
  rw [LocalValueType.materializeBoundedUnionBytes_eq hshape hkind hbytes] at h
  cases h
  have hcarries : (type.valueIn modulePath name bytes).Carries type := carries_valueIn
  exact ⟨hkind, by simpa only [LocalValueType.valueIn, hkind] using hcarries⟩

theorem materializeBoundedArrayBytes_check
    (h : materializeBoundedArrayBytes modulePath name type bytes = .ok value) :
    type.kind = .array ∧ bytes.length = type.byteSize := by
  unfold materializeBoundedArrayBytes at h
  split at h
  · cases h
  · simp only [throw_bind, ite_throw_eq_ok, not_or, not_not] at h
    exact ⟨h.1.1, h.1.2.2.2.2.2.2.2.2⟩

theorem carries_materializeBoundedArrayBytes (hshape : type.Shape)
    (h : materializeBoundedArrayBytes modulePath name type bytes = .ok value) :
    type.kind = .array ∧ value.Carries type := by
  obtain ⟨hkind, hbytes⟩ := materializeBoundedArrayBytes_check h
  obtain ⟨arrayType, harray, heq⟩ := LocalValueType.materializeBoundedArrayBytes_eq
    hshape hkind hbytes
  rw [heq] at h
  cases h
  have hcarries : (type.valueIn modulePath name bytes).Carries type := carries_valueIn
  exact ⟨hkind, by simpa only [LocalValueType.valueIn, hkind, harray] using hcarries⟩

theorem Carries.withPointee {pointee : Option LocalValueType} (h : value.Carries type)
    (hpointee : type.kind ≠ .pointer → pointee = none) :
    { value with pointeeType := pointee }.Carries type :=
  ⟨h.kind, h.byteSize, h.members, h.elements, h.arrayType, h.enumType, hpointee⟩

/-- Where a value is stored does not matter. -/
theorem Carries.moved {storage : LocalValueStorage} {storageModulePath storageFilePath : String}
    {storageFileOffset : Word} (h : value.Carries type) :
    { value with storage, storageModulePath, storageFilePath, storageFileOffset }.Carries type :=
  ⟨h.kind, h.byteSize, h.members, h.elements, h.arrayType, h.enumType, h.noPointer⟩

/-- A scalar of a tracee, which has the pointee that it was resolved with. -/
theorem materializeLiveScalar_eq {raw : Word} {pointee : Option LocalValueType}
    (h : materializeLiveScalar modulePath name type raw pointee = .ok value) :
    type.kind.isAggregate = false ∧ (type.kind ≠ .pointer → pointee = none) ∧
      value = { type.scalarOf modulePath name raw with pointeeType := pointee } := by
  simp only [materializeLiveScalar, throw_bind, ite_throw_eq_ok] at h
  obtain ⟨hscalar, h⟩ := h
  refine ⟨?_, ?_⟩
  · cases hkind : type.kind <;> simp [hkind, LocalValueKind.isScalar, LocalValueKind.isAggregate]
      at hscalar ⊢
  by_cases henum : type.kind = .enumeration
  all_goals
    simp only [henum, if_true, if_false] at h
    obtain ⟨-, h⟩ := ite_throw_eq_ok.mp h
    cases pointee with
    | none =>
      cases h
      exact ⟨fun _ => rfl, by simp [LocalValueType.scalarOf, henum]⟩
    | some pointee =>
      dsimp only at h
      split at h
      next hkind =>
        obtain ⟨_, -, h⟩ := bind_eq_ok.mp h
        cases h
        exact ⟨fun hnot => by simp_all, by simp [LocalValueType.scalarOf, henum]⟩
      next => cases h

theorem carries_materializeLiveScalar {raw : Word} {pointee : Option LocalValueType}
    (h : materializeLiveScalar modulePath name type raw pointee = .ok value) :
    value.Carries type ∧ value.pointeeType = pointee := by
  obtain ⟨hsingle, hnone, rfl⟩ := materializeLiveScalar_eq h
  exact ⟨(carries_scalarOf hsingle raw).withPointee hnone, rfl⟩

theorem length_of_materializeSnapshotBytes {memory : SnapshotMemoryRead}
    (h : materializeSnapshotBytes modulePath name type memory = .ok value) :
    memory.bytes.length = type.byteSize := by
  unfold materializeSnapshotBytes at h
  split at h
  · simp only [throw_bind, ite_throw_eq_ok, not_or, not_not] at h
    exact h.1.2.2
  · simp only [materializeBoundedUnionBytes, throw_bind, ite_throw_eq_ok, not_or, not_not] at h
    exact h.1.2.2.2.2.2.2.2
  · exact (materializeBoundedArrayBytes_check h).2
  · have hlength {raw : Word} (hraw : decodeSnapshotScalar memory type.byteSize = .ok raw) :
        memory.bytes.length = type.byteSize := by
      simp only [decodeSnapshotScalar, ite_throw_eq_ok, not_or, not_not] at hraw
      exact hraw.1.2.2
    simp only [materializeSnapshotScalar, throw_bind, ite_throw_eq_ok] at h
    obtain ⟨-, h⟩ := h
    split at h
    · split at h
      · cases h
      · obtain ⟨-, h⟩ := ite_throw_eq_ok.mp h
        obtain ⟨raw, hraw, -⟩ := bind_eq_ok.mp h
        exact hlength hraw
    · obtain ⟨-, h⟩ := ite_throw_eq_ok.mp h
      obtain ⟨raw, hraw, -⟩ := bind_eq_ok.mp h
      exact hlength hraw

theorem carries_materializeSnapshotMemoryValue {memory : SnapshotMemoryRead}
    {requireOwnerMatch : Bool} (hshape : type.Shape)
    (h : materializeSnapshotMemoryValue modulePath name type memory requireOwnerMatch = .ok value) :
    value.Carries type ∧ value.pointeeType = none := by
  obtain ⟨result, hresult, h⟩ := bind_eq_ok.mp h
  rw [LocalValueType.materializeSnapshotBytes_eq hshape
    (length_of_materializeSnapshotBytes hresult)] at hresult
  cases hresult
  have hcarries : (type.valueIn modulePath name memory.bytes).Carries type := carries_valueIn
  have hpointee : (type.valueIn modulePath name memory.bytes).pointeeType = none := by
    unfold LocalValueType.valueIn
    split <;> rfl
  split at h
  · cases h
    exact ⟨hcarries.moved, hpointee⟩
  · obtain ⟨-, h⟩ := ite_throw_eq_ok.mp h
    cases h
    exact ⟨hcarries.moved, hpointee⟩

/-- A pointer gets the pointee, if there is one. -/
theorem attachPointerMetadata_pointer {pointee : Option LocalValueType} {result : LocalScalarValue}
    (hkind : result.kind = .pointer) (h : attachPointerMetadata result pointee = .ok value) :
    ∃ target, pointee = some target ∧ value = { result with pointeeType := some target } := by
  unfold attachPointerMetadata at h
  rw [if_neg (not_not.mpr hkind)] at h
  split at h
  · cases h
  next target =>
    refine ⟨target, rfl, ?_⟩
    simp only [throw_bind] at h
    split at h
    · exact (pure_eq_ok.mp (ite_throw_eq_ok.mp h).2).symm
    split at h
    · obtain ⟨-, h⟩ := ite_throw_eq_ok.mp h
      obtain ⟨_, -, h⟩ := bind_eq_ok.mp h
      exact (pure_eq_ok.mp h).symm
    · cases h

theorem attachPointerMetadata_ok {pointee : Option LocalValueType} {result : LocalScalarValue}
    (hresult : result.Carries type) (h : attachPointerMetadata result pointee = .ok value) :
    value.Carries type ∧ (type.kind = .pointer → value.pointeeType.isSome) := by
  by_cases hkind : type.kind = .pointer
  · obtain ⟨target, rfl, rfl⟩ := attachPointerMetadata_pointer (hresult.kind.trans hkind) h
    exact ⟨hresult.withPointee fun hnot => absurd hkind hnot, fun _ => rfl⟩
  · unfold attachPointerMetadata at h
    rw [if_pos (by rwa [hresult.kind])] at h
    cases h
    exact ⟨hresult, fun hpointer => absurd hpointer hkind⟩

end LocalScalarValue

/-! ## Evaluators -/

section Evaluators

open LocalScalarValue

variable {name : String} {subprogram : Die} {root : BoundedRootTypeResolution}
  {expression : List Byte} {value : LocalScalarValue}

theorem LiveModule.carries_valueAt {m : LiveModule} {type : LocalValueType} {address : Word}
    (hshape : type.Shape) (h : m.valueAt name type address = .ok value) :
    value.Carries type ∧ (type.kind = .pointer → value.pointeeType = none) := by
  unfold valueAt at h
  split at h
  · obtain ⟨bytes, -, h⟩ := bind_eq_ok.mp h
    obtain ⟨hkind, hcarries⟩ := carries_decodeStructure hshape h
    exact ⟨hcarries, fun hpointer => by simp [hkind] at hpointer⟩
  · obtain ⟨bytes, -, h⟩ := bind_eq_ok.mp h
    obtain ⟨hkind, hcarries⟩ := carries_materializeBoundedArrayBytes hshape h
    exact ⟨hcarries, fun hpointer => by simp [hkind] at hpointer⟩
  · obtain ⟨bytes, -, h⟩ := bind_eq_ok.mp h
    obtain ⟨hkind, hcarries⟩ := carries_materializeBoundedUnionBytes hshape h
    exact ⟨hcarries, fun hpointer => by simp [hkind] at hpointer⟩
  · obtain ⟨raw, -, h⟩ := bind_eq_ok.mp h
    exact (carries_materializeLiveScalar h).imp_right fun hnone _ => hnone

/-- The value of the innermost frame; a pointer comes without its pointee. -/
theorem LiveModule.carries_inspectUnitValue {m : LiveModule} {type : LocalValueType}
    (hshape : type.Shape) (h : m.inspectUnitValue name subprogram type expression = .ok value) :
    value.Carries type ∧ (type.kind = .pointer → value.pointeeType = none) := by
  unfold inspectUnitValue at h
  by_cases haggregate : type.kind.isAggregate = true
  all_goals
    simp only [haggregate, if_true, if_false, Bool.false_eq_true] at h
    obtain ⟨raw, -, h⟩ := bind_eq_ok.mp h
    cases raw with
    | some raw => exact (carries_materializeLiveScalar h).imp_right fun hnone _ => hnone
    | none =>
      dsimp only at h
      split at h
      · obtain ⟨bytes, -, h⟩ := bind_eq_ok.mp h
        obtain ⟨hkind, hcarries⟩ := carries_decodeStructure hshape h
        exact ⟨hcarries, fun hpointer => by simp [hkind] at hpointer⟩
      · obtain ⟨address, -, h⟩ := bind_eq_ok.mp h
        exact carries_valueAt hshape h

/-- The types and the locations that `inspect_caller_stack_unit` keeps the metadata of. -/
def KeepsMetadata (root : BoundedRootTypeResolution) (expression : List Byte) : Prop :=
  root.valueType.kind ≠ .array ∧ root.valueType.kind ≠ .union ∧
    (root.valueType.kind = .pointer → expression = [kDwOpReg3])

/-- A value of a caller: it has its metadata, or it has none at all. -/
def LiveModule.CallerValue (m : LiveModule) (name : String) (root : BoundedRootTypeResolution)
    (expression : List Byte) (value : LocalScalarValue) : Prop :=
  (KeepsMetadata root expression ∧ value.Carries root.valueType ∧
      (root.valueType.kind = .pointer → value.pointeeType.isSome)) ∨
    (¬KeepsMetadata root expression ∧ ∃ raw, value = m.bareValue name root.valueType raw)

/-- A value without metadata is enough for an integer or a floating-point number. -/
theorem LiveModule.callerValue_bareValue {m : LiveModule} (raw : Word)
    (henum : root.valueType.kind ≠ .enumeration) (hstructure : root.valueType.kind ≠ .structure_)
    (hpointer : root.valueType.kind = .pointer → expression ≠ [kDwOpReg3]) :
    m.CallerValue name root expression (m.bareValue name root.valueType raw) := by
  by_cases hkeeps : KeepsMetadata root expression
  · have ⟨harray, hunion, hregister⟩ := hkeeps
    have hkind (h : root.valueType.kind = .pointer) : False := hpointer h (hregister h)
    have hsingle : root.valueType.kind.isAggregate = false := by
      simp [LocalValueKind.isAggregate, harray, hunion, hstructure]
    have hcarries : (root.valueType.scalarOf m.elf.path name raw).Carries root.valueType :=
      carries_scalarOf hsingle raw
    rw [LocalValueType.scalarOf, if_neg henum] at hcarries
    exact .inl ⟨hkeeps, hcarries, fun h => (hkind h).elim⟩
  · exact .inr ⟨hkeeps, raw, rfl⟩

theorem LiveModule.carries_inspectCallerStackUnitValue {m : LiveModule}
    {frame : InspectionFrameContext} (hshape : root.valueType.Shape)
    (h : m.inspectCallerStackUnitValue frame name subprogram root expression = .ok value) :
    m.CallerValue name root expression value := by
  unfold inspectCallerStackUnitValue at h
  dsimp only at h
  split at h
  next hregister =>
    obtain ⟨rfl, hkind⟩ := hregister
    unfold historicalRbxValue at h
    split at h
    · cases h
    split at h
    · cases h
    next hpointee =>
      obtain ⟨hcarries, hvalue⟩ := carries_materializeLiveScalar h
      refine .inl ⟨⟨?_, ?_, fun _ => rfl⟩, hcarries, fun hpointer => ?_⟩
      · rintro harray
        simp [harray] at hkind
      · rintro hunion
        simp [hunion] at hkind
      · rw [hvalue, Option.isSome_iff_ne_none]
        simpa [hpointer] using hpointee
  next hregister =>
    split at h
    · cases h
    next henum =>
      have hpointer (hkind : root.valueType.kind = .pointer) : expression ≠ [kDwOpReg3] :=
        fun hexpression => hregister ⟨hexpression, .inr hkind⟩
      split at h
      next hxor =>
        split at h
        · cases h
        · obtain ⟨raw, -, h⟩ := bind_eq_ok.mp h
          cases h
          refine callerValue_bareValue _ henum (fun hstructure => ?_) hpointer
          simp [hstructure, LocalValueKind.isAggregate] at hxor
      next =>
        obtain ⟨address, -, h⟩ := bind_eq_ok.mp h
        split at h
        next hstructure =>
          obtain ⟨bytes, -, h⟩ := bind_eq_ok.mp h
          refine .inl ⟨?_, (carries_decodeStructure hshape h).2, fun hkind => ?_⟩
          · simp [KeepsMetadata, hstructure]
          · simp [hstructure] at hkind
        next hstructure =>
          obtain ⟨raw, -, h⟩ := bind_eq_ok.mp h
          cases h
          exact callerValue_bareValue _ henum hstructure hpointer

/-- The value of a core: it has its metadata, and a pointer has its pointee. -/
def CoreValue (type : LocalValueType) (value : LocalScalarValue) : Prop :=
  value.Carries type ∧ (type.kind = .pointer → value.pointeeType.isSome)

namespace CoreFrame

variable {c : CoreFrame} {type : LocalValueType}

theorem carries_registerValue (hkind : type.kind.isAggregate = false)
    (henum : type.kind ≠ .enumeration) (raw : Word) :
    (c.registerValue name type raw).Carries type := by
  have hcarries : (type.scalarOf c.owner.modulePath name raw).Carries type :=
    carries_scalarOf hkind raw
  rw [LocalValueType.scalarOf, if_neg henum] at hcarries
  exact hcarries.moved

theorem carries_memoryValue {address : Word} (hshape : type.Shape)
    (h : c.memoryValue name type address = .ok value) :
    value.Carries type ∧ value.pointeeType = none := by
  obtain ⟨memory, -, h⟩ := bind_eq_ok.mp h
  exact carries_materializeSnapshotMemoryValue hshape h

theorem coreValue_materializeSnapshotXmmValue
    (h : c.materializeSnapshotXmmValue name type expression = .ok value) :
    CoreValue type value := by
  simp only [materializeSnapshotXmmValue, throw_bind, ite_throw_eq_ok, not_or, not_not] at h
  obtain ⟨⟨hkind, -⟩, -, h⟩ := h
  obtain ⟨xmm, -, h⟩ := bind_eq_ok.mp h
  cases h
  have hcarries : (c.registerValue name type
      (BitVec.ofNat 64 (littleEndian (xmm.take type.byteSize)))).Carries type :=
    carries_registerValue (by rw [hkind]; rfl) (by simp [hkind]) _
  refine ⟨⟨hcarries.kind, hcarries.byteSize, hcarries.members, hcarries.elements,
    hcarries.arrayType, hcarries.enumType, hcarries.noPointer⟩, fun hpointer => ?_⟩
  simp [hkind] at hpointer

theorem coreValue_restoredStructure (hshape : type.Shape)
    (h : c.restoredStructure name type expression = .ok value) : CoreValue type value := by
  unfold restoredStructure at h
  split at h
  · obtain ⟨bytes, -, h⟩ := bind_eq_ok.mp h
    obtain ⟨elf, -, h⟩ := bind_eq_ok.mp h
    obtain ⟨result, hresult, h⟩ := bind_eq_ok.mp h
    cases h
    obtain ⟨hkind, hcarries⟩ := carries_decodeStructure hshape hresult
    exact ⟨hcarries.moved, fun hpointer => by simp [hkind] at hpointer⟩
  · cases h

theorem coreValue_restoredScalar {texts : RegisterTexts} {register : Option Word}
    (h : c.restoredScalar texts register name root expression = .ok value) :
    CoreValue root.valueType value := by
  simp only [restoredScalar, throw_bind, ite_throw_eq_ok, not_or, not_not] at h
  obtain ⟨-, ⟨hkind, henum, -⟩, h⟩ := h
  split at h
  · cases h
  · exact attachPointerMetadata_ok (carries_registerValue (by simpa using hkind) henum _) h

theorem coreValue_historicalRbxValue
    (h : c.historicalRbxValue name root expression = .ok value) :
    CoreValue root.valueType value := by
  simp only [historicalRbxValue, throw_bind, ite_throw_eq_ok, not_or] at h
  obtain ⟨⟨hkind, henum, -⟩, h⟩ := h
  split at h
  · cases h
  · obtain ⟨raw, -, h⟩ := bind_eq_ok.mp h
    exact attachPointerMetadata_ok
      (carries_registerValue (by simpa using hkind) henum _).moved h

theorem coreValue_staticValue (hshape : root.valueType.Shape)
    (h : c.staticValue name root expression = .ok value) : CoreValue root.valueType value := by
  obtain ⟨_, -, h⟩ := bind_eq_ok.mp h
  obtain ⟨lookupPc, -, h⟩ := bind_eq_ok.mp h
  obtain ⟨-, h⟩ := ite_throw_eq_ok.mp h
  obtain ⟨virtualAddress, -, h⟩ := bind_eq_ok.mp h
  obtain ⟨-, h⟩ := ite_throw_eq_ok.mp h
  obtain ⟨result, hresult, h⟩ := bind_eq_ok.mp h
  exact attachPointerMetadata_ok (carries_memoryValue hshape hresult).1 h

theorem checkFbregType_pointer (hkind : type.kind = .pointer) : checkFbregType type ≠ .ok () := by
  unfold checkFbregType
  rw [hkind]
  nofun

theorem carries_inspectSnapshotUnitValue (hshape : root.valueType.Shape)
    (h : c.inspectSnapshotUnitValue name subprogram root expression = .ok value) :
    CoreValue root.valueType value := by
  unfold inspectSnapshotUnitValue at h
  dsimp only at h
  split at h
  · cases h
  split at h
  · exact coreValue_materializeSnapshotXmmValue h
  split at h
  · exact coreValue_restoredStructure hshape h
  split at h
  · exact coreValue_restoredScalar h
  split at h
  · exact coreValue_restoredScalar h
  split at h
  · obtain ⟨_, hcheck, h⟩ := bind_eq_ok.mp h
    obtain ⟨address, -, h⟩ := bind_eq_ok.mp h
    exact ⟨(carries_memoryValue hshape h).1,
      fun hpointer => absurd hcheck (checkFbregType_pointer hpointer)⟩
  split at h
  · exact coreValue_historicalRbxValue h
  split at h
  · cases h
  · exact coreValue_staticValue hshape h

theorem coreValue_inlineAggregate (hshape : type.Shape)
    (h : c.inlineAggregate name type expression = .ok value) :
    CoreValue type value := by
  obtain ⟨regs, -, h⟩ := bind_eq_ok.mp h
  obtain ⟨bytes, -, h⟩ := bind_eq_ok.mp h
  dsimp only at h
  split at h
  · obtain ⟨elf, -, h⟩ := bind_eq_ok.mp h
    obtain ⟨result, hresult, h⟩ := bind_eq_ok.mp h
    cases h
    obtain ⟨hkind, hcarries⟩ := carries_decodeStructure hshape hresult
    exact ⟨hcarries.moved, fun hpointer => by simp [hkind] at hpointer⟩
  · obtain ⟨result, hresult, h⟩ := bind_eq_ok.mp h
    cases h
    obtain ⟨hkind, hcarries⟩ := carries_materializeBoundedArrayBytes hshape hresult
    exact ⟨hcarries.moved, fun hpointer => by simp [hkind] at hpointer⟩
  · obtain ⟨result, hresult, h⟩ := bind_eq_ok.mp h
    cases h
    obtain ⟨hkind, hcarries⟩ := carries_materializeBoundedUnionBytes hshape hresult
    exact ⟨hcarries.moved, fun hpointer => by simp [hkind] at hpointer⟩

theorem coreValue_inlineScalar (hkind : root.valueType.kind.isAggregate = false)
    (h : c.inlineScalar name root expression = .ok value) : CoreValue root.valueType value := by
  obtain ⟨raw, -, h⟩ := bind_eq_ok.mp h
  have hcarries : (root.valueType.scalarOf c.owner.modulePath name
      (truncateInteger raw root.valueType.byteSize)).Carries root.valueType :=
    carries_scalarOf hkind _
  dsimp only at h
  split at h
  next henum =>
    obtain ⟨-, h⟩ := ite_throw_eq_ok.mp h
    cases h
    rw [LocalValueType.scalarOf, if_pos henum] at hcarries
    exact ⟨hcarries.moved, fun hpointer => by simp [henum] at hpointer⟩
  next henum =>
    rw [LocalValueType.scalarOf, if_neg henum] at hcarries
    split at h
    · obtain ⟨-, h⟩ := ite_throw_eq_ok.mp h
      exact attachPointerMetadata_ok hcarries.moved h
    next hpointer =>
      cases h
      exact ⟨hcarries.moved, fun h => absurd h hpointer⟩

theorem carries_inspectInlineScalarUnitValue (hshape : root.valueType.Shape)
    (h : c.inspectInlineScalarUnitValue name subprogram root expression = .ok value) :
    CoreValue root.valueType value := by
  unfold inspectInlineScalarUnitValue at h
  dsimp only at h
  split at h
  · cases h
  split at h
  · obtain ⟨-, h⟩ := ite_throw_eq_ok.mp h
    obtain ⟨address, -, h⟩ := bind_eq_ok.mp h
    obtain ⟨result, hresult, h⟩ := bind_eq_ok.mp h
    exact attachPointerMetadata_ok (carries_memoryValue hshape hresult).1 h
  split at h
  · exact coreValue_inlineAggregate hshape h
  next hkind => exact coreValue_inlineScalar (by simpa using hkind) h

end CoreFrame

end Evaluators

/-! ## Types of entries -/

namespace DieUnit

variable {u : DieUnit} {binding : u.LocalBinding}

theorem resolve_of_bindValue {texts : BindingTexts}
    {resolve : Word → Except Exception BoundedRootTypeResolution} {sections : LocationSections}
    {pc base : Word} {subprogram value : u.Index}
    (h : u.bindValue texts resolve sections pc base subprogram value = .ok binding) :
    ∃ offset, resolve offset = .ok binding.root := by
  obtain ⟨type, -, h⟩ := bind_eq_ok.mp h
  split at h
  · cases h
  split at h
  · cases h
  next location type =>
    obtain ⟨-, h⟩ := ite_throw_eq_ok.mp h
    obtain ⟨root, hroot, h⟩ := bind_eq_ok.mp h
    refine ⟨type.number, ?_⟩
    split at h
    · cases h
      exact hroot
    split at h
    · obtain ⟨expression, -, h⟩ := bind_eq_ok.mp h
      cases h
      exact hroot
    · cases h

theorem resolve_of_bindLocal {texts : LookupTexts}
    {resolve : Word → Except Exception BoundedRootTypeResolution} {sections : LocationSections}
    {pc : Word} {name : String}
    (h : u.bindLocal texts resolve sections pc name = .ok (some binding)) :
    ∃ offset, resolve offset = .ok binding.root := by
  obtain ⟨subprogram, -, h⟩ := bind_eq_ok.mp h
  obtain ⟨value, -, h⟩ := bind_eq_ok.mp h
  split at h
  · obtain ⟨bound, hbound, h⟩ := bind_eq_ok.mp h
    cases h
    exact resolve_of_bindValue hbound
  · cases h

theorem resolve_of_bindInline {sections : LocationSections} {ranges : List Byte}
    {pc inlineDieOffset : Word} {name : String}
    (h : u.bindInline sections ranges pc inlineDieOffset name = .ok (some binding)) :
    ∃ offset, u.resolveInlineType offset = .ok binding.root := by
  unfold bindInline at h
  split at h
  · cases h
  obtain ⟨-, h⟩ := ite_throw_eq_ok.mp h
  obtain ⟨unitBase, -, h⟩ := bind_eq_ok.mp h
  obtain ⟨inside, -, h⟩ := bind_eq_ok.mp h
  obtain ⟨-, h⟩ := ite_throw_eq_ok.mp h
  obtain ⟨subprogram, -, h⟩ := bind_eq_ok.mp h
  split at h
  · cases h
  obtain ⟨-, h⟩ := ite_throw_eq_ok.mp h
  obtain ⟨best, -, h⟩ := bind_eq_ok.mp h
  split at h
  · cases h
  · obtain ⟨bound, hbound, h⟩ := bind_eq_ok.mp h
    cases h
    exact resolve_of_bindValue hbound

theorem resolveBoundedRootValueType_shape {offset : Word} {root : BoundedRootTypeResolution}
    (h : u.resolveBoundedRootValueType offset = .ok root) : root.valueType.Shape := by
  obtain ⟨floating, hfloating, h⟩ := bind_eq_ok.mp h
  cases floating with
  | some floating =>
    cases h
    obtain ⟨size, rfl, hsize⟩ := resolveSnapshotFloatingType_shape hfloating
    exact .floating hsize
  | none =>
    obtain ⟨pointee, -, h⟩ := bind_eq_ok.mp h
    cases pointee with
    | some pointee =>
      cases h
      exact .pointer
    | none =>
      obtain ⟨type, htype, h⟩ := bind_eq_ok.mp h
      cases h
      exact resolveValueType_shape htype

theorem shape_of_bindCurrent {sections : LocationSections} {pc : Word} {name : String}
    (h : u.bindCurrent sections pc name = .ok (some binding)) : binding.root.valueType.Shape := by
  obtain ⟨offset, hroot⟩ := resolve_of_bindLocal h
  obtain ⟨type, htype, hroot⟩ := bind_eq_ok.mp hroot
  rw [← pure_eq_ok.mp hroot]
  exact resolveValueType_shape htype

theorem shape_of_bindInline {sections : LocationSections} {ranges : List Byte}
    {pc inlineDieOffset : Word} {name : String}
    (h : u.bindInline sections ranges pc inlineDieOffset name = .ok (some binding)) :
    binding.root.valueType.Shape := by
  obtain ⟨offset, hroot⟩ := resolve_of_bindInline h
  obtain ⟨root, hresolved, hroot⟩ := bind_eq_ok.mp hroot
  obtain ⟨_, -, hroot⟩ := bind_eq_ok.mp hroot
  obtain ⟨-, hroot⟩ := ite_throw_eq_ok.mp hroot
  rw [← pure_eq_ok.mp hroot]
  exact resolveBoundedRootValueType_shape hresolved

end DieUnit

/-! ## Paths -/

/-- By which evaluator a local is read. -/
inductive LocalPath where
  | current (live : LiveModule)
  | caller (live : LiveModule) (frame : InspectionFrameContext)
  | snapshot (core : CoreFrame)
  | inlined (core : CoreFrame) (ranges : List Byte) (inlineDieOffset : Word)

namespace LocalPath

/-- What the evaluator goes by. -/
def bind (path : LocalPath) (u : DieUnit) (sections : LocationSections) (pc : Word)
    (name : String) : Except Exception (Option u.LocalBinding) :=
  match path with
  | current _ => u.bindCurrent sections pc name
  | caller _ _ => u.bindCaller sections pc name
  | snapshot _ => u.bindSnapshot sections pc name
  | inlined _ ranges inlineDieOffset => u.bindInline sections ranges pc inlineDieOffset name

/-- What it makes of that. -/
def evaluate (path : LocalPath) (name : String) (subprogram : Die)
    (root : BoundedRootTypeResolution) (expression : List Byte) :
    Except Exception LocalScalarValue :=
  match path with
  | current live => live.inspectUnitValue name subprogram root.valueType expression
  | caller live frame => live.inspectCallerStackUnitValue frame name subprogram root expression
  | snapshot core => core.inspectSnapshotUnitValue name subprogram root expression
  | inlined core _ _ => core.inspectInlineScalarUnitValue name subprogram root expression

def resolvesPointee : LocalPath → Bool
  | current _ => false
  | _ => true

/-- What the path makes of a local of a unit. -/
def Inspects (path : LocalPath) (u : DieUnit) (sections : LocationSections) (pc : Word)
    (name : String) (binding : u.LocalBinding) (value : LocalScalarValue) : Prop :=
  path.bind u sections pc name = .ok (some binding) ∧
    path.evaluate name (u.die binding.subprogram) binding.root binding.expression = .ok value

/-- The types and the locations that the path keeps the metadata of. -/
def Keeps (path : LocalPath) (root : BoundedRootTypeResolution) (expression : List Byte) : Prop :=
  match path with
  | current _ => root.valueType.kind ≠ .pointer
  | caller _ _ => KeepsMetadata root expression
  | _ => True

theorem shape_of_bind {path : LocalPath} {u : DieUnit} {sections : LocationSections} {pc : Word}
    {name : String} {binding : u.LocalBinding}
    (h : path.bind u sections pc name = .ok (some binding)) : binding.root.valueType.Shape := by
  cases path with
  | current live => exact DieUnit.shape_of_bindCurrent h
  | caller live frame =>
    obtain ⟨offset, hroot⟩ := DieUnit.resolve_of_bindLocal h
    exact DieUnit.resolveBoundedRootValueType_shape hroot
  | snapshot core =>
    obtain ⟨offset, hroot⟩ := DieUnit.resolve_of_bindLocal h
    exact DieUnit.resolveBoundedRootValueType_shape hroot
  | inlined core ranges inlineDieOffset => exact DieUnit.shape_of_bindInline h

theorem members_ne_of_union {type : LocalValueType} (hshape : type.Shape)
    (hkind : type.kind = .union) : type.members ≠ [] := by
  cases hshape with
  | union hpos hle hne hlength hmembers hnames => exact hne
  | _ => cases hkind

/-- A bare value of an array, a union or a pointer is not well formed. -/
theorem not_wellFormed_bareValue {m : LiveModule} {name : String}
    {root : BoundedRootTypeResolution} {expression : List Byte} {raw : Word}
    (hshape : root.valueType.Shape) (h : ¬KeepsMetadata root expression) :
    ¬(m.bareValue name root.valueType raw).WellFormed root.valueType true := by
  intro hformed
  refine h ⟨fun hkind => ?_, fun hkind => ?_, fun hkind => ?_⟩
  · obtain ⟨arrayType, harray, -⟩ := hformed.array hkind
    cases harray
  · exact members_ne_of_union hshape hkind
      (List.forall₂_nil_right_iff.mp (hformed.members (.inr hkind)))
  · cases hformed.pointer hkind rfl

end LocalPath

/-- What the path returns for a local has the metadata of its type, and no selector rejects it
for the lack of any. -/
def LocalPath.InspectsWellFormed (path : LocalPath) (u : DieUnit) (sections : LocationSections)
    (pc : Word) (name : String) : Prop :=
  ∀ binding value, path.Inspects u sections pc name binding value →
    value.WellFormed binding.root.valueType path.resolvesPointee ∧
      value.Selectable binding.root.valueType

/-- The values of a core are well formed, those of the innermost frame are if they are not
pointers, and those of a caller if its evaluator keeps their metadata. -/
theorem inspectsWellFormed_iff (path : LocalPath) (u : DieUnit) (sections : LocationSections)
    (pc : Word) (name : String) : path.InspectsWellFormed u sections pc name ↔
      ∀ binding value, path.Inspects u sections pc name binding value →
        path.Keeps binding.root binding.expression := by
  refine forall₃_congr fun binding value hinspects => ?_
  obtain ⟨hbind, hvalue⟩ := hinspects
  have hshape := LocalPath.shape_of_bind hbind
  cases path with
  | current live =>
    obtain ⟨hcarries, hnone⟩ := LiveModule.carries_inspectUnitValue hshape hvalue
    constructor
    · rintro ⟨-, hselectable⟩ hkind
      exact LocalScalarValue.not_selectable_of_pointer (hcarries.kind.trans hkind) hkind
        (hnone hkind) hselectable
    · exact fun hkind => ⟨hcarries.wellFormed hshape fun hpointer => absurd hpointer hkind,
        hcarries.selectable fun hpointer => absurd hpointer hkind⟩
  | caller live frame =>
    obtain ⟨hkeeps, hcarries, hpointer⟩ | ⟨hkeeps, raw, rfl⟩ :=
      LiveModule.carries_inspectCallerStackUnitValue hshape hvalue
    · exact iff_of_true ⟨hcarries.wellFormed hshape fun hkind _ => hpointer hkind,
        hcarries.selectable hpointer⟩ hkeeps
    · exact iff_of_false (fun h => LocalPath.not_wellFormed_bareValue hshape hkeeps h.1) hkeeps
  | snapshot core =>
    obtain ⟨hcarries, hpointer⟩ := CoreFrame.carries_inspectSnapshotUnitValue hshape hvalue
    exact iff_of_true ⟨hcarries.wellFormed hshape fun hkind _ => hpointer hkind,
      hcarries.selectable hpointer⟩ trivial
  | inlined core ranges inlineDieOffset =>
    obtain ⟨hcarries, hpointer⟩ := CoreFrame.carries_inspectInlineScalarUnitValue hshape hvalue
    exact iff_of_true ⟨hcarries.wellFormed hshape fun hkind _ => hpointer hkind,
      hcarries.selectable hpointer⟩ trivial

theorem eq_ok_of_toOption {ε α : Type} {x : Except ε α} {a : α} (h : x.toOption = some a) :
    x = .ok a := by
  cases x with
  | error e => cases h
  | ok b => exact congrArg Except.ok (Option.some.inj h)

/-- A function with a variable `a`, an array of two integers. -/
def arrayUnit : DieUnit where
  dies := [⟨0x0b, 0x11, none, []⟩,
    ⟨0x10, kDwTagSubprogram, some 0, 
      [{ name := kDwAtLowPc, form := kDwFormAddr, number := 0x1000 },
        { name := kDwAtHighPc, form := kDwFormData4, number := 0x100 },
        { name := kDwAtFrameBase, form := kDwFormExprloc, expression := [kDwOpReg6] }]⟩,
    ⟨0x20, kDwTagVariable, some 1, [
      { name := kDwAtName, form := 0x08, text := "a" },
      { name := kDwAtType, form := kDwFormRef4, number := 0x30 },
      { name := kDwAtLocation, form := kDwFormExprloc, expression := [kDwOpFbreg, 0x70] }]⟩,
    ⟨0x30, kDwTagArrayType, some 0, [{ name := kDwAtType, form := kDwFormRef4, number := 0x40 }]⟩,
    ⟨0x38, kDwTagSubrangeType, some 3,
      [{ name := kDwAtCount, form := kDwFormData1, number := 2 }]⟩,
    ⟨0x40, kDwTagBaseType, some 0, [{ name := kDwAtByteSize, form := kDwFormData1, number := 4 },
      { name := kDwAtEncoding, form := kDwFormData1, number := kDwAteSigned }]⟩]
  ascending := by decide
  rooted := by decide

/-- A stop in a function that the function of `arrayUnit` has called. -/
def arrayModule : LiveModule where
  tracee := {
    state := .stopped
    pid := 10
    activeTid := 10
    stopSequence := 1
    registers := { rip := 0x2000, rsp := 0x7000 }
    readMemory := fun _ length => .ok (List.replicate length 1)
    maps := none }
  elf := ⟨"/bin/call", "/bin/call", .exec, 0⟩
  cfi := .error (.runtimeError "no .eh_frame")
  debugger := {
    process := ⟨10, 10, .stopped, .launched, ∅, none, none⟩
    stopInfo := { reason := .breakpoint }
    executablePath := "/bin/call" }

def arrayCaller : InspectionFrameContext where
  index := 1
  processPid := 10
  tid := 10
  originStopSequence := 1
  originRuntimePc := 0x2000
  originStackPointer := 0x7000
  originFramePointer := none
  runtimePc := 0x1010
  stackPointer := 0x7020
  framePointer := some 0x7040
  modulePath := "/bin/call"
  registers := { rbp := some 0x7040 }

/-- The array is returned without its elements. -/
theorem not_inspectsWellFormed_callerArray :
    ¬(LocalPath.caller arrayModule arrayCaller).InspectsWellFormed arrayUnit {} 0x1010 "a" := by
  intro h
  have hbare : ((arrayUnit.bindCaller {} 0x1010 "a").toOption.join.bind fun binding =>
      (arrayModule.inspectCallerStackUnitValue arrayCaller "a" (arrayUnit.die binding.subprogram)
        binding.root binding.expression).toOption.map fun value => (value.kind, value.arrayType)) =
      some (.array, none) := by decide +kernel
  obtain ⟨binding, hbind, hbare⟩ := Option.bind_eq_some_iff.mp hbare
  obtain ⟨value, hvalue, hbare⟩ := Option.map_eq_some_iff.mp hbare
  obtain ⟨hkind, hnone⟩ := Prod.mk.inj hbare
  obtain ⟨arrayType, harray, -⟩ := (h binding value
    ⟨eq_ok_of_toOption (Option.join_eq_some_iff.mp hbind), eq_ok_of_toOption hvalue⟩).1.array hkind
  cases hnone.symm.trans harray

end MiniDebugger
