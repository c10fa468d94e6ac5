import MiniDebugger.Core.SnapshotMemory
import MiniDebugger.Dwarf.PointerMembers

/-!
# Pointer members by two ways

A lookup of a pointer member and the selection of the member from the structure it is in lead to the
same bytes, but the lookup takes every pointee for an integer.
-/

namespace MiniDebugger

open Checks

/-! ## Values in memory -/

/-- A pointer that was read. -/
def SnapshotMemoryRead.pointer (memory : SnapshotMemoryRead) (modulePath name : String)
    (byteSize : Nat) (pointee : Option LocalValueType) : LocalScalarValue :=
  { attachStorage
      { modulePath, name, rawValue := BitVec.ofNat 64 (littleEndian memory.bytes), byteSize
        isSigned := false, kind := .pointer } memory with
    pointeeType := pointee }

/-- An integer that was read. -/
def SnapshotMemoryRead.integer (memory : SnapshotMemoryRead) (modulePath name : String)
    (type : LocalValueType) : LocalScalarValue :=
  attachStorage
    { modulePath, name, rawValue := BitVec.ofNat 64 (littleEndian memory.bytes)
      byteSize := type.byteSize, isSigned := type.isSigned } memory

/-- Raw value, width and storage are the same. -/
structure LocalScalarValue.SameStorage (value other : LocalScalarValue) : Prop where
  rawValue : value.rawValue = other.rawValue
  byteSize : value.byteSize = other.byteSize
  storage : value.storage = other.storage
  storageModulePath : value.storageModulePath = other.storageModulePath
  storageFilePath : value.storageFilePath = other.storageFilePath
  storageFileOffset : value.storageFileOffset = other.storageFileOffset

theorem SnapshotMemoryRead.sameStorage_pointer (memory : SnapshotMemoryRead)
    {modulePath modulePath' name name' : String} {byteSize : Nat}
    {pointee pointee' : Option LocalValueType} :
    (memory.pointer modulePath name byteSize pointee).SameStorage
      (memory.pointer modulePath' name' byteSize pointee') := by
  unfold SnapshotMemoryRead.pointer attachStorage
  split <;> exact ⟨rfl, rfl, rfl, rfl, rfl, rfl⟩

theorem SnapshotMemoryRead.same_integer (memory : SnapshotMemoryRead)
    {modulePath modulePath' name name' : String} {type : LocalValueType} :
    (memory.integer modulePath name type).SameStorage (memory.integer modulePath' name' type) ∧
      (memory.integer modulePath name type).isSigned =
        (memory.integer modulePath' name' type).isSigned ∧
      (memory.integer modulePath name type).kind =
        (memory.integer modulePath' name' type).kind := by
  unfold SnapshotMemoryRead.integer attachStorage
  split <;> exact ⟨⟨rfl, rfl, rfl, rfl, rfl, rfl⟩, rfl, rfl⟩

theorem materializeSnapshotMemoryValue_false (modulePath name : String) (type : LocalValueType)
    (memory : SnapshotMemoryRead) :
    materializeSnapshotMemoryValue modulePath name type memory false =
      (materializeSnapshotBytes modulePath name type memory).map (attachStorage · memory) := by
  unfold materializeSnapshotMemoryValue attachStorage
  cases materializeSnapshotBytes modulePath name type memory with
  | error e => rfl
  | ok value =>
    rw [ok_bind]
    split
    · rfl
    · rw [if_neg (by simp)]
      rfl

theorem checkedAddress_eq_ok {base address : Word} {offset : Nat} {context : String}
    (h : checkedAddress base offset context = .ok address) :
    address = base + BitVec.ofNat 64 offset := by
  unfold checkedAddress at h
  exact (pure_eq_ok.mp (ite_throw_eq_ok.mp (ite_throw_eq_ok.mp h).2).2).symm

theorem decodeMemberScalar_eq_ok {memory : SnapshotMemoryRead} {byteSize : Nat} {raw : Word}
    (h : decodeMemberScalar memory byteSize = .ok raw) :
    raw = BitVec.ofNat 64 (littleEndian memory.bytes) := by
  unfold decodeMemberScalar at h
  exact (pure_eq_ok.mp (ite_throw_eq_ok.mp h).2).symm

section Attached

variable (value : LocalScalarValue) (memory : SnapshotMemoryRead)

@[simp] theorem attachStorage_kind : (attachStorage value memory).kind = value.kind := by
  unfold attachStorage
  split <;> rfl

@[simp] theorem attachStorage_members : (attachStorage value memory).members = value.members := by
  unfold attachStorage
  split <;> rfl

end Attached

/-- What is copied from an object that was read is what is read of its part. -/
theorem copyStorage_attachStorage {result object placed value : LocalScalarValue}
    {memory : SnapshotMemoryRead} {offset : Nat} (size : Nat)
    (hobject : value = attachStorage object memory)
    (h : copyStorage result value offset = .ok placed)
    (hpath : object.storageModulePath = result.storageModulePath)
    (hfile : object.storageFilePath = result.storageFilePath)
    (hoffset : object.storageFileOffset = result.storageFileOffset) :
    placed = attachStorage result (memory.slice offset size) := by
  subst hobject
  unfold copyStorage at h
  by_cases hcore : memory.provenance = .core
  · have hobject : attachStorage object memory = { object with storage := .snapshotCoreMemory } :=
      if_pos hcore
    rw [hobject, if_pos (by simp)] at h
    obtain rfl := pure_eq_ok.mp h
    simp only [attachStorage, SnapshotMemoryRead.slice, hcore, hpath, hfile, hoffset, if_true]
  · have hobject : attachStorage object memory = { object with
        storage := .snapshotRuntimeArtifact, storageModulePath := memory.modulePath
        storageFilePath := memory.moduleFilePath
        storageFileOffset := memory.artifactFileOffset } := if_neg hcore
    rw [hobject, if_neg (by simp)] at h
    obtain ⟨-, h⟩ := ite_throw_eq_ok.mp h
    obtain rfl := pure_eq_ok.mp h
    simp only [attachStorage, SnapshotMemoryRead.slice, hcore, if_false]

/-- The two copies of the storage differ in a text. -/
theorem copyStorage_of_placeMember {result object placed : LocalScalarValue} {offset : Nat}
    (h : placeMember result object offset = .ok placed) :
    copyStorage result object offset = .ok placed := by
  unfold placeMember at h
  unfold copyStorage
  by_cases hstorage : object.storage ≠ .snapshotRuntimeArtifact
  · rwa [if_pos hstorage] at h ⊢
  · rw [if_neg hstorage] at h ⊢
    exact ite_throw_eq_ok.mpr (ite_throw_eq_ok.mp h)

/-! ## The object -/

/-- The member of a name in a list that is built from another list, member by member. -/
theorem find?_of_forall₂ {α β : Type} {r : α → β → Prop} {p : α → Bool} {q : β → Bool}
    {l : List α} {l' : List β} {b : β} (h : List.Forall₂ r l l') (hsame : ∀ a b, r a b → p a = q b)
    (hfound : l'.find? q = some b) : ∃ a, l.find? p = some a ∧ r a b := by
  induction h with
  | nil => cases hfound
  | @cons a c l l' hac _ ih =>
    cases hq : q c with
    | true =>
      rw [List.find?_cons_of_pos hq] at hfound
      obtain rfl := Option.some.inj hfound
      exact ⟨a, List.find?_cons_of_pos ((hsame a c hac).trans hq), hac⟩
    | false =>
      rw [List.find?_cons_of_neg (by simp [hq])] at hfound
      obtain ⟨found, hfind, hr⟩ := ih hfound
      exact ⟨found, by rwa [List.find?_cons_of_neg (by simp [hsame a c hac, hq])], hr⟩

section Members

variable {text : String} {bytes : List Byte} {outerSize : Nat} {type : LocalStructMemberType}
  {member : LocalStructMember}

/-- A member that is not a structure. -/
theorem materializeMember_eq_ok (hkind : type.kind ≠ .structure_)
    (h : materializeMember text bytes outerSize type = .ok member) : ∃ raw,
      (type.bitSlice.isSome → decodeBoundedBitField bytes type = .ok raw) ∧
      (type.bitSlice = none → decodeInteger bytes type.offset type.byteSize = .ok raw) ∧
      member = { name := type.name, rawValue := raw, byteSize := type.byteSize
                 isSigned := type.isSigned, kind := type.kind, pointeeType := type.pointeeType
                 bitSlice := type.bitSlice, enumType := type.enumType, offset := type.offset } := by
  unfold materializeMember at h
  rw [if_neg hkind] at h
  simp only [throw_bind, ite_throw_eq_ok] at h
  obtain ⟨-, h⟩ := h
  split at h
  · next hsome =>
    obtain ⟨raw, hraw, h⟩ := bind_eq_ok.mp h
    exact ⟨raw, fun _ => hraw, fun hnone => by simp [hnone] at hsome, (pure_eq_ok.mp h).symm⟩
  · next hnone =>
    obtain ⟨raw, hraw, h⟩ := bind_eq_ok.mp h
    exact ⟨raw, fun hsome => absurd hsome hnone, fun _ => hraw, (pure_eq_ok.mp h).symm⟩

theorem name_of_materializeMember
    (h : materializeMember text bytes outerSize type = .ok member) : member.name = type.name := by
  by_cases hkind : type.kind = .structure_
  · unfold materializeMember at h
    simp only [if_pos hkind, materializeBoundedNestedStructureMember, throw_bind,
      ite_throw_eq_ok] at h
    obtain ⟨members, -, h⟩ := bind_eq_ok.mp h.2
    obtain rfl := pure_eq_ok.mp h
    rfl
  · obtain ⟨raw, -, -, rfl⟩ := materializeMember_eq_ok hkind h
    rfl

/-- A pointer member holds the bytes of its place. -/
theorem materializeMember_pointer (hkind : type.kind = .pointer)
    (h : materializeMember text bytes outerSize type = .ok member) :
    member = { name := type.name
               rawValue := BitVec.ofNat 64
                 (littleEndian ((bytes.drop type.offset).take type.byteSize))
               byteSize := type.byteSize, isSigned := type.isSigned, kind := .pointer
               pointeeType := type.pointeeType, bitSlice := none, enumType := type.enumType
               offset := type.offset } := by
  obtain ⟨raw, hbits, hraw, rfl⟩ := materializeMember_eq_ok (by simp [hkind]) h
  have hslice : type.bitSlice = none := by
    by_contra hsome
    have hfield := hbits (Option.isSome_iff_ne_none.mpr hsome)
    unfold decodeBoundedBitField at hfield
    split at hfield
    · cases hfield
    · simp only [throw_bind, ite_throw_eq_ok] at hfield
      exact hfield.1 (.inl (by simp [hkind]))
  obtain rfl := pure_eq_ok.mp (ite_throw_eq_ok.mp (hraw hslice)).2
  simp [hkind, hslice]

end Members

theorem LocalPointerPointeeType.selected_eq_asInteger_iff (pointee : LocalPointerPointeeType) :
    pointee.selected = pointee.asInteger ↔ pointee.kind = .integer := by
  constructor
  · exact fun h => congrArg (·.kind) h
  · intro h
    simp [selected, asInteger, h]

/-- The layout of a pointer member that `dereference_local_pointer` accepts. -/
theorem checkDereferencedMember_pointer {pointeeSize : Nat} {type : LocalStructMemberType}
    (hkind : type.kind = .pointer) (h : checkDereferencedMember pointeeSize type = .ok ()) :
    0 < type.byteSize ∧ type.offset + type.byteSize ≤ pointeeSize ∧ type.isSigned = false := by
  unfold checkDereferencedMember at h
  simp only [throw_bind, ite_throw_eq_ok] at h
  obtain ⟨hlayout, h⟩ := h
  rw [if_neg (by simp [hkind]), if_pos hkind] at h
  obtain ⟨hmember, -⟩ := ite_throw_eq_ok.mp h
  refine ⟨by omega, by omega, ?_⟩
  by_contra hsigned
  exact hmember (.inr (.inl (by simpa using hsigned)))

namespace CoreView

variable {v : CoreView} {name memberName : String}
  {pointer object member selected : LocalScalarValue} {pointee : LocalValueType}
  {memory : SnapshotMemoryRead}

def lostNesting : String := "snapshot non-structure member unexpectedly carries nested metadata"

/-- A structure that a pointer points to, as it was read. -/
structure Reads (v : CoreView) (pointer object : LocalScalarValue) (pointee : LocalValueType)
    (memory : SnapshotMemoryRead) (members : List LocalStructMember) : Prop where
  nonnull : pointer.rawValue ≠ 0
  checked : ∀ type ∈ pointee.members, checkDereferencedMember pointee.byteSize type = .ok ()
  read : v.read pointer.rawValue pointee.byteSize = .ok memory
  materialized : List.Forall₂ (fun type member =>
    materializeMember lostNesting memory.bytes pointee.byteSize type = .ok member)
    pointee.members members
  object : object = attachStorage
    { modulePath := pointer.modulePath, name := "*" ++ pointer.name, rawValue := 0
      byteSize := pointee.byteSize, isSigned := false, kind := .structure_, members } memory

theorem reads_of_dereference (hpointee : pointer.pointeeType = some pointee)
    (hkind : pointee.kind = .structure_) (h : v.dereference name pointer = .ok object) :
    ∃ memory members, v.Reads pointer object pointee memory members := by
  unfold dereference at h
  rw [hpointee] at h
  simp only [throw_bind, ite_throw_eq_ok] at h
  obtain ⟨-, hnull, h⟩ := h
  obtain ⟨type, htype, h⟩ := bind_eq_ok.mp h
  obtain ⟨memory, hread, h⟩ := bind_eq_ok.mp h
  obtain ⟨result, hresult, h⟩ := bind_eq_ok.mp h
  obtain rfl := pure_eq_ok.mp (ite_throw_eq_ok.mp h).2
  unfold dereferencedType at htype
  rw [if_neg (by simp [hkind]), if_pos hkind] at htype
  simp only [throw_bind, ite_throw_eq_ok] at htype
  obtain ⟨-, htype⟩ := htype
  obtain ⟨⟨⟩, hchecked, htype⟩ := bind_eq_ok.mp htype
  obtain rfl := pure_eq_ok.mp htype
  rw [materializeSnapshotMemoryValue_false] at hresult
  obtain ⟨value, hvalue, rfl⟩ := Checks.map_eq_ok.mp hresult
  unfold materializeSnapshotBytes at hvalue
  simp only [throw_bind, ite_throw_eq_ok] at hvalue
  obtain ⟨members, hmembers, hvalue⟩ := bind_eq_ok.mp hvalue.2
  obtain rfl := pure_eq_ok.mp hvalue
  exact ⟨memory, members, hnull, Checks.forM_eq_ok.mp hchecked, hread,
    Checks.mapM_eq_ok.mp hmembers, rfl⟩

/-- The type of a member of the object and the member itself. -/
theorem Reads.find? {members : List LocalStructMember} {found : LocalStructMember}
    (h : v.Reads pointer object pointee memory members)
    (hfound : members.find? (fun member => member.name = memberName) = some found) :
    ∃ type ∈ pointee.members, pointee.memberNamed memberName = some type ∧
      materializeMember lostNesting memory.bytes pointee.byteSize type = .ok found := by
  obtain ⟨type, htype, hmember⟩ := find?_of_forall₂ h.materialized
    (p := fun member => member.name = memberName)
    (fun type member hmember => by rw [name_of_materializeMember hmember]) hfound
  exact ⟨type, List.mem_of_find?_eq_some htype, htype, hmember⟩

/-- A pointer member that is selected of the object. -/
theorem Reads.selected_eq {members : List LocalStructMember}
    (h : v.Reads pointer object pointee memory members)
    (hselected : inspectLocalAggregateMember object memberName = .ok selected) :
    ∃ type ∈ pointee.members, pointee.memberNamed memberName = some type ∧
      (type.kind = .pointer → selected = (memory.slice type.offset type.byteSize).pointer
        object.modulePath (object.name ++ "." ++ memberName) type.byteSize
        (type.pointeeType.map (·.selected))) := by
  have hobject := h.object
  have hmembers : object.members = members := by rw [hobject, attachStorage_members]
  unfold inspectLocalAggregateMember at hselected
  obtain ⟨found, hfound, hselected⟩ := bind_eq_ok.mp hselected
  obtain ⟨placed, hplaced, hselected⟩ := bind_eq_ok.mp hselected
  obtain rfl := pure_eq_ok.mp hselected
  unfold aggregateMember at hfound
  simp only [throw_bind, ite_throw_eq_ok] at hfound
  obtain ⟨-, -, hfound⟩ := hfound
  split at hfound
  · cases hfound
  next first hfirst =>
    obtain ⟨⟨⟩, -, hfound⟩ := bind_eq_ok.mp hfound
    obtain rfl := pure_eq_ok.mp hfound
    rw [hmembers] at hfirst
    obtain ⟨type, hmem, htype, hmember⟩ := h.find? hfirst
    refine ⟨type, hmem, htype, fun hkind => ?_⟩
    have hsigned := (checkDereferencedMember_pointer hkind (h.checked type hmem)).2.2
    obtain rfl := materializeMember_pointer hkind hmember
    rw [hsigned] at hplaced
    obtain rfl := copyStorage_attachStorage type.byteSize hobject hplaced rfl rfl rfl
    rfl

/-- A member that `inspect_local_pointer_member` finds. -/
theorem Reads.selectPointerMember_eq {members : List LocalStructMember}
    (h : v.Reads pointer object pointee memory members)
    (hmember : selectPointerMember pointer object pointee memberName = .ok member) :
    ∃ type, pointee.memberNamed memberName = some type ∧ type.kind = .pointer ∧
      member = (memory.slice type.offset type.byteSize).pointer pointer.modulePath
        (pointer.name ++ "->" ++ memberName) type.byteSize
        (type.pointeeType.map (·.asInteger)) := by
  have hobject := h.object
  have hmembers : object.members = members := by rw [hobject, attachStorage_members]
  unfold selectPointerMember at hmember
  simp only [throw_bind, ite_throw_eq_ok] at hmember
  obtain ⟨-, hmember⟩ := hmember
  split at hmember
  · cases hmember
  next type htype =>
    split at hmember
    · cases hmember
    next target htarget =>
      obtain ⟨hkind, hmember⟩ := ite_throw_eq_ok.mp hmember
      rw [not_not] at hkind
      split at hmember
      · cases hmember
      next found hfound =>
        obtain ⟨placed, hplaced, hmember⟩ := bind_eq_ok.mp hmember
        rw [hmembers] at hfound
        obtain ⟨type', -, htype', hmaterialized⟩ := h.find? hfound
        obtain rfl := Option.some.inj (htype.symm.trans htype')
        obtain rfl := materializeMember_pointer hkind hmaterialized
        obtain rfl := copyStorage_attachStorage type.byteSize hobject
          (copyStorage_of_placeMember hplaced) rfl rfl rfl
        obtain ⟨_, htarget', rfl⟩ := LocalScalarValue.attachPointerMetadata_pointer
          (attachStorage_kind _ _) hmember
        obtain rfl := Option.some.inj htarget'
        refine ⟨type, htype, hkind, ?_⟩
        rw [htarget]
        rfl

/-- A member that `inspect_inline_local_pointer_member` reads. -/
theorem Reads.readPointerMember_eq {members : List LocalStructMember}
    {type : LocalStructMemberType} (h : v.Reads pointer object pointee memory members)
    (hmem : type ∈ pointee.members) (hkind : type.kind = .pointer)
    (hmember : v.readPointerMember pointer type memberName = .ok member) :
    member = (memory.slice type.offset type.byteSize).pointer pointer.modulePath
      (pointer.name ++ "->" ++ memberName) type.byteSize (type.pointeeType.map (·.asInteger)) := by
  obtain ⟨hpos, hfit, hsigned⟩ := checkDereferencedMember_pointer hkind (h.checked type hmem)
  unfold readPointerMember at hmember
  obtain ⟨address, haddress, hmember⟩ := bind_eq_ok.mp hmember
  obtain ⟨part, hread, hmember⟩ := bind_eq_ok.mp hmember
  obtain ⟨raw, hraw, hmember⟩ := bind_eq_ok.mp hmember
  rw [if_pos hkind] at hmember
  obtain rfl := pure_eq_ok.mp hmember
  obtain rfl := checkedAddress_eq_ok haddress
  obtain rfl := decodeMemberScalar_eq_ok hraw
  obtain rfl := readSnapshotMemory_slice h.read hread hpos hfit
  rw [hkind, hsigned]
  rfl

/-- What `dereference_local_pointer_member` reads. -/
theorem dereferenceMember_eq {value : LocalScalarValue}
    (h : v.dereferenceMember member = .ok value) :
    ∃ target memory, member.pointeeType = some target ∧
      v.read member.rawValue target.byteSize = .ok memory ∧
      value = memory.integer member.modulePath ("*(" ++ member.name ++ ")") target := by
  unfold dereferenceMember at h
  split at h
  · cases h
  next target htarget =>
    simp only [throw_bind, ite_throw_eq_ok] at h
    obtain ⟨-, -, h⟩ := h
    obtain ⟨memory, hread, h⟩ := bind_eq_ok.mp h
    rw [materializeSnapshotMemoryValue_false] at h
    obtain ⟨read, hraw, rfl⟩ := Checks.map_eq_ok.mp h
    refine ⟨target, memory, htarget, hread, ?_⟩
    simp only [materializeSnapshotBytes, materializeSnapshotScalar, throw_bind,
      ite_throw_eq_ok] at hraw
    obtain ⟨-, -, -, hraw⟩ := hraw
    obtain ⟨raw, hdecode, hraw⟩ := bind_eq_ok.mp hraw
    obtain rfl := pure_eq_ok.mp hraw
    obtain rfl := pure_eq_ok.mp (ite_throw_eq_ok.mp hdecode).2
    rfl

/-- What the other dereferences of a member read. -/
theorem dereferenceSelected_eq {unbounded context : String} {value : LocalScalarValue}
    (h : v.dereferenceSelected unbounded context member = .ok value) :
    ∃ target memory, member.pointeeType = some target ∧
      v.read member.rawValue target.byteSize = .ok memory ∧
      value = memory.integer member.modulePath ("*(" ++ member.name ++ ")") target := by
  unfold dereferenceSelected at h
  split at h
  · cases h
  next target htarget =>
    simp only [throw_bind, ite_throw_eq_ok] at h
    obtain ⟨-, h⟩ := h
    obtain ⟨address, haddress, h⟩ := bind_eq_ok.mp h
    obtain ⟨memory, hread, h⟩ := bind_eq_ok.mp h
    obtain ⟨raw, hraw, h⟩ := bind_eq_ok.mp h
    obtain rfl := checkedAddress_eq_ok haddress
    obtain rfl := decodeMemberScalar_eq_ok hraw
    obtain rfl := pure_eq_ok.mp h
    rw [BitVec.add_zero] at hread
    exact ⟨target, memory, htarget, hread, rfl⟩

end CoreView

/-! ## Lookups -/

/-- By which lookup a pointer member is found. -/
inductive MemberLookup where
  | physical
  | inlined (inlineDieOffset : Word)

namespace MemberLookup

def inspect (lookup : MemberLookup) (v : CoreView) (name : String) :
    Except Exception LocalScalarValue :=
  match lookup with
  | physical => v.inspectLocalValue name
  | inlined inlineDieOffset => v.inspectInlineLocalValue inlineDieOffset name

def inspectMember (lookup : MemberLookup) (v : CoreView) (name memberName : String) :
    Except Exception LocalScalarValue :=
  match lookup with
  | physical => v.inspectLocalPointerMember name memberName
  | inlined inlineDieOffset => v.inspectInlineLocalPointerMember inlineDieOffset name memberName

def dereferenceMember (lookup : MemberLookup) (v : CoreView) (name memberName : String) :
    Except Exception LocalScalarValue :=
  match lookup with
  | physical => v.dereferenceLocalPointerMember name memberName
  | inlined inlineDieOffset => v.dereferenceInlineLocalPointerMember inlineDieOffset name memberName

/-- The lookup finds a pointer and, behind it, a pointer member, which can also be selected of the
structure that the pointer points to. -/
structure Selects (lookup : MemberLookup) (v : CoreView) (name memberName : String)
    (pointer object member selected : LocalScalarValue) : Prop where
  inspects : lookup.inspect v name = .ok pointer
  dereferences : v.dereference name pointer = .ok object
  finds : lookup.inspectMember v name memberName = .ok member
  isPointer : member.kind = .pointer
  selects : inspectLocalAggregateMember object memberName = .ok selected

/-- The lookup and the selection return one value with one pointee, and what they read at its
address is one integer. -/
def Commutes (lookup : MemberLookup) (v : CoreView) (name memberName : String) : Prop :=
  ∀ pointer object member selected,
    lookup.Selects v name memberName pointer object member selected →
      (member.SameStorage selected ∧ member.pointeeType = selected.pointeeType) ∧
      ∀ value other, lookup.dereferenceMember v name memberName = .ok value →
        v.dereferenceLocalAggregateMember object memberName = .ok other →
        value.SameStorage other ∧ value.isSigned = other.isSigned ∧ value.kind = other.kind

end MemberLookup

/-- The pointee of the pointer has no member of the name that points to a structure. -/
def LocalScalarValue.PointsToIntegers (pointer : LocalScalarValue) (memberName : String) : Prop :=
  ∀ pointee ∈ pointer.pointeeType, ∀ type ∈ pointee.memberNamed memberName,
    ∀ target ∈ type.pointeeType, target.kind = .integer

namespace MemberLookup

variable {lookup : MemberLookup} {v : CoreView} {name memberName : String}
  {pointer object member selected : LocalScalarValue}

theorem readPointerMember_kind {type : LocalStructMemberType}
    (h : v.readPointerMember pointer type memberName = .ok member) : member.kind = type.kind := by
  unfold CoreView.readPointerMember at h
  obtain ⟨address, -, h⟩ := bind_eq_ok.mp h
  obtain ⟨part, -, h⟩ := bind_eq_ok.mp h
  obtain ⟨raw, -, h⟩ := bind_eq_ok.mp h
  split at h
  · obtain rfl := pure_eq_ok.mp h
    exact attachStorage_kind _ _
  · obtain rfl := pure_eq_ok.mp h
    exact attachStorage_kind _ _

/-- Where the member is stored, and what the two ways take it for. -/
theorem Selects.located (h : lookup.Selects v name memberName pointer object member selected) :
    ∃ pointee type selectedName, ∃ memory : SnapshotMemoryRead,
      pointer.pointeeType = some pointee ∧ pointee.memberNamed memberName = some type ∧
      member = memory.pointer pointer.modulePath (pointer.name ++ "->" ++ memberName)
        type.byteSize (type.pointeeType.map (·.asInteger)) ∧
      selected = memory.pointer object.modulePath selectedName type.byteSize
        (type.pointeeType.map (·.selected)) := by
  obtain ⟨hpointer, hobject, hmember, hkind, hselected⟩ := h
  cases lookup with
  | physical =>
    simp only [inspectMember, CoreView.inspectLocalPointerMember, throw_bind, ite_throw_eq_ok]
      at hmember
    obtain ⟨-, hmember⟩ := hmember
    rw [show v.inspectLocalValue name = .ok pointer from hpointer, ok_bind] at hmember
    split at hmember
    · cases hmember
    next pointee hpointee =>
      simp only [ite_throw_eq_ok, not_or, not_not] at hmember
      obtain ⟨⟨-, hstructure⟩, hmember⟩ := hmember
      rw [show v.dereferenceLocalPointer name = .ok object by
        rw [CoreView.dereferenceLocalPointer, show v.inspectLocalValue name = .ok pointer from
          hpointer, ok_bind, hobject], ok_bind] at hmember
      obtain ⟨memory, members, hreads⟩ :=
        CoreView.reads_of_dereference hpointee hstructure hobject
      obtain ⟨type, htype, htypeKind, hmember⟩ := hreads.selectPointerMember_eq hmember
      obtain ⟨type', -, htype', hselected⟩ := hreads.selected_eq hselected
      obtain rfl := Option.some.inj (htype.symm.trans htype')
      exact ⟨pointee, type, _, _, hpointee, htype, hmember, hselected htypeKind⟩
  | inlined inlineDieOffset =>
    simp only [inspectMember, CoreView.inspectInlineLocalPointerMember, throw_bind,
      ite_throw_eq_ok] at hmember
    obtain ⟨-, hmember⟩ := hmember
    rw [show v.inspectInlineLocalValue inlineDieOffset name = .ok pointer from hpointer,
      ok_bind] at hmember
    split at hmember
    · cases hmember
    next pointee hpointee =>
      simp only [ite_throw_eq_ok, not_or, not_not] at hmember
      obtain ⟨⟨-, hstructure⟩, -, hmember⟩ := hmember
      split at hmember
      · cases hmember
      next type htype =>
        obtain ⟨⟨⟩, -, hmember⟩ := bind_eq_ok.mp hmember
        have htypeKind := (readPointerMember_kind hmember).symm.trans hkind
        obtain ⟨memory, members, hreads⟩ :=
          CoreView.reads_of_dereference hpointee hstructure hobject
        obtain ⟨type', hmem, htype', hselected⟩ := hreads.selected_eq hselected
        obtain rfl := Option.some.inj (htype.symm.trans htype')
        exact ⟨pointee, type, _, _, hpointee, htype,
          hreads.readPointerMember_eq hmem htypeKind hmember, hselected htypeKind⟩

theorem dereferenceMember_cases {value : LocalScalarValue}
    (hmember : lookup.inspectMember v name memberName = .ok member)
    (h : lookup.dereferenceMember v name memberName = .ok value) :
    ∃ target memory, member.pointeeType = some target ∧
      v.read member.rawValue target.byteSize = .ok memory ∧
      value = memory.integer member.modulePath ("*(" ++ member.name ++ ")") target := by
  cases lookup with
  | physical =>
    obtain ⟨found, hfound, h⟩ := bind_eq_ok.mp h
    obtain rfl := Except.ok.inj (hmember.symm.trans hfound)
    exact CoreView.dereferenceMember_eq h
  | inlined inlineDieOffset =>
    obtain ⟨found, hfound, h⟩ := bind_eq_ok.mp h
    obtain rfl := Except.ok.inj (hmember.symm.trans hfound)
    exact CoreView.dereferenceSelected_eq h

/-- The two ways to a member lead to one value with one pointee, and to one integer behind it,
where no structure is pointed to. -/
theorem commutes_iff (lookup : MemberLookup) (v : CoreView) (name memberName : String) :
    lookup.Commutes v name memberName ↔ ∀ pointer object member selected,
      lookup.Selects v name memberName pointer object member selected →
        pointer.PointsToIntegers memberName := by
  refine forall₄_congr fun pointer object member selected => forall_congr' fun h => ?_
  obtain ⟨pointee, type, selectedName, memory, hpointee, htype, hmember, hselected⟩ := h.located
  have hsame : member.SameStorage selected := by
    rw [hmember, hselected]
    exact memory.sameStorage_pointer
  have hpointees : member.pointeeType = selected.pointeeType ↔
      pointer.PointsToIntegers memberName := by
    have hinteger : member.pointeeType = type.pointeeType.map (·.asInteger) := by rw [hmember]; rfl
    have hselect : selected.pointeeType = type.pointeeType.map (·.selected) := by
      rw [hselected]; rfl
    rw [hinteger, hselect]
    cases htarget : type.pointeeType with
    | none => simp [LocalScalarValue.PointsToIntegers, hpointee, htype, htarget]
    | some target =>
      simp only [LocalScalarValue.PointsToIntegers, hpointee, htype, htarget, Option.mem_some,
        forall_eq', Option.map_some, Option.some.injEq]
      exact eq_comm.trans target.selected_eq_asInteger_iff
  refine ⟨fun hcommutes => hpointees.mp hcommutes.1.2, fun hintegers => ⟨⟨hsame,
    hpointees.mpr hintegers⟩, fun value other hvalue hother => ?_⟩⟩
  obtain ⟨target, read, htarget, hread, rfl⟩ := dereferenceMember_cases h.finds hvalue
  obtain ⟨found, hfound, hother⟩ := bind_eq_ok.mp hother
  obtain rfl := Except.ok.inj (h.selects.symm.trans hfound)
  obtain ⟨target', read', htarget', hread', rfl⟩ := CoreView.dereferenceSelected_eq hother
  rw [hpointees.mpr hintegers, htarget'] at htarget
  obtain rfl := Option.some.inj htarget
  rw [hsame.rawValue, hread'] at hread
  obtain rfl := Except.ok.inj hread
  exact SnapshotMemoryRead.same_integer _

end MemberLookup

/-- A function with a pointer `p` to a structure whose member `inner` points to a structure. -/
def innerUnit : DieUnit where
  dies := [⟨0x0b, 0x11, none, []⟩,
    ⟨0x10, kDwTagSubprogram, some 0, [
      { name := kDwAtLowPc, form := kDwFormAddr, number := 0x1000 },
      { name := kDwAtHighPc, form := kDwFormData4, number := 0x100 }]⟩,
    ⟨0x20, kDwTagVariable, some 1, [
      { name := kDwAtName, form := 0x08, text := "p" },
      { name := kDwAtType, form := kDwFormRef4, number := 0x30 },
      { name := kDwAtLocation, form := kDwFormExprloc, expression := [kSnapshotDwOpRdi] }]⟩,
    ⟨0x30, kDwTagPointerType, some 0, [{ name := kDwAtType, form := kDwFormRef4, number := 0x40 }]⟩,
    ⟨0x40, kDwTagStructureType, some 0,
      [{ name := kDwAtByteSize, form := kDwFormData1, number := 8 }]⟩,
    ⟨0x48, kDwTagMember, some 4, [
      { name := kDwAtName, form := 0x08, text := "inner" },
      { name := kDwAtType, form := kDwFormRef4, number := 0x50 },
      { name := kDwAtDataMemberLocation, form := kDwFormData1, number := 0 }]⟩,
    ⟨0x50, kDwTagPointerType, some 0, [{ name := kDwAtType, form := kDwFormRef4, number := 0x60 }]⟩,
    ⟨0x60, kDwTagStructureType, some 0,
      [{ name := kDwAtByteSize, form := kDwFormData1, number := 4 }]⟩,
    ⟨0x68, kDwTagMember, some 7, [
      { name := kDwAtName, form := 0x08, text := "a" },
      { name := kDwAtType, form := kDwFormRef4, number := 0x70 },
      { name := kDwAtDataMemberLocation, form := kDwFormData1, number := 0 }]⟩,
    ⟨0x70, kDwTagBaseType, some 0, [
      { name := kDwAtByteSize, form := kDwFormData1, number := 4 },
      { name := kDwAtEncoding, form := kDwFormData1, number := kDwAteSigned }]⟩]
  ascending := by decide
  rooted := by decide

/-- A stop in that function. -/
def innerView : CoreView where
  snapshot := {
    bytes := [0x08, 0x70, 0, 0, 0, 0, 0, 0, 0x2a, 0, 0, 0, 0, 0, 0, 0]
    loadSegments := [⟨0x7000, 0x10, 0, 0x10⟩]
    fileMappings := [⟨0x1000, 0x2000, 0, "/bin/list"⟩]
    threads := [⟨10, 11, { rip := 0x1010, rsp := 0x7f00, rdi := 0x7000 }⟩] }
  frame := {
    index := 0
    threadTid := 10
    threadSignalNumber := 11
    originRuntimePc := 0x1010
    originStackPointer := 0x7f00
    originFramePointer := some 0
    runtimePc := 0x1010
    stackPointer := 0x7f00
    framePointer := some 0
    pcOwnership := .exactInstruction
    modulePath := "/bin/list"
    registers := { rdi := some 0x7000 } }
  files := {
    sameFile := fun left right => left = right
    elf := fun path => .ok ⟨path, path, .exec, 0⟩
    ehFrame := fun _ => .error (.runtimeError "no .eh_frame")
    signalIndex := fun _ => .error (.runtimeError "no .eh_frame")
    resolve := .ok }
  artifact := fun _ => none
  debug := fun _ => .ok ⟨[.ok innerUnit], {}, .error (.runtimeError "no ranges")⟩

/-- The lookup finds an integer of four bytes behind `inner`, the selection a structure. -/
theorem not_commutes_inner : ¬MemberLookup.physical.Commutes innerView "p" "inner" := by
  intro h
  have hdiffer : (do
      let pointer ← innerView.inspectLocalValue "p"
      let object ← innerView.dereference "p" pointer
      let member ← innerView.inspectLocalPointerMember "p" "inner"
      let selected ← inspectLocalAggregateMember object "inner"
      return (member.kind, member.pointeeType.map LocalValueType.kind,
        selected.pointeeType.map LocalValueType.kind)) =
      .ok (.pointer, some .integer, some .structure_) := by decide +kernel
  obtain ⟨pointer, hpointer, hdiffer⟩ := bind_eq_ok.mp hdiffer
  obtain ⟨object, hobject, hdiffer⟩ := bind_eq_ok.mp hdiffer
  obtain ⟨member, hmember, hdiffer⟩ := bind_eq_ok.mp hdiffer
  obtain ⟨selected, hselected, hdiffer⟩ := bind_eq_ok.mp hdiffer
  simp only [pure_eq_ok, Prod.mk.injEq] at hdiffer
  obtain ⟨hkind, hinteger, hstructure⟩ := hdiffer
  have hsame := h pointer object member selected ⟨hpointer, hobject, hmember, hkind, hselected⟩
  rw [hsame.1.2, hstructure] at hinteger
  cases hinteger

end MiniDebugger
