import MiniDebugger.Dwarf.FrameZero
import MiniDebugger.Dwarf.TypeChecks

/-!
# Selecting the members of a structure

A member of a structure value is selected by its name. The selector finds the first member of that
name and checks it again, so a member can be selected if a member of its name that is read from the
same bits comes first, and if the check passes it. These are the structures for which the stages
behind the type resolvers agree with them.
-/

namespace MiniDebugger

open Checks

/-! ## Raw values -/

namespace LocalStructMemberType

variable {left right member : LocalStructMemberType} {bytes : List Byte}
  {base base' length structSize : Nat}

theorem layout_storage : (member.layout base).storage = member.byteSize * 8 := by
  unfold layout
  split <;> rfl

theorem layout_fits_of_scalar (hslice : member.bitSlice = none)
    (h : IsScalarIn structSize (base + member.offset) member.byteSize) :
    (member.layout base).Fits (structSize * 8) := by
  have := h.size_pos
  have := h.fits
  unfold layout
  rw [hslice]
  exact ⟨by dsimp only; omega, Nat.le_refl _, by dsimp only; omega, by simp⟩

theorem Shape.layout_fits (h : member.Shape structSize) (hkind : member.kind ≠ .structure_) :
    (member.layout 0).Fits (structSize * 8) ∧ member.byteSize ≤ 8 := by
  cases h with
  | direct h =>
    cases h with
    | integer hname hscalar =>
      exact ⟨layout_fits_of_scalar rfl (by simpa using hscalar), hscalar.size_le⟩
    | pointer hname hscalar =>
      exact ⟨layout_fits_of_scalar rfl (by simpa using hscalar), hscalar.size_le⟩
    | enumeration hname hscalar =>
      exact ⟨layout_fits_of_scalar rfl (by simpa using hscalar), hscalar.size_le⟩
  | bitField hname hpos hle hbits hstorage hfits =>
    refine ⟨⟨hbits, hstorage, by simpa [layout] using hfits, fun h => ?_⟩, hle⟩
    simp only [layout, Bool.and_eq_true, decide_eq_true_eq] at h
    exact h.2
  | nested => exact absurd rfl hkind

/-- Two members of one width have the same raw value in all bytes exactly when they have the same
layout. -/
theorem rawIn_eq_iff (hleft : (left.layout base).Fits (length * 8))
    (hright : (right.layout base').Fits (length * 8)) (hsize : left.byteSize = right.byteSize)
    (hle : right.byteSize ≤ 8) :
    (∀ bytes : List Byte, bytes.length = length → left.rawIn bytes base = right.rawIn bytes base') ↔
      left.layout base = right.layout base' := by
  have hstorage : (left.layout base).storage = (right.layout base').storage := by
    rw [layout_storage, layout_storage, hsize]
  constructor
  · intro hraw
    refine BitLayout.ReadAlike.eq (fun bytes hbytes i => ?_) hleft hright hstorage
    by_cases hi : i < 64
    · rw [← getLsbD_rawIn hleft (hsize ▸ hle) hi, ← getLsbD_rawIn hright hle hi, hraw bytes hbytes]
    · have habove (layout : BitLayout) (hsmall : layout.storage ≤ 64)
          (hfits : layout.size ≤ layout.storage) : layout.bit bytes i = false := by
        unfold BitLayout.bit
        rw [if_neg (by omega), decide_eq_false (by omega), Bool.false_and, Bool.false_and]
      have hsmall : (right.layout base').storage ≤ 64 := by
        rw [layout_storage]
        omega
      rw [habove _ (hstorage ▸ hsmall) hleft.size_le, habove _ hsmall hright.size_le]
  · intro hlayout bytes _
    refine BitVec.eq_of_getLsbD_eq fun i hi => ?_
    rw [getLsbD_rawIn hleft (hsize ▸ hle) hi, getLsbD_rawIn hright hle hi, hlayout]

/-- A member of a nested structure is one of the structure that its bytes are. -/
theorem terminalIn_eq_valueIn {name : String} {offset size : Nat} {isSigned : Bool} :
    LocalStructMemberType.terminalIn bytes base { name, offset, byteSize := size, isSigned } =
      LocalStructMemberType.valueIn (bytes.drop base)
        { name, offset, byteSize := size, isSigned } := by
  simp [terminalIn, valueIn, rawIn, List.drop_drop]

/-- The type of the value of a nested structure. -/
def inner (member : LocalStructMemberType) : LocalValueType where
  byteSize := member.byteSize
  isSigned := false
  kind := .structure_
  members := member.members

/-- What the resolver of nested structures says of their members. -/
theorem Shape.nested_members (h : member.Shape structSize) (hkind : member.kind = .structure_) :
    member.inner.Shape ∧ member.offset + member.byteSize ≤ structSize ∧
      (member.members.map (·.name)).Nodup ∧
      ∀ terminal ∈ member.members, ∃ name offset size isSigned,
        terminal = { name, offset, byteSize := size, isSigned } ∧ name ≠ "" ∧
          IsScalarIn member.byteSize offset size := by
  cases h with
  | direct h => cases h <;> cases hkind
  | bitField => cases hkind
  | nested hname hpos hle hfits hne hlength hmembers hnames =>
    refine ⟨.structure_ hpos hle hne hlength fun terminal hterminal => ?_, hfits, hnames, hmembers⟩
    obtain ⟨name, offset, size, isSigned, rfl, hname, hscalar⟩ := hmembers terminal hterminal
    exact .direct (.integer hname hscalar)

theorem Shape.members_nil (h : member.Shape structSize) (hkind : member.kind ≠ .structure_) :
    member.members = [] := by
  cases h with
  | direct h => cases h <;> rfl
  | bitField => rfl
  | nested => exact absurd rfl hkind

theorem Shape.name_ne (h : member.Shape structSize) : member.name ≠ "" := by
  cases h with
  | direct h => cases h <;> assumption
  | bitField hname => exact hname
  | nested hname => exact hname

end LocalStructMemberType

/-! ## Selecting -/

/-- The member that a name stands for. -/
def LocalValueType.field (type : LocalValueType) (memberName : String) :
    Option LocalStructMemberType :=
  type.members.find? fun member => member.name = memberName

theorem LocalValueType.mem_of_field {type : LocalValueType} {memberName : String}
    {field : LocalStructMemberType} (h : type.field memberName = some field) :
    field ∈ type.members ∧ field.name = memberName :=
  ⟨List.mem_of_find?_eq_some h, by simpa using List.find?_some h⟩

/-- Members of distinct names are all found. -/
theorem LocalValueType.field_of_nodup (type : LocalValueType) {member : LocalStructMemberType}
    (hnames : (type.members.map (·.name)).Nodup) (hmember : member ∈ type.members) :
    type.field member.name = some member := by
  unfold field
  obtain ⟨field, hfield⟩ := Option.isSome_iff_exists.mp
    (List.find?_isSome (p := fun other : LocalStructMemberType => decide (other.name = member.name))
      |>.mpr ⟨member, hmember, by simp⟩)
  have hname : field.name = member.name := by simpa using List.find?_some hfield
  rw [hfield, List.inj_on_of_nodup_map hnames (List.mem_of_find?_eq_some hfield) hmember hname]

namespace LocalScalarValue

/-- What a selector returns for a member. -/
structure Shows (member : LocalStructMember) (value : LocalScalarValue) : Prop where
  rawValue : value.rawValue = member.rawValue
  byteSize : value.byteSize = member.byteSize
  kind : value.kind = member.kind

/-- The value of a structure whose bytes these are. In an artifact it ends before the last offset
that a file can have. -/
structure IsStructure (type : LocalValueType) (bytes : List Byte) (value : LocalScalarValue) :
    Prop where
  kind : value.kind = .structure_
  byteSize : value.byteSize = type.byteSize
  members : value.members = type.members.map (·.valueIn bytes)
  placed : value.storage = .snapshotRuntimeArtifact →
    value.storageFileOffset.toNat + value.byteSize < 2 ^ 64

variable {type : LocalValueType} {bytes : List Byte} {value selected : LocalScalarValue}
  {member : LocalStructMember} {field : LocalStructMemberType} {memberName : String}

/-- The value is the other one, moved to an offset from its owner. -/
structure MovedTo (owner : LocalScalarValue) (byteOffset : Nat) (value moved : LocalScalarValue) :
    Prop where
  rawValue : moved.rawValue = value.rawValue
  byteSize : moved.byteSize = value.byteSize
  kind : moved.kind = value.kind
  storage : moved.storage = owner.storage
  offset : owner.storage = .snapshotRuntimeArtifact →
    moved.storageFileOffset.toNat = owner.storageFileOffset.toNat + byteOffset

theorem copyStorage_eq_ok {owner : LocalScalarValue} {byteOffset : Nat} (value : LocalScalarValue)
    (h : owner.storage = .snapshotRuntimeArtifact →
      owner.storageFileOffset.toNat + byteOffset < 2 ^ 64) :
    ∃ moved, copyStorage value owner byteOffset = .ok moved ∧
      MovedTo owner byteOffset value moved := by
  unfold copyStorage
  by_cases hstorage : owner.storage = .snapshotRuntimeArtifact
  · have hroom := h hstorage
    rw [if_neg (not_not.mpr hstorage), if_neg (by omega)]
    refine ⟨_, rfl, rfl, rfl, rfl, rfl, fun _ => ?_⟩
    rw [BitVec.toNat_add, BitVec.toNat_ofNat, Nat.mod_eq_of_lt (by omega : byteOffset < 2 ^ 64),
      Nat.mod_eq_of_lt hroom]
  · rw [if_pos hstorage]
    exact ⟨_, rfl, rfl, rfl, rfl, rfl, fun hartifact => absurd hartifact hstorage⟩

/-- What comes with a member leaves the rest of the value alone. -/
theorem MovedTo.attachMember {owner moved : LocalScalarValue} {byteOffset : Nat}
    (h : MovedTo owner byteOffset value moved) (member : LocalStructMember) :
    MovedTo owner byteOffset value (attachMember moved member) := by
  unfold MiniDebugger.attachMember
  split <;> exact ⟨h.rawValue, h.byteSize, h.kind, h.storage, h.offset⟩

theorem attachMember_members (hkind : member.kind = .structure_) :
    (attachMember value member).members = member.members := by
  unfold attachMember
  rw [hkind]

theorem IsStructure.find? (h : value.IsStructure type bytes) :
    (value.members.find? fun member => member.name = memberName) =
      (type.field memberName).map (·.valueIn bytes) := by
  rw [h.members, List.find?_map]
  rfl

/-- The member that is selected, where it is. -/
theorem IsStructure.aggregateMember_eq_ok_iff (h : value.IsStructure type bytes)
    (hshape : type.Shape) (hkind : type.kind = .structure_) :
    aggregateMember value memberName = .ok member ↔
      memberName ≠ "" ∧ ∃ field, type.field memberName = some field ∧
        field.Selectable type.byteSize ∧ member = field.valueIn bytes := by
  obtain ⟨-, -, hne, hmembers⟩ := hshape.members hkind
  unfold aggregateMember
  simp only [throw_bind, ite_throw_eq_ok]
  refine and_congr_right fun _ => ?_
  rw [h.find?, h.members]
  cases hfield : type.field memberName with
  | none => simp
  | some field =>
    have hcheck : checkAggregateMember value (field.valueIn bytes) = .ok () ↔
        field.Selectable type.byteSize :=
      checkAggregateMember_eq_ok (hmembers field (LocalValueType.mem_of_field hfield).1) h.byteSize
    simp only [Option.map_some, bind_eq_ok, pure_eq_ok, Option.some.injEq, exists_eq_left']
    simp only [h.kind, hne, ne_eq, not_true_eq_false, List.isEmpty_map, List.isEmpty_iff, or_self,
      not_false_eq_true, true_and]
    constructor
    · rintro ⟨_, hok, rfl⟩
      exact ⟨hcheck.mp hok, rfl⟩
    · rintro ⟨hok, rfl⟩
      exact ⟨(), hcheck.mpr hok, rfl⟩

/-- What is selected for a member that has passed the check. -/
theorem IsStructure.inspect_of_aggregate (h : value.IsStructure type bytes)
    (hmember : aggregateMember value memberName = .ok (field.valueIn bytes))
    (hfits : field.offset + field.byteSize ≤ type.byteSize) (hshape : field.Shape type.byteSize) :
    ∃ selected, inspectLocalAggregateMember value memberName = .ok selected ∧
      selected.Shows (field.valueIn bytes) ∧
      (field.kind = .structure_ → selected.IsStructure field.inner (bytes.drop field.offset)) := by
  have hroom (hstorage : value.storage = .snapshotRuntimeArtifact) :
      value.storageFileOffset.toNat + field.offset < 2 ^ 64 := by
    have hlast := h.placed hstorage
    rw [h.byteSize] at hlast
    omega
  obtain ⟨moved, hcopy, hmoved⟩ := copyStorage_eq_ok
    { modulePath := value.modulePath, name := value.name ++ "." ++ memberName
      rawValue := (field.valueIn bytes).rawValue, byteSize := field.byteSize
      isSigned := field.isSigned, kind := field.kind } hroom
  have hattached := hmoved.attachMember (field.valueIn bytes)
  refine ⟨_, bind_eq_ok.mpr ⟨_, hmember, bind_eq_ok.mpr ⟨moved, hcopy, rfl⟩⟩,
    ⟨hattached.rawValue, hattached.byteSize, hattached.kind⟩, fun hkind => ?_⟩
  refine ⟨hattached.kind.trans hkind, hattached.byteSize, ?_, fun hstorage => ?_⟩
  · rw [attachMember_members hkind]
    refine List.map_congr_left fun terminal hterminal => ?_
    obtain ⟨name, offset, size, isSigned, rfl, -, -⟩ :=
      (hshape.nested_members hkind).2.2.2 terminal hterminal
    exact LocalStructMemberType.terminalIn_eq_valueIn
  · have howner := hattached.storage.symm.trans hstorage
    have hlast := h.placed howner
    rw [hattached.offset howner, hattached.byteSize]
    rw [h.byteSize] at hlast
    dsimp only
    omega

variable (h : value.IsStructure type bytes) (hshape : type.Shape) (hkind : type.kind = .structure_)

include h hshape hkind

theorem IsStructure.inspect_eq_ok (hname : memberName ≠ "")
    (hfield : type.field memberName = some field) (hselectable : field.Selectable type.byteSize) :
    ∃ selected, inspectLocalAggregateMember value memberName = .ok selected := by
  obtain ⟨-, -, -, hmembers⟩ := hshape.members hkind
  obtain ⟨selected, hselected, -⟩ := h.inspect_of_aggregate
    ((h.aggregateMember_eq_ok_iff hshape hkind).mpr ⟨hname, field, hfield, hselectable, rfl⟩)
    hselectable.fits (hmembers field (LocalValueType.mem_of_field hfield).1)
  exact ⟨selected, hselected⟩

theorem IsStructure.of_inspect
    (hselected : inspectLocalAggregateMember value memberName = .ok selected) :
    memberName ≠ "" ∧ ∃ field, type.field memberName = some field ∧
      field.Selectable type.byteSize ∧ selected.Shows (field.valueIn bytes) ∧
      (field.kind = .structure_ → selected.IsStructure field.inner (bytes.drop field.offset)) := by
  obtain ⟨-, -, -, hmembers⟩ := hshape.members hkind
  obtain ⟨member, hmember, -⟩ := bind_eq_ok.mp hselected
  obtain ⟨hname, field, hfield, hselectable, rfl⟩ :=
    (h.aggregateMember_eq_ok_iff hshape hkind).mp hmember
  obtain ⟨selected', hselected', hshows, hinner⟩ := h.inspect_of_aggregate hmember
    hselectable.fits (hmembers field (LocalValueType.mem_of_field hfield).1)
  obtain rfl := Except.ok.inj (hselected.symm.trans hselected')
  exact ⟨hname, field, hfield, hselectable, hshows, hinner⟩

/-- A name that stands for no member, or for one that can be selected, is never answered with lost
metadata. -/
theorem IsStructure.avoids_inspect
    (hall : ∀ field, type.field memberName = some field → field.Selectable type.byteSize) :
    Avoids LostMetadata (inspectLocalAggregateMember value memberName) := by
  obtain ⟨-, -, hne, -⟩ := hshape.members hkind
  by_cases hname : memberName = ""
  · subst hname
    exact avoids_throw_iff.mpr (not_lostMetadata_invalidArgument _)
  cases hfield : type.field memberName with
  | some field =>
    obtain ⟨selected, hselected⟩ := h.inspect_eq_ok hshape hkind hname hfield (hall field hfield)
    exact avoids_of_eq_ok hselected
  | none =>
    refine avoids_bind ?_ fun member hmember => ?_
    · unfold aggregateMember
      rw [if_neg hname, if_neg (by simp [h.kind, h.members, hne]), h.find?, hfield]
      exact avoids_throw_iff.mpr (not_lostMetadata_runtimeError _)
    · obtain ⟨-, field, hsome, -⟩ := (h.aggregateMember_eq_ok_iff hshape hkind).mp hmember
      cases hfield.symm.trans hsome

/-! ## Selecting from a nested structure -/

/-- A member of a nested structure is always selected from it. -/
theorem IsStructure.nested_eq_ok {found : LocalStructMemberType} (hname : memberName ≠ "")
    (hfield : type.field memberName = some field) (hselectable : field.Selectable type.byteSize)
    (hnested : field.kind = .structure_) (hfound : found ∈ field.members) :
    ∃ selected, inspectLocalNestedAggregateMember value memberName found.name = .ok selected ∧
      selected.Shows (found.terminalIn bytes field.offset) := by
  obtain ⟨-, -, -, hmembers⟩ := hshape.members hkind
  obtain ⟨hinnerShape, -, hnames, hterminals⟩ :=
    (hmembers field (LocalValueType.mem_of_field hfield).1).nested_members hnested
  obtain ⟨name, offset, size, isSigned, rfl, hfoundName, hscalar⟩ := hterminals found hfound
  obtain ⟨inner, hinner⟩ := h.inspect_eq_ok hshape hkind hname hfield hselectable
  obtain ⟨-, field', hfield', -, -, hstructure⟩ := h.of_inspect hshape hkind hinner
  obtain rfl := Option.some.inj (hfield.symm.trans hfield')
  have hfoundField : field.inner.field name = some { name, offset, byteSize := size, isSigned } :=
    field.inner.field_of_nodup hnames hfound
  obtain ⟨selected, hselected⟩ := (hstructure hnested).inspect_eq_ok hinnerShape rfl hfoundName
    hfoundField ⟨hscalar.fits, by simp⟩
  obtain ⟨-, found', hfound', -, hshows, -⟩ :=
    (hstructure hnested).of_inspect hinnerShape rfl hselected
  obtain rfl := Option.some.inj (hfoundField.symm.trans hfound')
  refine ⟨selected, bind_eq_ok.mpr ⟨inner, hinner, ?_⟩, ?_⟩
  · rw [if_neg (not_not.mpr (hstructure hnested).kind)]
    refine bind_eq_ok.mpr ⟨selected, hselected, ?_⟩
    rw [if_neg (by rw [hshows.kind]; simp [LocalStructMemberType.valueIn])]
    rfl
  · rwa [LocalStructMemberType.terminalIn_eq_valueIn]

theorem IsStructure.of_nested {terminalName : String}
    (hselected : inspectLocalNestedAggregateMember value memberName terminalName = .ok selected) :
    ∃ field, type.field memberName = some field ∧ field.kind = .structure_ ∧
      ∃ found ∈ field.members, found.name = terminalName ∧
        selected.Shows (found.terminalIn bytes field.offset) := by
  obtain ⟨-, -, -, hmembers⟩ := hshape.members hkind
  obtain ⟨inner, hinner, hselected⟩ := bind_eq_ok.mp hselected
  obtain ⟨-, field, hfield, -, hshows, hstructure⟩ := h.of_inspect hshape hkind hinner
  obtain ⟨hinnerKind, hselected⟩ := ite_throw_eq_ok.mp hselected
  have hnested : field.kind = .structure_ := hshows.kind.symm.trans (not_not.mp hinnerKind)
  obtain ⟨hinnerShape, -, -, hterminals⟩ :=
    (hmembers field (LocalValueType.mem_of_field hfield).1).nested_members hnested
  obtain ⟨terminal, hterminal, hselected⟩ := bind_eq_ok.mp hselected
  obtain rfl := pure_eq_ok.mp (ite_throw_eq_ok.mp hselected).2
  obtain ⟨-, found, hfound, -, hfoundShows, -⟩ :=
    (hstructure hnested).of_inspect hinnerShape rfl hterminal
  obtain ⟨hmem, hname⟩ := LocalValueType.mem_of_field hfound
  refine ⟨field, hfield, hnested, found, hmem, hname, ?_⟩
  obtain ⟨name, offset, size, isSigned, rfl, -, -⟩ := hterminals found hmem
  rwa [LocalStructMemberType.terminalIn_eq_valueIn]

theorem IsStructure.avoids_nested {terminalName : String}
    (hall : ∀ field, type.field memberName = some field → field.Selectable type.byteSize) :
    Avoids LostMetadata (inspectLocalNestedAggregateMember value memberName terminalName) := by
  obtain ⟨-, -, -, hmembers⟩ := hshape.members hkind
  refine avoids_bind (h.avoids_inspect hshape hkind hall) fun inner hinner => ?_
  obtain ⟨-, field, hfield, -, hshows, hstructure⟩ := h.of_inspect hshape hkind hinner
  refine avoids_ite (fun _ => ?_) fun hinnerKind => ?_
  · exact avoids_throw_iff.mpr (not_lostMetadata_runtimeError _)
  have hnested : field.kind = .structure_ := hshows.kind.symm.trans (not_not.mp hinnerKind)
  obtain ⟨hinnerShape, -, -, hterminals⟩ :=
    (hmembers field (LocalValueType.mem_of_field hfield).1).nested_members hnested
  refine avoids_bind ((hstructure hnested).avoids_inspect hinnerShape rfl fun found hfound => ?_)
    fun terminal _ => avoids_ite (fun _ => ?_) fun _ => avoids_pure
  · obtain ⟨name, offset, size, isSigned, rfl, -, hscalar⟩ :=
      hterminals found (LocalValueType.mem_of_field hfound).1
    exact ⟨hscalar.fits, by simp⟩
  · exact avoids_throw_iff.mpr (not_lostMetadata_runtimeError _)

end LocalScalarValue

/-! ## Members that are found -/

/-- The one member has in all bytes the value of the other. -/
structure LocalStructMemberType.ReadAs (field member : LocalStructMemberType) : Prop where
  kind : field.kind = member.kind
  byteSize : field.byteSize = member.byteSize
  layout : member.kind ≠ .structure_ → field.layout 0 = member.layout 0
  terminals : ∀ terminal ∈ member.members, ∃ found ∈ field.members, found.name = terminal.name ∧
    found.byteSize = terminal.byteSize ∧
    found.layout field.offset = terminal.layout member.offset

/-- Under the name of each member of the structure, the first member passes the check and is read
as that member. -/
def LocalValueType.MembersFound (type : LocalValueType) : Prop :=
  type.kind = .structure_ → ∀ member ∈ type.members, ∃ field, type.field member.name = some field ∧
    field.Selectable type.byteSize ∧ field.ReadAs member

/-- The selectors return every member as it is in the value. -/
structure LocalScalarValue.MembersSelectable (value : LocalScalarValue) : Prop where
  direct : ∀ member ∈ value.members, ∃ selected,
    inspectLocalAggregateMember value member.name = .ok selected ∧ selected.Shows member
  nested : ∀ member ∈ value.members, ∀ child ∈ member.members, ∃ selected,
    inspectLocalNestedAggregateMember value member.name child.name = .ok selected ∧
      selected.Shows child

section Members

variable {type : LocalValueType} {bytes : List Byte} {value : LocalScalarValue}
  {field member terminal found : LocalStructMemberType} {structSize : Nat}

/-- Members that are not structures show the same value when their layouts agree. -/
theorem rawValue_valueIn_eq (hfield : field.Shape bytes.length)
    (hmember : member.Shape bytes.length) (h : field.ReadAs member) :
    (field.valueIn bytes).rawValue = (member.valueIn bytes).rawValue := by
  change (if field.kind = .structure_ then 0 else field.rawIn bytes 0) =
    if member.kind = .structure_ then 0 else member.rawIn bytes 0
  rw [h.kind]
  split
  · rfl
  next hkind =>
    obtain ⟨hfits, -⟩ := hfield.layout_fits (h.kind ▸ hkind)
    obtain ⟨hfits', hle⟩ := hmember.layout_fits hkind
    exact (LocalStructMemberType.rawIn_eq_iff hfits hfits' h.byteSize hle).mpr (h.layout hkind)
      bytes rfl

/-- The layout of a member of a nested structure, in the outer one. -/
theorem terminal_fits (h : member.Shape structSize) (hkind : member.kind = .structure_)
    (hterminal : terminal ∈ member.members) :
    (terminal.layout member.offset).Fits (structSize * 8) ∧ terminal.byteSize ≤ 8 ∧
      terminal.kind = .integer := by
  obtain ⟨-, hfits, -, hterminals⟩ := h.nested_members hkind
  obtain ⟨name, offset, size, isSigned, rfl, -, hscalar⟩ := hterminals terminal hterminal
  have hinside := hscalar.fits
  exact ⟨LocalStructMemberType.layout_fits_of_scalar rfl
    ⟨hscalar.size_pos, hscalar.size_le, by dsimp only; omega⟩, hscalar.size_le, rfl⟩

theorem membersSelectable_of_found (h : value.IsStructure type bytes)
    (hbytes : bytes.length = type.byteSize) (hshape : type.Shape) (hkind : type.kind = .structure_)
    (hfound : type.MembersFound) : value.MembersSelectable := by
  obtain ⟨-, -, -, hmembers⟩ := hshape.members hkind
  constructor
  · intro shown hshown
    rw [h.members] at hshown
    obtain ⟨member, hmember, rfl⟩ := List.mem_map.mp hshown
    obtain ⟨field, hfield, hselectable, hread⟩ := hfound hkind member hmember
    have hname := (hmembers member hmember).name_ne
    obtain ⟨selected, hselected⟩ := h.inspect_eq_ok hshape hkind hname hfield hselectable
    obtain ⟨-, field', hfield', -, hshows, -⟩ := h.of_inspect hshape hkind hselected
    obtain rfl := Option.some.inj (hfield.symm.trans hfield')
    have hraw : (field.valueIn bytes).rawValue = (member.valueIn bytes).rawValue :=
      rawValue_valueIn_eq (hbytes ▸ hmembers field (LocalValueType.mem_of_field hfield).1)
        (hbytes ▸ hmembers member hmember) hread
    exact ⟨selected, hselected, hshows.rawValue.trans hraw, hshows.byteSize.trans hread.byteSize,
      hshows.kind.trans hread.kind⟩
  · intro shown hshown child hchild
    rw [h.members] at hshown
    obtain ⟨member, hmember, rfl⟩ := List.mem_map.mp hshown
    obtain ⟨terminal, hterminal, rfl⟩ := List.mem_map.mp hchild
    have hmemberShape := hmembers member hmember
    have hnested : member.kind = .structure_ := by
      by_contra hplain
      simp [hmemberShape.members_nil hplain] at hterminal
    obtain ⟨field, hfield, hselectable, hread⟩ := hfound hkind member hmember
    obtain ⟨found, hfound, hname, hsize, hlayout⟩ := hread.terminals terminal hterminal
    obtain ⟨selected, hselected, hshows⟩ := h.nested_eq_ok hshape hkind hmemberShape.name_ne hfield
      hselectable (hread.kind.trans hnested) hfound
    have hfits := terminal_fits (hmembers field (LocalValueType.mem_of_field hfield).1)
      (hread.kind.trans hnested) hfound
    obtain ⟨hfits', hle, -⟩ := terminal_fits hmemberShape hnested hterminal
    rw [hname] at hselected
    refine ⟨selected, hselected, hshows.rawValue.trans ?_, hshows.byteSize.trans hsize, hshows.kind⟩
    exact (LocalStructMemberType.rawIn_eq_iff hfits.1 hfits' hsize hle).mpr hlayout bytes hbytes

/-- If the members of the structure can be selected whatever its bytes are, each is found. -/
theorem found_of_membersSelectable (hshape : type.Shape)
    (h : ∀ bytes : List Byte, bytes.length = type.byteSize →
      (type.structureIn "" "" bytes).MembersSelectable) : type.MembersFound := by
  intro hkind member hmember
  obtain ⟨-, -, -, hmembers⟩ := hshape.members hkind
  have hstructure (bytes : List Byte) :
      (type.structureIn "" "" bytes).IsStructure type bytes :=
    ⟨rfl, rfl, rfl, fun hstorage => by cases hstorage⟩
  have hshown (bytes : List Byte) :
      member.valueIn bytes ∈ (type.structureIn "" "" bytes).members :=
    List.mem_map_of_mem hmember
  have hzeros : (List.replicate type.byteSize 0#8).length = type.byteSize := List.length_replicate
  obtain ⟨selected, hselected, hshows⟩ := (h _ hzeros).direct _ (hshown _)
  obtain ⟨-, field, hfield, hselectable, hfieldShows, -⟩ :=
    (hstructure _).of_inspect hshape hkind hselected
  have hfieldShape := hmembers field (LocalValueType.mem_of_field hfield).1
  have hmemberShape := hmembers member hmember
  have hkinds : field.kind = member.kind := hfieldShows.kind.symm.trans hshows.kind
  have hsizes : field.byteSize = member.byteSize := hfieldShows.byteSize.symm.trans hshows.byteSize
  refine ⟨field, hfield, hselectable, hkinds, hsizes, fun hplain => ?_,
    fun terminal hterminal => ?_⟩
  · obtain ⟨hfits, -⟩ := hfieldShape.layout_fits (hkinds ▸ hplain)
    obtain ⟨hfits', hle⟩ := hmemberShape.layout_fits hplain
    refine (LocalStructMemberType.rawIn_eq_iff hfits hfits' hsizes hle).mp fun bytes hbytes => ?_
    obtain ⟨selected, hselected, hshows⟩ := (h bytes hbytes).direct _ (hshown bytes)
    obtain ⟨-, field', hfield', -, hfieldShows, -⟩ :=
      (hstructure bytes).of_inspect hshape hkind hselected
    obtain rfl := Option.some.inj (hfield.symm.trans hfield')
    have hraw := hfieldShows.rawValue.symm.trans hshows.rawValue
    simpa only [LocalStructMemberType.valueIn, if_neg hplain, if_neg (hkinds ▸ hplain)] using hraw
  · have hnested : member.kind = .structure_ := by
      by_contra hplain
      simp [hmemberShape.members_nil hplain] at hterminal
    have hchild (bytes : List Byte) (hbytes : bytes.length = type.byteSize) :
        ∃ found ∈ field.members, found.name = terminal.name ∧
          found.byteSize = terminal.byteSize ∧
          found.rawIn bytes field.offset = terminal.rawIn bytes member.offset := by
      obtain ⟨selected, hselected, hshows⟩ := (h bytes hbytes).nested _ (hshown bytes) _
        (List.mem_map_of_mem hterminal)
      obtain ⟨field', hfield', -, found, hfound, hname, hfoundShows⟩ :=
        (hstructure bytes).of_nested hshape hkind hselected
      obtain rfl := Option.some.inj (hfield.symm.trans hfield')
      exact ⟨found, hfound, hname, hfoundShows.byteSize.symm.trans hshows.byteSize,
        hfoundShows.rawValue.symm.trans hshows.rawValue⟩
    obtain ⟨found, hfound, hname, hsize, -⟩ := hchild _ hzeros
    refine ⟨found, hfound, hname, hsize, ?_⟩
    obtain ⟨hfits, -, -⟩ := terminal_fits hfieldShape (hkinds.trans hnested) hfound
    obtain ⟨hfits', hle, -⟩ := terminal_fits hmemberShape hnested hterminal
    refine (LocalStructMemberType.rawIn_eq_iff hfits hfits' hsize hle).mp fun bytes hbytes => ?_
    obtain ⟨found', hfound', hname', -, hraw⟩ := hchild bytes hbytes
    have hnames := (hfieldShape.nested_members (hkinds.trans hnested)).2.2.1
    obtain rfl := List.inj_on_of_nodup_map hnames hfound' hfound (hname'.trans hname.symm)
    exact hraw

end Members

/-! ## Stages -/

/-- The values of a type that come from bytes. A file has fewer than `2 ^ 64` of them. -/
inductive LocalValueType.Produces (type : LocalValueType) : LocalScalarValue → Prop
  | decoded {modulePath name : String} {bytes : List Byte} {value : LocalScalarValue}
    (h : decodeStructure modulePath name type bytes = .ok value) : Produces type value
  | fromRegisters {modulePath name : String} {bytes : List Byte} {value : LocalScalarValue}
    (owner : String) (h : decodeStructure modulePath name type bytes = .ok value) :
    Produces type { value with modulePath := owner, storage := .snapshotCoreRegister }
  | fromMemory {modulePath name : String} {memory : SnapshotMemoryRead}
    {requireOwnerMatch : Bool} {value : LocalScalarValue}
    (h : materializeSnapshotMemoryValue modulePath name type memory requireOwnerMatch = .ok value)
    (hfile : memory.artifactFileOffset.toNat + memory.bytes.length < 2 ^ 64) :
    Produces type value

/-- The stages that a type goes through: none of them reports lost metadata, and the members of a
structure can be selected. -/
structure LocalValueType.StagesAgree (type : LocalValueType) : Prop where
  decode : ∀ modulePath name bytes, Avoids LostMetadata (decodeStructure modulePath name type bytes)
  memory : ∀ modulePath name memory requireOwnerMatch, Avoids LostMetadata
    (materializeSnapshotMemoryValue modulePath name type memory requireOwnerMatch)
  select : ∀ value, type.Produces value → ∀ memberName,
    Avoids LostMetadata (inspectLocalAggregateMember value memberName)
  selectNested : ∀ value, type.Produces value → ∀ memberName terminalName,
    Avoids LostMetadata (inspectLocalNestedAggregateMember value memberName terminalName)
  members : ∀ value, type.Produces value → value.kind = .structure_ → value.MembersSelectable

section Stages

variable {type : LocalValueType} {value : LocalScalarValue}

theorem LocalValueType.Produces.isStructure (h : type.Produces value) (hshape : type.Shape)
    (hkind : value.kind = .structure_) : type.kind = .structure_ ∧
      ∃ bytes : List Byte, bytes.length = type.byteSize ∧ value.IsStructure type bytes := by
  have hdecoded {modulePath name : String} {bytes : List Byte} {value : LocalScalarValue}
      (h : decodeStructure modulePath name type bytes = .ok value) :
      type.kind = .structure_ ∧ bytes.length = type.byteSize ∧
        value = type.structureIn modulePath name bytes := by
    have hcheck := h
    simp only [decodeStructure, throw_bind, ite_throw_eq_ok, not_or, not_not] at hcheck
    obtain ⟨⟨hstructure, hbytes⟩, -⟩ := hcheck
    rw [LocalValueType.decodeStructure_eq hshape hstructure hbytes] at h
    exact ⟨hstructure, hbytes, (Except.ok.inj h).symm⟩
  cases h with
  | decoded h =>
    obtain ⟨hstructure, hbytes, rfl⟩ := hdecoded h
    exact ⟨hstructure, _, hbytes, rfl, rfl, rfl, fun hstorage => by cases hstorage⟩
  | fromRegisters owner h =>
    obtain ⟨hstructure, hbytes, rfl⟩ := hdecoded h
    exact ⟨hstructure, _, hbytes, rfl, rfl, rfl, fun hstorage => by cases hstorage⟩
  | @fromMemory modulePath name memory requireOwnerMatch _ h hfile =>
    have hstructure : type.kind = .structure_ :=
      ((LocalScalarValue.carries_materializeSnapshotMemoryValue hshape h).1.kind).symm.trans hkind
    obtain ⟨result, hresult, h⟩ := bind_eq_ok.mp h
    have hbytes := LocalScalarValue.length_of_materializeSnapshotBytes hresult
    rw [LocalValueType.materializeSnapshotBytes_eq hshape hbytes] at hresult
    obtain rfl := Except.ok.inj hresult
    refine ⟨hstructure, memory.bytes, hbytes, ?_⟩
    have hvalue : type.valueIn modulePath name memory.bytes =
        type.structureIn modulePath name memory.bytes := by
      simp only [LocalValueType.valueIn, hstructure]
    rw [hvalue] at h
    split at h
    · obtain rfl := pure_eq_ok.mp h
      exact ⟨rfl, rfl, rfl, fun hstorage => by cases hstorage⟩
    · obtain rfl := pure_eq_ok.mp (ite_throw_eq_ok.mp h).2
      rw [hbytes] at hfile
      exact ⟨rfl, rfl, rfl, fun _ => hfile⟩

/-- A value that is no structure has no members to select. -/
theorem avoids_inspect_of_ne (hkind : value.kind ≠ .structure_) (memberName : String) :
    Avoids LostMetadata (inspectLocalAggregateMember value memberName) := by
  refine avoids_bind ?_ fun member hmember => ?_
  · refine avoids_ite (fun _ => ?_) fun _ => ?_
    · exact avoids_throw_iff.mpr (not_lostMetadata_invalidArgument _)
    · rw [if_pos (.inl hkind)]
      exact avoids_throw_iff.mpr (not_lostMetadata_runtimeError _)
  · unfold aggregateMember at hmember
    simp [hkind] at hmember

theorem LocalValueType.MembersFound.selectable (h : type.MembersFound)
    (hkind : type.kind = .structure_) {memberName : String} {field : LocalStructMemberType}
    (hfield : type.field memberName = some field) : field.Selectable type.byteSize := by
  obtain ⟨hmember, hname⟩ := LocalValueType.mem_of_field hfield
  obtain ⟨field', hfield', hselectable, -⟩ := h hkind field hmember
  rw [hname] at hfield'
  obtain rfl := Option.some.inj (hfield.symm.trans hfield')
  exact hselectable

theorem LocalValueType.stagesAgree_iff_found (hshape : type.Shape) :
    type.StagesAgree ↔ type.MembersFound := by
  constructor
  · intro h hkind
    refine found_of_membersSelectable hshape (fun bytes hbytes => ?_) hkind
    exact h.members _ (.decoded (LocalValueType.decodeStructure_eq hshape hkind hbytes)) rfl
  · intro h
    refine ⟨fun _ _ _ => avoids_decodeStructure hshape, fun _ _ _ requireOwnerMatch =>
      avoids_materializeSnapshotMemoryValue hshape requireOwnerMatch, ?_, ?_, ?_⟩
    · intro value hvalue memberName
      by_cases hkind : value.kind = .structure_
      · obtain ⟨hstructure, bytes, -, his⟩ := hvalue.isStructure hshape hkind
        exact his.avoids_inspect hshape hstructure fun _ => h.selectable hstructure
      · exact avoids_inspect_of_ne hkind memberName
    · intro value hvalue memberName terminalName
      by_cases hkind : value.kind = .structure_
      · obtain ⟨hstructure, bytes, -, his⟩ := hvalue.isStructure hshape hkind
        exact his.avoids_nested hshape hstructure fun _ => h.selectable hstructure
      · refine avoids_bind (avoids_inspect_of_ne hkind memberName) fun inner hinner => ?_
        obtain ⟨member, hmember, -⟩ := bind_eq_ok.mp hinner
        unfold aggregateMember at hmember
        simp [hkind] at hmember
    · intro value hvalue hkind
      obtain ⟨hstructure, bytes, hbytes, his⟩ := hvalue.isStructure hshape hkind
      exact membersSelectable_of_found his hbytes hshape hstructure h

end Stages

/-! ## Root types -/

namespace DieUnit

variable {u : DieUnit} {offset : Word} {i : u.Index} {type : LocalValueType}
  {root : BoundedRootTypeResolution}

theorem kind_of_resolveBoundedUnionType (h : u.resolveBoundedUnionType offset = .ok (some type)) :
    type.kind = .union := by
  obtain ⟨j, -, h⟩ := bind_eq_ok.mp h
  dsimp only at h
  split at h
  · cases h
  split at h
  · cases h
  · obtain ⟨members, -, h⟩ := bind_eq_ok.mp h
    obtain rfl := Option.some.inj (pure_eq_ok.mp (ite_throw_eq_ok.mp h).2)
    rfl

theorem kind_of_resolveBoundedFixedArrayType
    (h : u.resolveBoundedFixedArrayType offset = .ok (some type)) : type.kind = .array := by
  obtain ⟨j, -, h⟩ := bind_eq_ok.mp h
  dsimp only at h
  split at h
  · cases h
  split at h
  · cases h
  · simp only [bind_eq_ok, throw_bind, ite_throw_eq_ok] at h
    obtain ⟨element, -, subrange, -, count, -, -, -, h⟩ := h
    split at h
    · obtain rfl := Option.some.inj (pure_eq_ok.mp (ite_throw_eq_ok.mp h).2)
      rfl
    · obtain rfl := Option.some.inj (pure_eq_ok.mp h)
      rfl

theorem tag_of_pointer (h : u.valueTypeOf i = .ok type) (hkind : type.kind = .pointer) :
    (u.die i).tag = kDwTagPointerType := by
  by_contra htag
  unfold valueTypeOf at h
  dsimp only at h
  split at h
  · obtain ⟨enumType, -, h⟩ := bind_eq_ok.mp h
    cases enumType with
    | none => cases h
    | some enumType =>
      obtain rfl := pure_eq_ok.mp h
      cases hkind
  split at h
  · obtain ⟨union, hunion, h⟩ := bind_eq_ok.mp h
    cases union with
    | none => cases h
    | some union =>
      obtain rfl := pure_eq_ok.mp h
      cases (kind_of_resolveBoundedUnionType hunion).symm.trans hkind
  split at h
  · obtain ⟨array, harray, h⟩ := bind_eq_ok.mp h
    cases array with
    | none => cases h
    | some array =>
      obtain rfl := pure_eq_ok.mp h
      cases (kind_of_resolveBoundedFixedArrayType harray).symm.trans hkind
  split at h
  · obtain ⟨integer, -, h⟩ := bind_eq_ok.mp h
    obtain rfl := pure_eq_ok.mp h
    cases hkind
  split at h
  · unfold rootStructureType at h
    split at h
    · cases h
    · obtain ⟨members, -, h⟩ := bind_eq_ok.mp h
      obtain rfl := pure_eq_ok.mp (ite_throw_eq_ok.mp h).2
      cases hkind
  · cases h

/-- Where one resolver finds a pointer, the other finds its pointee. -/
theorem coincide_pointee (offset : Word) :
    Coincide (fun type pointee => type.kind = .pointer → pointee ≠ none)
      (u.resolveValueType offset) (u.resolvePointerPointeeType offset) := by
  refine (coincide_unwrap _ _ offset).bind fun i i' hi => ?_
  subst hi
  intro type pointee htype hpointee hkind
  rw [if_neg (not_not.mpr (tag_of_pointer htype hkind))] at hpointee
  obtain ⟨-, hpointee⟩ := ite_throw_eq_ok.mp hpointee
  split at hpointee
  · cases hpointee
  obtain ⟨j, -, hpointee⟩ := bind_eq_ok.mp hpointee
  split at hpointee
  · obtain ⟨integer, -, hpointee⟩ := bind_eq_ok.mp hpointee
    simp [← pure_eq_ok.mp hpointee]
  split at hpointee
  · obtain ⟨target, -, hpointee⟩ := bind_eq_ok.mp hpointee
    simp [← pure_eq_ok.mp hpointee]
  · cases hpointee

theorem resolveBoundedRootValueType_root (h : u.resolveBoundedRootValueType offset = .ok root) :
    root.Shape := by
  obtain ⟨floating, hfloating, h⟩ := bind_eq_ok.mp h
  cases floating with
  | some floating =>
    obtain rfl := pure_eq_ok.mp h
    obtain ⟨size, rfl, hsize⟩ := resolveSnapshotFloatingType_shape hfloating
    exact .value (.floating hsize) (by simp)
  | none =>
    obtain ⟨pointee, hpointee, h⟩ := bind_eq_ok.mp h
    cases pointee with
    | some pointee =>
      obtain rfl := pure_eq_ok.mp h
      exact .pointer (resolvePointerPointeeType_shape hpointee)
    | none =>
      obtain ⟨type, htype, h⟩ := bind_eq_ok.mp h
      obtain rfl := pure_eq_ok.mp h
      exact .value (resolveValueType_shape htype) fun hkind =>
        coincide_pointee offset type none htype hpointee hkind rfl

end DieUnit

/-- The stages of a root type: its pointee is attached to the values of a core and checked with the
values of a tracee, what it points to is read, and so is what a member of that points to. -/
structure BoundedRootTypeResolution.StagesAgree (root : BoundedRootTypeResolution) : Prop where
  attach : ∀ result : LocalScalarValue, result.kind = root.valueType.kind →
    Avoids LostMetadata (attachPointerMetadata result root.pointeeType)
  live : root.valueType.kind.isScalar → ∀ modulePath name raw, Avoids LostMetadata
    (materializeLiveScalar modulePath name root.valueType raw root.pointeeType)
  value : root.valueType.StagesAgree
  pointee : ∀ pointee ∈ root.pointeeType, pointee.StagesAgree
  pointerMembers : ∀ pointee ∈ root.pointeeType, ∀ member ∈ pointee.members,
    ∀ target ∈ member.pointeeType, ∀ result : LocalScalarValue,
      Avoids LostMetadata (attachPointerMetadata result (some target.asInteger))

/-- The root types that all stages take. -/
structure BoundedRootTypeResolution.MeetsChecks (root : BoundedRootTypeResolution) : Prop where
  members : root.valueType.MembersFound
  attachable : ∀ pointee ∈ root.pointeeType, ∀ member ∈ pointee.members, member.Attachable
  live : ∀ pointee ∈ root.pointeeType, pointee.IsLivePointee

section Roots

variable {pointee : LocalValueType} {root : BoundedRootTypeResolution}

theorem LocalStructMemberType.ReadAs.refl (member : LocalStructMemberType) :
    member.ReadAs member :=
  ⟨rfl, rfl, fun _ => rfl, fun terminal hterminal => ⟨terminal, hterminal, rfl, rfl, rfl⟩⟩

/-- The members of a structure that a pointer points to have distinct names. -/
theorem LocalValueType.PointeeShape.membersFound (h : pointee.PointeeShape)
    (hattachable : ∀ member ∈ pointee.members, member.Attachable) : pointee.MembersFound := by
  intro hkind member hmember
  cases h with
  | integer => cases hkind
  | @structure_ byteSize members hpos hle hne hlength hmembers hnames =>
    refine ⟨member, LocalValueType.field_of_nodup _ hnames hmember,
      ⟨?_, (hattachable member hmember).2⟩, .refl member⟩
    cases hmembers member hmember with
    | integer hname hscalar => exact hscalar.fits
    | pointer hname hscalar => exact hscalar.fits
    | enumeration hname hscalar => exact hscalar.fits

theorem LocalPointerPointeeType.Shape.size_pos {target : LocalPointerPointeeType}
    (h : target.Shape) : 0 < target.byteSize := by
  cases h <;> assumption

/-- The pointee that a selected pointer member gets. -/
theorem avoids_attach_asInteger {target : LocalPointerPointeeType} (h : target.Shape)
    (hle : target.byteSize ≤ 8) (result : LocalScalarValue) :
    Avoids LostMetadata (attachPointerMetadata result (some target.asInteger)) := by
  by_cases hkind : result.kind = .pointer
  · have hshape : target.asInteger.PointeeShape := .integer h.size_pos hle
    refine (avoids_attachPointerMetadata_iff hkind hshape).mpr fun member hmember => ?_
    cases hmember
  · exact avoids_ite (fun _ => avoids_pure) fun hpointer => absurd (not_not.mp hpointer) hkind

theorem LocalValueType.PointeeShape.target_shape (h : pointee.PointeeShape)
    {member : LocalStructMemberType} (hmember : member ∈ pointee.members)
    {target : LocalPointerPointeeType} (htarget : target ∈ member.pointeeType) : target.Shape := by
  cases h with
  | integer => cases hmember
  | structure_ hpos hle hne hlength hmembers hnames =>
    cases hmembers member hmember with
    | integer => cases htarget
    | pointer hname hscalar hpointee =>
      obtain rfl := Option.some.inj htarget
      exact hpointee
    | enumeration => cases htarget

theorem BoundedRootTypeResolution.stagesAgree_iff_checks (h : root.Shape) :
    root.StagesAgree ↔ root.MeetsChecks := by
  cases h with
  | value hshape hkind =>
    constructor
    · exact fun hagree => ⟨(LocalValueType.stagesAgree_iff_found hshape).mp hagree.value, by simp,
        by simp⟩
    · intro hmeets
      refine ⟨fun result hresult => ?_, fun hscalar _ _ _ =>
        avoids_materializeLiveScalar hshape hscalar,
        (LocalValueType.stagesAgree_iff_found hshape).mpr hmeets.members, by simp, by simp⟩
      exact avoids_ite (fun _ => avoids_pure) fun hpointer =>
        absurd (hresult.symm.trans (not_not.mp hpointer)) hkind
  | @pointer pointee hshape =>
    constructor
    · intro hagree
      refine ⟨fun hkind => (by cases hkind), ?_, ?_⟩
      · intro target htarget
        obtain rfl := Option.some.inj htarget
        have hattach := hagree.attach
          { modulePath := "", name := "", rawValue := 0, byteSize := 8, isSigned := false
            kind := .pointer } rfl
        exact (avoids_attachPointerMetadata_iff rfl hshape).mp hattach
      · intro target htarget
        obtain rfl := Option.some.inj htarget
        exact (avoids_materializeLiveScalar_pointer_iff hshape).mp (hagree.live rfl "" "" 0)
    · intro hmeets
      have hattachable := hmeets.attachable pointee rfl
      refine ⟨fun result hresult => ?_, fun _ _ _ _ => ?_, ?_, ?_, ?_⟩
      · exact (avoids_attachPointerMetadata_iff hresult hshape).mpr hattachable
      · exact (avoids_materializeLiveScalar_pointer_iff hshape).mpr (hmeets.live pointee rfl)
      · exact (LocalValueType.stagesAgree_iff_found .pointer).mpr hmeets.members
      · intro pointee' hpointee
        obtain rfl := Option.some.inj hpointee
        exact (LocalValueType.stagesAgree_iff_found hshape.shape).mpr
          (hshape.membersFound hattachable)
      · intro pointee' hpointee member hmember target htarget result
        obtain rfl := Option.some.inj hpointee
        exact avoids_attach_asInteger (hshape.target_shape hmember htarget)
          ((hattachable member hmember).2 target htarget) result

end Roots

namespace DieUnit

/-- No stage behind the two resolvers finds that metadata of the type was lost, and the members of
its structures can be selected. -/
def StagesAgree (u : DieUnit) (offset : Word) : Prop :=
  (∀ root, u.resolveBoundedRootValueType offset = .ok root → root.StagesAgree) ∧
  ∀ type, u.resolveValueType offset = .ok type → type.StagesAgree ∧
    (type.kind.isScalar → ∀ modulePath name raw,
      Avoids LostMetadata (materializeLiveScalar modulePath name type raw))

/-- The types that the stages take, of those that the resolvers accept. -/
def MeetsChecks (u : DieUnit) (offset : Word) : Prop :=
  (∀ root, u.resolveBoundedRootValueType offset = .ok root → root.MeetsChecks) ∧
  ∀ type, u.resolveValueType offset = .ok type → type.MembersFound

/-- The stages agree with the resolvers on the types that they take, and on no other. -/
theorem stagesAgree_iff_meetsChecks (u : DieUnit) (offset : Word) :
    u.StagesAgree offset ↔ u.MeetsChecks offset := by
  refine and_congr (forall₂_congr fun root hroot => ?_) (forall₂_congr fun type htype => ?_)
  · exact BoundedRootTypeResolution.stagesAgree_iff_checks (resolveBoundedRootValueType_root hroot)
  · have hshape := resolveValueType_shape htype
    rw [LocalValueType.stagesAgree_iff_found hshape]
    exact and_iff_left fun hscalar _ _ _ => avoids_materializeLiveScalar hshape hscalar

end DieUnit

theorem eq_error_of_verdict {α : Type} {x : Except Exception α} {e : Exception}
    (h : verdict x = .error e) : x = .error e := by
  cases x with
  | error e' => exact congrArg Except.error (Except.error.inj h)
  | ok a => cases h

/-- A structure of four bytes with the members `int a : 20` and `int b : 4`. -/
def packedUnit : DieUnit where
  dies := [⟨0x0b, 0x11, none, []⟩,
    ⟨0x20, kDwTagStructureType, some 0,
      [{ name := kDwAtByteSize, form := kDwFormData1, number := 4 }]⟩,
    ⟨0x28, kDwTagMember, some 1, [
      { name := kDwAtName, form := 0x08, text := "a" },
      { name := kDwAtType, form := kDwFormRef4, number := 0x40 },
      { name := kDwAtBitSize, form := kDwFormData1, number := 20 },
      { name := kDwAtDataBitOffset, form := kDwFormData1, number := 0 }]⟩,
    ⟨0x30, kDwTagMember, some 1, [
      { name := kDwAtName, form := 0x08, text := "b" },
      { name := kDwAtType, form := kDwFormRef4, number := 0x40 },
      { name := kDwAtBitSize, form := kDwFormData1, number := 4 },
      { name := kDwAtDataBitOffset, form := kDwFormData1, number := 20 }]⟩,
    ⟨0x40, kDwTagBaseType, some 0, [{ name := kDwAtByteSize, form := kDwFormData1, number := 4 },
      { name := kDwAtEncoding, form := kDwFormData1, number := kDwAteSigned }]⟩]
  ascending := by decide
  rooted := by decide

/-- The structure is accepted and read, but its second member cannot be selected: a storage unit of
four bytes from the byte of its first bit ends behind the structure. -/
theorem not_stagesAgree_packed : ¬packedUnit.StagesAgree 0x20 := by
  intro h
  have hselected : ((packedUnit.resolveBoundedRootValueType 0x20).toOption.bind fun root =>
      (decodeStructure "/bin/call" "s" root.valueType [0, 0, 0x50, 0]).toOption.map fun value =>
        verdict (inspectLocalAggregateMember value "b")) =
      some (.error (.logicError
        "selected-inline aggregate member exceeds bounded owner layout")) := by decide +kernel
  obtain ⟨root, hroot, hselected⟩ := Option.bind_eq_some_iff.mp hselected
  obtain ⟨value, hvalue, hselected⟩ := Option.map_eq_some_iff.mp hselected
  have hagree := (h.1 root (eq_ok_of_toOption hroot)).value
  exact hagree.select value (.decoded (eq_ok_of_toOption hvalue)) "b" _
    (eq_error_of_verdict hselected) (lostMetadata (by decide))

end MiniDebugger
