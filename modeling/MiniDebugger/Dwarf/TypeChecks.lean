import MiniDebugger.Dwarf.ValueSelectors
import MiniDebugger.Dwarf.WellFormedValues

/-!
# Resolvers and the checks behind them

Every stage behind the type resolvers checks the metadata of a type again and throws a
`std::logic_error` where it believes that metadata has been lost. The resolvers accept more than
these checks do. A member of a structure can be selected if its storage unit lies inside the
structure and if it does not point to a structure of more than eight bytes; and a pointer to a
structure needs a pointee of one of the few forms that `checkLivePointee` and
`attachPointerMetadata` both know.
-/

namespace MiniDebugger

open Checks

/-- A `std::logic_error` about metadata. The one that is about something else says that the bytes
came from another module than expected. -/
def LostMetadata (e : Exception) : Prop :=
  ∃ what, e = .logicError what ∧ what ≠ ownershipChanged

@[simp] theorem not_lostMetadata_runtimeError (what : String) :
    ¬LostMetadata (.runtimeError what) := by
  rintro ⟨_, h, -⟩
  cases h

@[simp] theorem not_lostMetadata_invalidArgument (what : String) :
    ¬LostMetadata (.invalidArgument what) := by
  rintro ⟨_, h, -⟩
  cases h

@[simp] theorem not_lostMetadata_ownershipChanged :
    ¬LostMetadata (.logicError ownershipChanged) := by
  rintro ⟨what, h, hne⟩
  cases h
  exact hne rfl

/-! ## Members of structures -/

section Members

variable {member : LocalStructMemberType} {bytes : List Byte} {value : LocalScalarValue}
  {structSize : Nat} {context : String}

/-- The members that `aggregate_member` takes: the storage unit lies inside the structure, and no
structure of more than eight bytes is pointed to. -/
structure LocalStructMemberType.Selectable (structSize : Nat) (member : LocalStructMemberType) :
    Prop where
  fits : member.offset + member.byteSize ≤ structSize
  pointee : ∀ pointee ∈ member.pointeeType, pointee.byteSize ≤ 8

/-- The members of a structure that a pointer member points to are never rejected. -/
theorem any_badNested {byteSize : Nat} {members : List LocalPointerPointeeMemberType}
    (h : ∀ nested ∈ members, nested.kind = .integer ∧
      IsScalarIn byteSize nested.offset nested.byteSize) :
    members.any (fun nested => nested.kind ≠ .integer ∨ nested.byteSize = 0 ∨
      8 < nested.byteSize ∨ byteSize < nested.offset ∨
      byteSize - nested.offset < nested.byteSize) = false := by
  rw [List.any_eq_false]
  intro nested hnested
  obtain ⟨hkind, hpos, hle, hfits⟩ := h nested hnested
  simp [hkind]
  omega

theorem checkTerminalPointee_eq_ok {pointee : LocalPointerPointeeType} (h : pointee.Shape) :
    checkTerminalPointee context pointee = .ok () ↔ pointee.byteSize ≤ 8 := by
  unfold checkTerminalPointee
  cases h with
  | integer hpos hle => simp [hle]
  | @structure_ byteSize members hpos hle hne hlength hmembers =>
    have hcount : members.length ≤ 32 := hlength
    dsimp only
    rw [if_neg (by simp), if_pos rfl, any_badNested hmembers]
    simp only [Bool.false_eq_true, if_false, throw_bind, ite_throw_eq_ok]
    constructor
    · intro h
      omega
    · intro h
      exact ⟨by simp [hne]; omega, rfl⟩

theorem validateTerminalMember_direct (h : member.DirectShape structSize) :
    validateTerminalMember context (member.valueIn bytes) = .ok () ↔
      ∀ pointee ∈ member.pointeeType, pointee.byteSize ≤ 8 := by
  unfold validateTerminalMember LocalStructMemberType.valueIn
  cases h with
  | integer hname hscalar =>
    rw [if_neg (by have := hscalar.size_pos; have := hscalar.size_le; simp; omega)]
    simp
  | @pointer name offset pointee hname hscalar hpointee =>
    have hpos : pointee.byteSize ≠ 0 := by
      cases hpointee with
      | integer hpos => exact hpos.ne'
      | structure_ hpos => exact hpos.ne'
    rw [if_neg (by simp), if_neg (by simp), if_pos rfl]
    dsimp only
    rw [if_neg (by simp [hpos]), checkTerminalPointee_eq_ok hpointee]
    simp
  | enumeration hname hscalar htype =>
    rw [if_neg (by have := hscalar.size_pos; have := hscalar.size_le; simp; omega),
      if_neg (by simp), if_neg (by simp), if_pos rfl, if_neg (by simp [htype.enumerators])]
    simp

theorem validateTerminalMember_scalar {value : LocalStructMember} (hkind : value.kind = .integer)
    (hpos : 0 < value.byteSize) (hle : value.byteSize ≤ 8) (hmembers : value.members = [])
    (hpointee : value.pointeeType = none) (henum : value.enumType = none) :
    validateTerminalMember context value = .ok () := by
  unfold validateTerminalMember
  rw [if_neg (by simp [hmembers]; omega), if_pos hkind, if_neg (by simp [hpointee, henum])]
  rfl

/-- The check on a member that has been found. -/
theorem checkAggregateMember_eq_ok (hshape : member.Shape structSize)
    (hsize : value.byteSize = structSize) :
    checkAggregateMember value (member.valueIn bytes) = .ok () ↔ member.Selectable structSize := by
  have hbounds (hpos : 0 < member.byteSize) :
      ((member.valueIn bytes).byteSize = 0 ∨ value.byteSize < (member.valueIn bytes).offset ∨
        value.byteSize - (member.valueIn bytes).offset < (member.valueIn bytes).byteSize) ↔
        ¬member.offset + member.byteSize ≤ structSize := by
    rw [hsize]
    change member.byteSize = 0 ∨ structSize < member.offset ∨
      structSize - member.offset < member.byteSize ↔ _
    omega
  have hkind : (member.valueIn bytes).kind = member.kind := rfl
  unfold checkAggregateMember
  rw [hkind]
  cases hshape with
  | direct h =>
    have hfits : 0 < member.byteSize ∧ member.offset + member.byteSize ≤ structSize := by
      cases h with
      | integer hname hscalar => exact ⟨hscalar.size_pos, hscalar.fits⟩
      | pointer hname hscalar => exact ⟨hscalar.size_pos, hscalar.fits⟩
      | enumeration hname hscalar => exact ⟨hscalar.size_pos, hscalar.fits⟩
    have hkind : member.kind ≠ .structure_ := by cases h <;> simp
    rw [if_neg (by rw [hbounds hfits.1]; exact not_not.mpr hfits.2), if_neg hkind,
      validateTerminalMember_direct h]
    exact ⟨fun hpointee => ⟨hfits.2, hpointee⟩, fun hmember => hmember.pointee⟩
  | bitField hname hpos hle hbits hstorage hfits =>
    simp only [hbounds hpos, throw_bind, ite_throw_eq_ok, not_not]
    rw [if_neg (by simp), validateTerminalMember_scalar rfl hpos hle rfl rfl rfl]
    exact ⟨fun h => ⟨h.1, by simp⟩, fun hmember => ⟨hmember.fits, rfl⟩⟩
  | @nested name offset byteSize members hname hpos hle hfits hne hlength hmembers hnames =>
    simp only [hbounds hpos, throw_bind, ite_throw_eq_ok, not_not]
    rw [if_pos trivial, if_neg (by simp [LocalStructMemberType.valueIn, hne])]
    refine iff_of_true ⟨hfits, forM_eq_ok.mpr fun child hchild => ?_⟩ ⟨hfits, by simp⟩
    obtain ⟨terminal, hterminal, rfl⟩ := List.mem_map.mp hchild
    obtain ⟨name', offset', size, isSigned, rfl, -, hscalar⟩ := hmembers terminal hterminal
    have := hscalar.fits
    unfold checkNestedChild
    rw [if_neg (by simp [LocalStructMemberType.valueIn, LocalStructMemberType.terminalIn]; omega)]
    exact validateTerminalMember_scalar rfl hscalar.size_pos hscalar.size_le rfl rfl rfl

end Members

/-! ## Pointees -/

section Pointees

variable {member : LocalStructMemberType} {pointee : LocalValueType} {pointeeSize : Nat}
  {e : Exception}

theorem lostMetadata {what : String} (h : what ≠ ownershipChanged) :
    LostMetadata (.logicError what) := ⟨what, rfl, h⟩

/-- The members of a pointee that `attach_pointer_metadata` takes. -/
def LocalStructMemberType.Attachable (member : LocalStructMemberType) : Prop :=
  member.kind ≠ .enumeration ∧ ∀ target ∈ member.pointeeType, target.byteSize ≤ 8

theorem checkPointeeMember_eq_ok (h : member.DirectShape pointeeSize) :
    checkPointeeMember pointeeSize member = .ok () ↔ member.Attachable := by
  unfold checkPointeeMember LocalStructMemberType.Attachable
  cases h with
  | integer hname hscalar =>
    obtain ⟨hpos, hle, hfits⟩ := hscalar
    rw [if_neg (by dsimp only; omega), if_pos rfl]
    simp
  | @pointer name offset target hname hscalar hpointee =>
    have hpos : target.byteSize ≠ 0 := by
      cases hpointee with
      | integer hpos => exact hpos.ne'
      | structure_ hpos => exact hpos.ne'
    obtain ⟨-, -, hfits⟩ := hscalar
    rw [if_neg (by dsimp only; omega), if_neg (by simp), if_pos rfl]
    simp [hpos]
  | enumeration hname hscalar htype =>
    obtain ⟨hpos, hle, hfits⟩ := hscalar
    rw [if_neg (by dsimp only; omega), if_neg (by simp), if_neg (by simp)]
    simp

theorem lostMetadata_of_checkPointeeMember (h : checkPointeeMember pointeeSize member = .error e) :
    LostMetadata e := by
  simp only [checkPointeeMember, throw_bind] at h
  split at h
  · cases h
    exact lostMetadata (by decide)
  split at h
  · split at h
    · cases h
      exact lostMetadata (by decide)
    · cases h
  split at h
  · split at h
    · cases h
      exact lostMetadata (by decide)
    · cases h
  · cases h
    exact lostMetadata (by decide)

/-- `attach_pointer_metadata` returns, or it throws that metadata was lost. -/
theorem avoids_attachPointerMetadata_iff {result : LocalScalarValue}
    (hkind : result.kind = .pointer) (h : pointee.PointeeShape) :
    Avoids LostMetadata (attachPointerMetadata result (some pointee)) ↔
      ∀ member ∈ pointee.members, member.Attachable := by
  unfold attachPointerMetadata
  rw [if_neg (not_not.mpr hkind)]
  dsimp only
  cases h with
  | integer hpos hle =>
    rw [if_pos rfl, if_neg (by simp; omega)]
    simp
  | @structure_ byteSize members hpos hle hne hlength hmembers hnames =>
    rw [if_neg (by simp), if_pos rfl, if_neg (by dsimp only; omega), avoids_bind_iff]
    dsimp only
    rw [avoids_iff_eq_ok fun e he => ?_, forM_eq_ok]
    · simp only [avoids_pure, implies_true, and_true]
      exact forall₂_congr fun member hmember => checkPointeeMember_eq_ok (hmembers member hmember)
    · obtain ⟨member, -, he⟩ := forM_eq_error he
      exact lostMetadata_of_checkPointeeMember he

/-- The targets that `materialize_live_scalar` takes. -/
def LocalPointerPointeeType.IsLive (target : LocalPointerPointeeType) : Prop :=
  target.kind = .integer → target.byteSize = 4 ∧ target.isSigned = true

/-- The members of a pointee that `materialize_live_scalar` takes. -/
def LocalStructMemberType.IsLive (member : LocalStructMemberType) : Prop :=
  member.kind ≠ .enumeration ∧ ∀ target ∈ member.pointeeType, target.IsLive

theorem checkLiveMemberPointee_eq_ok {target : LocalPointerPointeeType} (h : target.Shape) :
    checkLiveMemberPointee target = .ok () ↔ target.IsLive := by
  unfold checkLiveMemberPointee LocalPointerPointeeType.IsLive
  cases h with
  | integer hpos hle =>
    rw [if_pos rfl, ite_throw_eq_ok]
    simp
  | @structure_ byteSize members hpos hle hne hlength hmembers =>
    rw [if_neg (by simp), if_pos rfl, if_neg (by simp [hne]; omega)]
    dsimp only
    rw [any_badNested hmembers]
    exact iff_of_true rfl (by simp)

theorem lostMetadata_of_checkLiveMemberPointee {target : LocalPointerPointeeType}
    (h : checkLiveMemberPointee target = .error e) : LostMetadata e := by
  simp only [checkLiveMemberPointee, throw_bind] at h
  split at h
  · split at h
    · cases h
      exact lostMetadata (by decide)
    · cases h
  split at h
  · split at h
    · cases h
      exact lostMetadata (by decide)
    split at h
    · cases h
      exact lostMetadata (by decide)
    · cases h
  · cases h
    exact lostMetadata (by decide)

theorem checkLivePointeeMember_eq_ok (h : member.DirectShape pointeeSize) :
    checkLivePointeeMember pointeeSize member = .ok () ↔ member.IsLive := by
  unfold checkLivePointeeMember LocalStructMemberType.IsLive
  cases h with
  | integer hname hscalar =>
    obtain ⟨hpos, hle, hfits⟩ := hscalar
    rw [if_neg (by simp; omega), if_pos rfl]
    simp
  | @pointer name offset target hname hscalar hpointee =>
    obtain ⟨-, -, hfits⟩ := hscalar
    rw [if_neg (by simp; omega), if_neg (by simp), if_pos rfl]
    dsimp only
    rw [if_neg (by simp), checkLiveMemberPointee_eq_ok hpointee]
    simp
  | enumeration hname hscalar htype =>
    rw [if_pos (by simp)]
    simp

theorem lostMetadata_of_checkLivePointeeMember
    (h : checkLivePointeeMember pointeeSize member = .error e) : LostMetadata e := by
  simp only [checkLivePointeeMember, throw_bind] at h
  split at h
  · cases h
    exact lostMetadata (by decide)
  split at h
  · split at h
    · cases h
      exact lostMetadata (by decide)
    · cases h
  split at h
  · split at h
    · cases h
      exact lostMetadata (by decide)
    · split at h
      · cases h
        exact lostMetadata (by decide)
      · exact lostMetadata_of_checkLiveMemberPointee h
  · cases h
    exact lostMetadata (by decide)

/-- The pointees that `materialize_live_scalar` takes: where a member is a pointer, the other one
is an integer. -/
structure LocalValueType.IsLivePointee (pointee : LocalValueType) : Prop where
  members : ∀ member ∈ pointee.members, member.IsLive
  onePointer : (pointee.members.countP fun member => member.kind = .pointer) ≠ 0 →
    pointee.members.length = 2 ∧ (pointee.members.countP fun member => member.kind = .integer) = 1 ∧
      (pointee.members.countP fun member => member.kind = .pointer) = 1

theorem avoids_checkLivePointee_iff (h : pointee.PointeeShape) :
    Avoids LostMetadata (checkLivePointee pointee) ↔ pointee.IsLivePointee := by
  unfold checkLivePointee
  cases h with
  | integer hpos hle =>
    rw [if_pos rfl, if_neg (by simp; omega)]
    exact iff_of_true avoids_pure ⟨by simp, by simp⟩
  | @structure_ byteSize members hpos hle hne hlength hmembers hnames =>
    have hall : members.forM (checkLivePointeeMember byteSize) = .ok () ↔
        ∀ member ∈ members, member.IsLive := by
      rw [forM_eq_ok]
      exact forall₂_congr fun member hmember =>
        checkLivePointeeMember_eq_ok (hmembers member hmember)
    rw [if_neg (by simp), if_pos rfl, if_neg (by simp [hne]; omega), avoids_bind_iff]
    dsimp only
    rw [avoids_iff_eq_ok fun e he => ?_]
    · refine (and_congr_right fun hok => ?_).trans ((and_congr_left fun _ => hall).trans
        ⟨fun h => ⟨h.1, h.2⟩, fun h => ⟨h.members, h.onePointer⟩⟩)
      dsimp only
      split
      next hpointers =>
        refine iff_of_false (fun h => ?_) fun h => ?_
        · exact avoids_throw_iff.mp (h () hok) (lostMetadata (by decide))
        · have := h hpointers.1
          omega
      next hpointers => exact iff_of_true (fun _ _ => avoids_pure) fun h => by omega
    · obtain ⟨member, -, he⟩ := forM_eq_error he
      exact lostMetadata_of_checkLivePointeeMember he

end Pointees

/-! ## Materialisers -/

section Materialisers

variable {type : LocalValueType} {modulePath name : String} {bytes : List Byte}
  {memory : SnapshotMemoryRead} {raw : Word}

theorem avoids_decodeStructure (h : type.Shape) :
    Avoids LostMetadata (decodeStructure modulePath name type bytes) := by
  by_cases hbytes : type.kind = .structure_ ∧ bytes.length = type.byteSize
  · exact avoids_of_eq_ok (LocalValueType.decodeStructure_eq h hbytes.1 hbytes.2)
  · unfold decodeStructure
    rw [if_pos (not_and_or.mp hbytes)]
    exact avoids_throw_iff.mpr (not_lostMetadata_runtimeError _)

theorem avoids_decodeSnapshotScalar (size : Nat) :
    Avoids LostMetadata (decodeSnapshotScalar memory size) := by
  unfold decodeSnapshotScalar
  refine avoids_ite (fun _ => ?_) fun _ => avoids_pure
  exact avoids_throw_iff.mpr (not_lostMetadata_runtimeError _)

/-- Bytes of another number than the type has are refused as bytes, not as metadata. -/
theorem avoids_materializeSnapshotBytes (h : type.Shape) :
    Avoids LostMetadata (materializeSnapshotBytes modulePath name type memory) := by
  by_cases hbytes : memory.bytes.length = type.byteSize
  · exact avoids_of_eq_ok (LocalValueType.materializeSnapshotBytes_eq h hbytes)
  have hrefused {α : Type} (what : String) :
      Avoids LostMetadata (throw (.runtimeError what) : Except Exception α) :=
    avoids_throw_iff.mpr (not_lostMetadata_runtimeError _)
  unfold materializeSnapshotBytes
  cases h with
  | integer => exact avoids_bind (avoids_decodeSnapshotScalar _) fun _ _ => avoids_pure
  | floating => exact avoids_bind (avoids_decodeSnapshotScalar _) fun _ _ => avoids_pure
  | pointer => exact avoids_bind (avoids_decodeSnapshotScalar _) fun _ _ => avoids_pure
  | enumeration htype =>
    dsimp only
    unfold materializeSnapshotScalar
    rw [if_neg (by simp), if_pos rfl]
    dsimp only
    rw [if_neg (by simp [htype.enumerators])]
    exact avoids_bind (avoids_decodeSnapshotScalar _) fun _ _ => avoids_pure
  | union =>
    dsimp only at hbytes ⊢
    unfold materializeBoundedUnionBytes
    rw [if_pos (by simp [hbytes])]
    exact hrefused _
  | array =>
    dsimp only at hbytes ⊢
    unfold materializeBoundedArrayBytes
    dsimp only
    rw [if_pos (by simp [hbytes])]
    exact hrefused _
  | structure_ =>
    dsimp only at hbytes ⊢
    rw [if_pos (by simp [hbytes])]
    exact hrefused _

theorem avoids_materializeSnapshotMemoryValue (h : type.Shape) (requireOwnerMatch : Bool) :
    Avoids LostMetadata
      (materializeSnapshotMemoryValue modulePath name type memory requireOwnerMatch) := by
  refine avoids_bind (avoids_materializeSnapshotBytes h) fun value _ => ?_
  refine avoids_ite (fun _ => avoids_pure) fun _ => avoids_ite (fun _ => ?_) fun _ => avoids_pure
  exact avoids_throw_iff.mpr not_lostMetadata_ownershipChanged

/-- A scalar that comes without a pointee. -/
theorem avoids_materializeLiveScalar (h : type.Shape) (hscalar : type.kind.isScalar) :
    Avoids LostMetadata (materializeLiveScalar modulePath name type raw) := by
  cases h with
  | integer => exact avoids_of_eq_ok rfl
  | pointer => exact avoids_of_eq_ok rfl
  | enumeration htype =>
    unfold materializeLiveScalar
    rw [if_neg (by simp [LocalValueKind.isScalar]), if_pos rfl,
      if_neg (by simp [htype.name, htype.enumerators])]
    exact avoids_pure
  | _ => simp [LocalValueKind.isScalar] at hscalar

theorem avoids_materializeLiveScalar_pointer_iff {pointee : LocalValueType}
    (h : pointee.PointeeShape) :
    Avoids LostMetadata (materializeLiveScalar modulePath name
      { byteSize := 8, isSigned := false, kind := .pointer } raw (some pointee)) ↔
      pointee.IsLivePointee := by
  rw [← avoids_checkLivePointee_iff h]
  change Avoids LostMetadata (checkLivePointee pointee >>= fun _ => pure _) ↔ _
  rw [avoids_bind_iff]
  exact and_iff_left fun _ _ => avoids_pure

end Materialisers

end MiniDebugger
