import MiniDebugger.Checks
import MiniDebugger.Dwarf.ValueBytes

/-!
# What the type resolvers accept

The shape of a resolved type, one constructor for each kind the resolvers build. A shape carries
the bounds its resolver has checked, so the stages behind the resolvers can be judged by a case
analysis over shapes.
-/

namespace MiniDebugger

open Checks

/-! ## Shapes -/

structure LocalEnumType.Bounded (type : LocalEnumType) : Prop where
  name : type.name ≠ ""
  size_pos : 0 < type.byteSize
  size_le : type.byteSize ≤ 8
  enumerators : type.enumerators ≠ []

/-- An integer inside a structure of this size. -/
structure IsScalarIn (structSize offset byteSize : Nat) : Prop where
  size_pos : 0 < byteSize
  size_le : byteSize ≤ 8
  fits : offset + byteSize ≤ structSize

/-- The pointees of pointer members. -/
inductive LocalPointerPointeeType.Shape : LocalPointerPointeeType → Prop
  | integer {byteSize : Nat} {isSigned : Bool} (hpos : 0 < byteSize) (hle : byteSize ≤ 8) :
    Shape { byteSize, isSigned }
  | structure_ {byteSize : Nat} {members : List LocalPointerPointeeMemberType}
    (hpos : 0 < byteSize) (hle : byteSize ≤ kMaxLocalStructSize) (hne : members ≠ [])
    (hlength : members.length ≤ kMaxLocalStructMembers)
    (hmembers : ∀ nested ∈ members, nested.kind = .integer ∧
      IsScalarIn byteSize nested.offset nested.byteSize) :
    Shape { byteSize, isSigned := false, kind := .structure_, members }

/-- The members `resolve_bounded_direct_structure_member_type` builds. -/
inductive LocalStructMemberType.DirectShape (structSize : Nat) : LocalStructMemberType → Prop
  | integer {name : String} {offset byteSize : Nat} {isSigned : Bool} (hname : name ≠ "")
    (hscalar : IsScalarIn structSize offset byteSize) :
    DirectShape structSize { name, offset, byteSize, isSigned }
  | pointer {name : String} {offset : Nat} {pointee : LocalPointerPointeeType} (hname : name ≠ "")
    (hscalar : IsScalarIn structSize offset 8) (hpointee : pointee.Shape) :
    DirectShape structSize
      { name, offset, byteSize := 8, isSigned := false, kind := .pointer
        pointeeType := some pointee }
  | enumeration {name : String} {offset : Nat} {type : LocalEnumType} (hname : name ≠ "")
    (hscalar : IsScalarIn structSize offset type.byteSize) (htype : type.Bounded) :
    DirectShape structSize
      { name, offset, byteSize := type.byteSize, isSigned := type.isSigned, kind := .enumeration
        enumType := some type }

/-- The members of a structure local. -/
inductive LocalStructMemberType.Shape (structSize : Nat) : LocalStructMemberType → Prop
  | direct {member : LocalStructMemberType} (h : member.DirectShape structSize) :
    Shape structSize member
  | bitField {name : String} {slice : LocalBitSlice} {byteSize : Nat} {isSigned : Bool}
    (hname : name ≠ "") (hpos : 0 < byteSize) (hle : byteSize ≤ 8) (hbits : 0 < slice.bitSize)
    (hstorage : slice.bitSize ≤ byteSize * 8)
    (hfits : slice.bitOffset + slice.bitSize ≤ structSize * 8) :
    Shape structSize
      { name, offset := slice.bitOffset / 8, byteSize, isSigned, bitSlice := some slice }
  | nested {name : String} {offset byteSize : Nat} {members : List LocalStructMemberType}
    (hname : name ≠ "") (hpos : 0 < byteSize) (hle : byteSize ≤ kMaxLocalStructSize)
    (hfits : offset + byteSize ≤ structSize) (hne : members ≠ [])
    (hlength : members.length ≤ kMaxLocalStructMembers)
    (hmembers : ∀ terminal ∈ members, ∃ name offset size isSigned,
      terminal = { name, offset, byteSize := size, isSigned } ∧ name ≠ "" ∧
        IsScalarIn byteSize offset size)
    (hnames : (members.map (·.name)).Nodup) :
    Shape structSize
      { name, offset, byteSize, isSigned := false, kind := .structure_, members }

/-- The types of local values. -/
inductive LocalValueType.Shape : LocalValueType → Prop
  | integer {byteSize : Nat} {isSigned : Bool} (hpos : 0 < byteSize) (hle : byteSize ≤ 8) :
    Shape { byteSize, isSigned }
  | floating {byteSize : Nat} (h : byteSize = 4 ∨ byteSize = 8) :
    Shape { byteSize, isSigned := false, kind := .floating }
  | pointer : Shape { byteSize := 8, isSigned := false, kind := .pointer }
  | enumeration {type : LocalEnumType} (h : type.Bounded) :
    Shape { byteSize := type.byteSize, isSigned := type.isSigned, kind := .enumeration
            enumType := some type }
  | union {byteSize : Nat} {members : List LocalStructMemberType} (hpos : 0 < byteSize)
    (hle : byteSize ≤ kMaxLocalStructSize) (hne : members ≠ [])
    (hlength : members.length ≤ kMaxLocalStructMembers)
    (hmembers : ∀ member ∈ members, ∃ name size isSigned,
      member = { name, offset := 0, byteSize := size, isSigned } ∧ name ≠ "" ∧
        IsScalarIn byteSize 0 size)
    (hnames : (members.map (·.name)).Nodup) :
    Shape { byteSize, isSigned := false, kind := .union, members }
  | array {count byteSize : Nat} {isSigned : Bool} (hcount : 0 < count)
    (hbound : count ≤ kMaxLocalArrayElements) (hpos : 0 < byteSize) (hle : byteSize ≤ 8)
    (hfits : count ≤ kMaxLocalStructSize / byteSize) :
    Shape { byteSize := count * byteSize, isSigned := false, kind := .array
            arrayType := some ⟨count, byteSize, isSigned, .integer⟩ }
  | structure_ {byteSize : Nat} {members : List LocalStructMemberType} (hpos : 0 < byteSize)
    (hle : byteSize ≤ kMaxLocalStructSize) (hne : members ≠ [])
    (hlength : members.length ≤ kMaxLocalStructMembers)
    (hmembers : ∀ member ∈ members, member.Shape byteSize) :
    Shape { byteSize, isSigned := false, kind := .structure_, members }

/-- The pointees of pointer locals. -/
inductive LocalValueType.PointeeShape : LocalValueType → Prop
  | integer {byteSize : Nat} {isSigned : Bool} (hpos : 0 < byteSize) (hle : byteSize ≤ 8) :
    PointeeShape { byteSize, isSigned }
  | structure_ {byteSize : Nat} {members : List LocalStructMemberType} (hpos : 0 < byteSize)
    (hle : byteSize ≤ kMaxLocalStructSize) (hne : members ≠ [])
    (hlength : members.length ≤ kMaxLocalStructMembers)
    (hmembers : ∀ member ∈ members, member.DirectShape byteSize)
    (hnames : (members.map (·.name)).Nodup) :
    PointeeShape { byteSize, isSigned := false, kind := .structure_, members }

theorem LocalValueType.PointeeShape.shape {type : LocalValueType} (h : type.PointeeShape) :
    type.Shape := by
  cases h with
  | integer hpos hle => exact .integer hpos hle
  | structure_ hpos hle hne hlength hmembers _ =>
    exact .structure_ hpos hle hne hlength fun member hmember => .direct (hmembers member hmember)

/-- A root type: a pointer has a pointee, and nothing else does. -/
inductive BoundedRootTypeResolution.Shape : BoundedRootTypeResolution → Prop
  | value {type : LocalValueType} (h : type.Shape) (hkind : type.kind ≠ .pointer) :
    Shape ⟨type, none⟩
  | pointer {pointee : LocalValueType} (h : pointee.PointeeShape) :
    Shape ⟨{ byteSize := 8, isSigned := false, kind := .pointer }, some pointee⟩

/-! ## Attributes -/

theorem Die.boundedSize_eq_some {die : Die} {limit size : Nat}
    (h : die.boundedSize limit = some size) : 0 < size ∧ size ≤ limit := by
  unfold Die.boundedSize at h
  split at h
  · split at h
    · cases h
    · rename_i hbound
      cases h
      rw [not_or, not_lt] at hbound
      refine ⟨Nat.pos_of_ne_zero fun hzero => ?_, hbound.2⟩
      exact hbound.1 (BitVec.eq_of_toNat_eq hzero)
  · cases h

theorem Die.memberName_ne {die : Die} {name : String} (h : die.memberName = some name) :
    name ≠ "" := by
  unfold Die.memberName at h
  split at h
  · split at h
    · cases h
    · cases h
      assumption
  · cases h

namespace DieUnit

variable {u : DieUnit} {offset : Word} {i : u.Index} {member : Die} {structSize : Nat}

/-! ## Loops over children -/

section CollectChildren

variable {α : Type} {tag limit : Nat} {wrongTag tooMany : String}
  {resolve : List α → Die → Except Exception α} {members : List α}

theorem collectChildren_invariant {I : List α → Prop}
    (h : u.collectChildren i tag limit wrongTag tooMany resolve = .ok members) (hnil : I [])
    (hstep : ∀ found die a, I found → resolve found die = .ok a → I (found ++ [a])) :
    I members := by
  refine foldlM_invariant hnil (fun found child next hfound hnext => ?_) h
  simp only [throw_bind, ite_throw_eq_ok, bind_eq_ok, pure_eq_ok] at hnext
  obtain ⟨-, -, a, ha, rfl⟩ := hnext
  exact hstep found _ a hfound ha

theorem collectChildren_length
    (h : u.collectChildren i tag limit wrongTag tooMany resolve = .ok members) :
    members.length ≤ limit := by
  refine foldlM_invariant (I := fun found => found.length ≤ limit) (Nat.zero_le _) ?_ h
  intro found child next _ hnext
  simp only [throw_bind, ite_throw_eq_ok, bind_eq_ok, pure_eq_ok] at hnext
  obtain ⟨-, hroom, a, -, rfl⟩ := hnext
  rw [List.length_append, List.length_singleton]
  omega

/-- What every resolved child has. -/
theorem forall_of_collectChildren {p : α → Prop}
    (h : u.collectChildren i tag limit wrongTag tooMany resolve = .ok members)
    (hresolve : ∀ found die a, resolve found die = .ok a → p a) : ∀ a ∈ members, p a := by
  refine collectChildren_invariant (I := fun found => ∀ a ∈ found, p a) h (by simp) ?_
  intro found die a hfound ha b hb
  obtain hb | rfl := List.mem_append.mp hb |>.imp_right List.mem_singleton.mp
  · exact hfound b hb
  · exact hresolve found die b ha

end CollectChildren

theorem freshMember_eq_ok {duplicate : String} {found : List LocalStructMemberType}
    {type type' : LocalStructMemberType} (h : freshMember duplicate found type = .ok type') :
    type' = type ∧ type.name ∉ found.map (·.name) := by
  unfold freshMember at h
  rw [ite_throw_eq_ok, pure_eq_ok] at h
  refine ⟨h.2.symm, fun hmem => h.1 ?_⟩
  simpa using hmem

/-- Members that are each fresh have distinct names. -/
theorem nodup_of_collectChildren {tag limit : Nat} {wrongTag tooMany : String}
    {resolve : List LocalStructMemberType → Die → Except Exception LocalStructMemberType}
    {members : List LocalStructMemberType}
    (h : u.collectChildren i tag limit wrongTag tooMany resolve = .ok members)
    (hfresh : ∀ found die a, resolve found die = .ok a →
      ∃ duplicate type, freshMember duplicate found type = .ok a) :
    (members.map (·.name)).Nodup := by
  refine collectChildren_invariant (I := fun found => (found.map (·.name)).Nodup) h
    (by simp) ?_
  intro found die a hfound ha
  obtain ⟨duplicate, type, htype⟩ := hfresh found die a ha
  obtain ⟨rfl, hnew⟩ := freshMember_eq_ok htype
  rw [List.map_append, List.nodup_append]
  refine ⟨hfound, by simp, ?_⟩
  intro name hname other hother
  rw [List.map_singleton, List.mem_singleton] at hother
  rintro rfl
  exact hnew (hother ▸ hname)

/-! ## Resolvers -/

theorem resolveIntegerType_bound {integer : IntegerType}
    (h : u.resolveIntegerType offset = .ok integer) :
    0 < integer.byteSize ∧ integer.byteSize ≤ 8 := by
  unfold resolveIntegerType at h
  simp only [bind_eq_ok, throw_bind, ite_throw_eq_ok] at h
  obtain ⟨j, -, -, h⟩ := h
  split at h
  next size encoding hsize _ =>
    obtain ⟨-, h⟩ := ite_throw_eq_ok.mp h
    cases h
    exact Die.boundedSize_eq_some hsize
  next => cases h

theorem resolveBoundedEnumType_bounded {type : LocalEnumType}
    (h : u.resolveBoundedEnumType offset = .ok (some type)) : type.Bounded := by
  unfold resolveBoundedEnumType at h
  simp only [bind_eq_ok] at h
  obtain ⟨j, -, h⟩ := h
  split at h
  · cases h
  split at h
  · cases h
  next name hname =>
    split at h
    · cases h
    next size hsize =>
      simp only [bind_eq_ok, throw_bind, ite_throw_eq_ok, pure_eq_ok] at h
      obtain ⟨isSigned, -, enumerators, -, hne, h⟩ := h
      cases h
      obtain ⟨hpos, hle⟩ := Die.boundedSize_eq_some hsize
      exact ⟨Die.memberName_ne hname, hpos, hle, by simpa using hne⟩

theorem resolveBoundedBitSlice_bounds {integer : IntegerType} {slice : LocalBitSlice}
    (h : resolveBoundedBitSlice member integer structSize = .ok (some slice)) :
    0 < slice.bitSize ∧ slice.bitSize ≤ integer.byteSize * 8 ∧
      slice.bitOffset + slice.bitSize ≤ structSize * 8 := by
  unfold resolveBoundedBitSlice at h
  split at h
  · split at h <;> cases h
  next bitSize _ =>
    simp only [bind_eq_ok, throw_bind, ite_throw_eq_ok, pure_eq_ok] at h
    obtain ⟨hwidth, -, bitOffset, -, hfits, h⟩ := h
    cases h
    rw [not_or, not_or, not_lt] at hwidth
    rw [not_or, not_lt, not_lt] at hfits
    refine ⟨Nat.pos_of_ne_zero fun hzero => ?_, hwidth.2.2, by dsimp only; omega⟩
    exact hwidth.2.1 (BitVec.eq_of_toNat_eq hzero)

theorem resolveBoundedBitFieldMemberType_shape {type : LocalStructMemberType}
    (h : u.resolveBoundedBitFieldMemberType member structSize = .ok (some type)) :
    type.Shape structSize := by
  unfold resolveBoundedBitFieldMemberType at h
  split at h
  · cases h
  split at h
  · cases h
  next name hname =>
    split at h
    · cases h
    next reference _ =>
      simp only [bind_eq_ok] at h
      obtain ⟨integer, hinteger, slice, hslice, h⟩ := h
      cases slice with
      | none => cases h
      | some slice =>
        cases h
        obtain ⟨hpos, hle⟩ := resolveIntegerType_bound hinteger
        obtain ⟨hbits, hstorage, hfits⟩ := resolveBoundedBitSlice_bounds hslice
        exact .bitField (Die.memberName_ne hname) hpos hle hbits hstorage hfits

theorem resolveBoundedUnionMemberType_shape {unionSize : Nat} {type : LocalStructMemberType}
    (h : u.resolveBoundedUnionMemberType member unionSize = .ok type) :
    ∃ name size isSigned, type = { name, offset := 0, byteSize := size, isSigned } ∧
      name ≠ "" ∧ IsScalarIn unionSize 0 size := by
  unfold resolveBoundedUnionMemberType at h
  split at h
  · cases h
  next name hname =>
    split at h
    · cases h
    next reference _ =>
      simp only [bind_eq_ok, throw_bind, ite_throw_eq_ok, pure_eq_ok] at h
      obtain ⟨-, j, -, -, integer, -, hbound, rfl⟩ := h
      exact ⟨name, integer.byteSize, integer.isSigned, rfl, Die.memberName_ne hname,
        by omega, by omega, by omega⟩

theorem resolveBoundedUnionType_shape {type : LocalValueType}
    (h : u.resolveBoundedUnionType offset = .ok (some type)) : type.Shape := by
  unfold resolveBoundedUnionType at h
  simp only [bind_eq_ok] at h
  obtain ⟨j, -, h⟩ := h
  split at h
  · cases h
  split at h
  · cases h
  next size hsize =>
    simp only [bind_eq_ok, throw_bind, ite_throw_eq_ok, pure_eq_ok] at h
    obtain ⟨members, hmembers, hne, h⟩ := h
    cases h
    obtain ⟨hpos, hle⟩ := Die.boundedSize_eq_some hsize
    refine .union hpos hle (by simpa using hne) (collectChildren_length hmembers) ?_ ?_
    · refine forall_of_collectChildren hmembers fun found die type htype => ?_
      obtain ⟨resolved, hresolved, hfresh⟩ := bind_eq_ok.mp htype
      obtain ⟨rfl, -⟩ := freshMember_eq_ok hfresh
      exact resolveBoundedUnionMemberType_shape hresolved
    · refine nodup_of_collectChildren hmembers fun found die type htype => ?_
      obtain ⟨resolved, -, hfresh⟩ := bind_eq_ok.mp htype
      exact ⟨_, resolved, hfresh⟩

theorem resolveBoundedFixedArrayType_shape {type : LocalValueType}
    (h : u.resolveBoundedFixedArrayType offset = .ok (some type)) : type.Shape := by
  unfold resolveBoundedFixedArrayType at h
  simp only [bind_eq_ok] at h
  obtain ⟨j, -, h⟩ := h
  split at h
  · cases h
  split at h
  · cases h
  next reference _ =>
    simp only [bind_eq_ok, throw_bind, ite_throw_eq_ok] at h
    obtain ⟨element, helement, subrange, -, count, -, hcount, hfits, h⟩ := h
    have hbound : 0 < element.byteSize ∧ element.byteSize ≤ 8 := resolveIntegerType_bound helement
    have htype : type = { byteSize := count.toNat * element.byteSize, isSigned := false
                          kind := .array
                          arrayType := some ⟨count.toNat, element.byteSize, element.isSigned,
                            .integer⟩ } := by
      split at h
      · simp only [ite_throw_eq_ok, pure_eq_ok, Option.some.injEq] at h
        exact h.2.symm
      · cases h
        rfl
    rw [htype]
    exact .array (by omega) (by omega) hbound.1 hbound.2 (by omega)

/-! ## Members -/

theorem nestedTerminal_shape {nestedSize : Nat} {found : List LocalStructMemberType}
    {type : LocalStructMemberType} (h : u.nestedTerminal nestedSize found member = .ok type) :
    ∃ name offset size isSigned, type = { name, offset, byteSize := size, isSigned } ∧
      name ≠ "" ∧ IsScalarIn nestedSize offset size := by
  unfold nestedTerminal at h
  simp only [throw_bind, ite_throw_eq_ok] at h
  obtain ⟨-, h⟩ := h
  split at h
  · cases h
  next name hname =>
    split at h
    · cases h
    next reference _ =>
      split at h
      · cases h
      next offset _ =>
        simp only [bind_eq_ok, ite_throw_eq_ok] at h
        obtain ⟨integer, hinteger, hfits, hfresh⟩ := h
        obtain ⟨rfl, -⟩ := freshMember_eq_ok hfresh
        obtain ⟨hpos, hle⟩ := resolveIntegerType_bound hinteger
        exact ⟨name, offset, _, _, rfl, Die.memberName_ne hname, hpos, hle, by omega⟩

theorem nestedTerminal_fresh {nestedSize : Nat} {found : List LocalStructMemberType}
    {type : LocalStructMemberType} (h : u.nestedTerminal nestedSize found member = .ok type) :
    ∃ duplicate resolved, freshMember duplicate found resolved = .ok type := by
  unfold nestedTerminal at h
  simp only [throw_bind, ite_throw_eq_ok] at h
  obtain ⟨-, h⟩ := h
  split at h
  · cases h
  split at h
  · cases h
  split at h
  · cases h
  simp only [bind_eq_ok, ite_throw_eq_ok] at h
  obtain ⟨integer, -, -, hfresh⟩ := h
  exact ⟨_, _, hfresh⟩

theorem resolveBoundedNestedStructureMemberType_shape {type : LocalStructMemberType}
    (h : u.resolveBoundedNestedStructureMemberType member structSize = .ok (some type)) :
    type.Shape structSize := by
  unfold resolveBoundedNestedStructureMemberType at h
  split at h
  · cases h
  simp only [bind_eq_ok] at h
  obtain ⟨j, -, h⟩ := h
  split at h
  · cases h
  split at h
  · cases h
  next name hname =>
    split at h
    · cases h
    next offset _ =>
      split at h
      · cases h
      next size hsize =>
        simp only [bind_eq_ok, throw_bind, ite_throw_eq_ok, pure_eq_ok] at h
        obtain ⟨hfits, members, hmembers, hne, h⟩ := h
        cases h
        obtain ⟨hpos, hle⟩ := Die.boundedSize_eq_some hsize
        refine .nested (Die.memberName_ne hname) hpos hle (by omega) (by simpa using hne)
          (collectChildren_length hmembers) ?_ ?_
        · exact forall_of_collectChildren hmembers fun found die type => nestedTerminal_shape
        · exact nodup_of_collectChildren hmembers fun found die type => nestedTerminal_fresh

theorem pointeeMember_shape {type : LocalPointerPointeeMemberType}
    (h : u.pointeeMember structSize member = .ok type) :
    type.kind = .integer ∧ IsScalarIn structSize type.offset type.byteSize := by
  unfold pointeeMember at h
  split at h
  · simp only [bind_eq_ok, throw_bind, ite_throw_eq_ok, pure_eq_ok] at h
    obtain ⟨integer, -, hfits, rfl⟩ := h
    dsimp only
    exact ⟨rfl, by omega, by omega, by omega⟩
  · cases h

theorem resolveBoundedPointerMemberPointeeType_shape {type : LocalPointerPointeeType}
    (h : u.resolveBoundedPointerMemberPointeeType offset = .ok type) : type.Shape := by
  unfold resolveBoundedPointerMemberPointeeType at h
  simp only [bind_eq_ok] at h
  obtain ⟨j, -, h⟩ := h
  split at h
  · simp only [bind_eq_ok, pure_eq_ok] at h
    obtain ⟨integer, hinteger, rfl⟩ := h
    obtain ⟨hpos, hle⟩ := resolveIntegerType_bound hinteger
    exact .integer hpos hle
  · split at h
    · cases h
    next size hsize =>
      simp only [bind_eq_ok, throw_bind, ite_throw_eq_ok, pure_eq_ok] at h
      obtain ⟨members, hmembers, hne, rfl⟩ := h
      obtain ⟨hpos, hle⟩ := Die.boundedSize_eq_some hsize
      refine .structure_ hpos hle (by simpa using hne) (collectChildren_length hmembers) ?_
      exact forall_of_collectChildren hmembers fun found die type => pointeeMember_shape

theorem directMemberOfType_shape {name : String} {offset : Nat} {type : LocalStructMemberType}
    (hname : name ≠ "") (h : u.directMemberOfType name offset structSize i = .ok type) :
    type.DirectShape structSize := by
  unfold directMemberOfType at h
  dsimp only at h
  split at h
  · simp only [throw_bind, ite_throw_eq_ok] at h
    obtain ⟨hsize, h⟩ := h
    rw [not_not] at hsize
    split at h
    · cases h
    simp only [bind_eq_ok, ite_throw_eq_ok, pure_eq_ok] at h
    obtain ⟨pointee, hpointee, hfits, rfl⟩ := h
    rw [hsize] at hfits ⊢
    exact .pointer hname ⟨by omega, by omega, by omega⟩
      (resolveBoundedPointerMemberPointeeType_shape hpointee)
  · simp only [bind_eq_ok] at h
    obtain ⟨enumType, henum, h⟩ := h
    cases enumType with
    | some enumType =>
      simp only [throw_bind, ite_throw_eq_ok, pure_eq_ok] at h
      obtain ⟨hfits, rfl⟩ := h
      have hbounded := resolveBoundedEnumType_bounded henum
      exact .enumeration hname ⟨hbounded.size_pos, hbounded.size_le, by omega⟩ hbounded
    | none =>
      simp only [bind_eq_ok, throw_bind, ite_throw_eq_ok, pure_eq_ok] at h
      obtain ⟨integer, hinteger, hfits, rfl⟩ := h
      obtain ⟨hpos, hle⟩ := resolveIntegerType_bound hinteger
      exact .integer hname ⟨hpos, hle, by omega⟩

theorem resolveBoundedDirectStructureMemberType_shape {type : LocalStructMemberType}
    (h : u.resolveBoundedDirectStructureMemberType member structSize = .ok type) :
    type.DirectShape structSize := by
  unfold resolveBoundedDirectStructureMemberType at h
  split at h
  · cases h
  next name hname =>
    split at h
    · cases h
    split at h
    · cases h
    obtain ⟨j, -, h⟩ := bind_eq_ok.mp h
    exact directMemberOfType_shape (Die.memberName_ne hname) h

theorem rootMember_shape {type : LocalStructMemberType}
    (h : u.rootMember structSize member = .ok type) : type.Shape structSize := by
  unfold rootMember at h
  obtain ⟨bitField, hbitField, h⟩ := bind_eq_ok.mp h
  cases bitField with
  | some bitField =>
    cases h
    exact resolveBoundedBitFieldMemberType_shape hbitField
  | none =>
    obtain ⟨nested, hnested, h⟩ := bind_eq_ok.mp h
    cases nested with
    | some nested =>
      cases h
      exact resolveBoundedNestedStructureMemberType_shape hnested
    | none => exact .direct (resolveBoundedDirectStructureMemberType_shape h)

/-! ## Root types -/

theorem rootStructureType_shape {type : LocalValueType} (h : u.rootStructureType i = .ok type) :
    type.Shape := by
  unfold rootStructureType at h
  split at h
  · cases h
  next size hsize =>
    simp only [bind_eq_ok, throw_bind, ite_throw_eq_ok, pure_eq_ok] at h
    obtain ⟨members, hmembers, hne, rfl⟩ := h
    obtain ⟨hpos, hle⟩ := Die.boundedSize_eq_some hsize
    refine .structure_ hpos hle (by simpa using hne) (collectChildren_length hmembers) ?_
    exact forall_of_collectChildren hmembers fun found die type => rootMember_shape

theorem valueTypeOf_shape {type : LocalValueType} (h : u.valueTypeOf i = .ok type) :
    type.Shape := by
  unfold valueTypeOf at h
  dsimp only at h
  split at h
  · obtain ⟨enumType, henum, h⟩ := bind_eq_ok.mp h
    cases enumType with
    | none => cases h
    | some enumType =>
      cases h
      exact .enumeration (resolveBoundedEnumType_bounded henum)
  split at h
  · obtain ⟨union, hunion, h⟩ := bind_eq_ok.mp h
    cases union with
    | none => cases h
    | some union =>
      cases h
      exact resolveBoundedUnionType_shape hunion
  split at h
  · obtain ⟨array, harray, h⟩ := bind_eq_ok.mp h
    cases array with
    | none => cases h
    | some array =>
      cases h
      exact resolveBoundedFixedArrayType_shape harray
  split at h
  · simp only [throw_bind, ite_throw_eq_ok] at h
    obtain ⟨hsize, h⟩ := h
    split at h
    · cases h
    simp only [bind_eq_ok, pure_eq_ok] at h
    obtain ⟨-, -, rfl⟩ := h
    rw [not_not.mp hsize]
    exact .pointer
  split at h
  · simp only [bind_eq_ok, pure_eq_ok] at h
    obtain ⟨integer, hinteger, rfl⟩ := h
    obtain ⟨hpos, hle⟩ := resolveIntegerType_bound hinteger
    exact .integer hpos hle
  split at h
  · exact rootStructureType_shape h
  · cases h

theorem resolveValueType_shape {type : LocalValueType} (h : u.resolveValueType offset = .ok type) :
    type.Shape := by
  obtain ⟨j, -, h⟩ := bind_eq_ok.mp h
  exact valueTypeOf_shape h

theorem resolveSnapshotFloatingType_shape {type : LocalValueType}
    (h : u.resolveSnapshotFloatingType offset = .ok (some type)) :
    ∃ size, type = { byteSize := size, isSigned := false, kind := .floating } ∧
      (size = 4 ∨ size = 8) := by
  unfold resolveSnapshotFloatingType at h
  simp only [bind_eq_ok] at h
  obtain ⟨j, -, h⟩ := h
  split at h
  · cases h
  split at h
  · cases h
  split at h
  · cases h
  split at h
  · cases h
  next size _ =>
    simp only [throw_bind, ite_throw_eq_ok, pure_eq_ok, Option.some.injEq] at h
    obtain ⟨hsize, rfl⟩ := h
    refine ⟨_, rfl, ?_⟩
    by_contra hne
    rw [not_or] at hne
    exact hsize ⟨fun h4 => hne.1 (by rw [h4]; rfl), fun h8 => hne.2 (by rw [h8]; rfl)⟩

theorem resolveSnapshotStructurePointeeType_shape {type : LocalValueType}
    (h : u.resolveSnapshotStructurePointeeType offset = .ok type) : type.PointeeShape := by
  unfold resolveSnapshotStructurePointeeType at h
  simp only [bind_eq_ok, throw_bind, ite_throw_eq_ok] at h
  obtain ⟨j, -, -, h⟩ := h
  split at h
  · cases h
  next size hsize =>
    simp only [bind_eq_ok, ite_throw_eq_ok, pure_eq_ok] at h
    obtain ⟨members, hmembers, hne, rfl⟩ := h
    obtain ⟨hpos, hle⟩ := Die.boundedSize_eq_some hsize
    refine .structure_ hpos hle (by simpa using hne) (collectChildren_length hmembers) ?_ ?_
    · refine forall_of_collectChildren hmembers fun found die type htype => ?_
      obtain ⟨resolved, hresolved, hfresh⟩ := bind_eq_ok.mp htype
      obtain ⟨rfl, -⟩ := freshMember_eq_ok hfresh
      exact resolveBoundedDirectStructureMemberType_shape hresolved
    · refine nodup_of_collectChildren hmembers fun found die type htype => ?_
      obtain ⟨resolved, -, hfresh⟩ := bind_eq_ok.mp htype
      exact ⟨_, resolved, hfresh⟩

theorem resolvePointerPointeeType_shape {type : LocalValueType}
    (h : u.resolvePointerPointeeType offset = .ok (some type)) : type.PointeeShape := by
  unfold resolvePointerPointeeType at h
  simp only [bind_eq_ok] at h
  obtain ⟨j, -, h⟩ := h
  split at h
  · cases h
  simp only [throw_bind, ite_throw_eq_ok] at h
  obtain ⟨-, h⟩ := h
  split at h
  · cases h
  simp only [bind_eq_ok] at h
  obtain ⟨k, -, h⟩ := h
  split at h
  · simp only [bind_eq_ok, pure_eq_ok, Option.some.injEq] at h
    obtain ⟨integer, hinteger, rfl⟩ := h
    obtain ⟨hpos, hle⟩ := resolveIntegerType_bound hinteger
    exact .integer hpos hle
  split at h
  · simp only [bind_eq_ok, pure_eq_ok, Option.some.injEq] at h
    obtain ⟨pointee, hpointee, rfl⟩ := h
    exact resolveSnapshotStructurePointeeType_shape hpointee
  · cases h

end DieUnit

end MiniDebugger
