import MiniDebugger.Coincide
import MiniDebugger.Dwarf.Leb128Readers
import MiniDebugger.Dwarf.MemberLookups

/-!
# The innermost frame, live and in a core

`inspect_unit` and `inspect_snapshot_unit` read a local of the innermost frame, the one from a
stopped tracee and the other from a core of it. They select the same entry and resolve the same
type, and the only locations that both accept are a `DW_OP_fbreg` and the `DW_OP_breg3` form: at the
innermost frame a core has neither RDI nor RSI, R12 or XMM0.
-/

namespace MiniDebugger

open Checks

/-! ## Selection -/

namespace DieUnit

variable {u : DieUnit} {pc : Word} {name : String} {sections : LocationSections}

theorem coincide_findSubprogram (texts texts' : LookupTexts) :
    Coincide Eq (u.findSubprogram texts pc) (u.findSubprogram texts' pc) := by
  refine coincide_foldlM (fun found found' index hfound => ?_) _ rfl
  subst hfound
  refine coincide_ite (fun _ => coincide_pure rfl) fun _ => ?_
  refine (coincide_self _).bind fun inside inside' hinside => ?_
  subst hinside
  refine coincide_ite (fun _ => coincide_pure rfl) fun _ => ?_
  exact coincide_throw_ite fun _ => coincide_pure rfl

theorem coincide_selectStep (texts texts' : LookupTexts) (subprogram : u.Index)
    (selection : LocalSelection u) (index : u.Index) :
    Coincide Eq (u.selectStep texts subprogram pc name selection index)
      (u.selectStep texts' subprogram pc name selection index) := by
  unfold selectStep
  refine coincide_ite (fun _ => coincide_pure rfl) fun _ => ?_
  refine (coincide_self _).bind fun dieName dieName' hname => ?_
  subst hname
  cases dieName with
  | none => exact coincide_pure rfl
  | some dieName =>
    refine coincide_ite (fun _ => coincide_pure rfl) fun _ => ?_
    refine (coincide_self _).bind fun depth depth' hdepth => ?_
    subst hdepth
    cases depth with
    | none => exact coincide_self _
    | some depth =>
      dsimp only
      split
      · exact coincide_pure rfl
      · refine coincide_ite (fun _ => coincide_pure rfl) fun _ => ?_
        exact coincide_ite (fun _ => coincide_throw_left _ _) fun _ => coincide_pure rfl

theorem coincide_selectLocal (texts texts' : LookupTexts) :
    Coincide Eq (u.selectLocal texts pc name) (u.selectLocal texts' pc name) := by
  refine (coincide_findSubprogram texts texts').bind fun subprogram subprogram' hsubprogram => ?_
  subst hsubprogram
  cases subprogram with
  | none => exact coincide_pure rfl
  | some subprogram =>
    have hscan : Coincide Eq
        ((List.finRange u.size).foldlM (u.selectStep texts subprogram pc name) {})
        ((List.finRange u.size).foldlM (u.selectStep texts' subprogram pc name) {}) :=
      coincide_foldlM (fun selection selection' index hselection =>
        hselection ▸ coincide_selectStep texts texts' subprogram selection index) _ rfl
    refine hscan.bind fun selection selection' hselection => ?_
    subst hselection
    split
    · exact coincide_pure rfl
    · exact coincide_ite (fun _ => coincide_throw_left _ _) fun _ => coincide_throw_left _ _

/-! ## Types -/

theorem coincide_unwrapFrom (texts texts' : WrapperTexts) (depth : Nat) (offset : Word) :
    Coincide Eq (u.unwrapFrom texts depth offset) (u.unwrapFrom texts' depth offset) := by
  induction depth generalizing offset with
  | zero => exact coincide_throw_left _ _
  | succ depth ih =>
    unfold unwrapFrom
    cases u.dieIndexByOffset offset with
    | none => exact coincide_throw_left _ _
    | some i =>
      refine coincide_ite (fun _ => ?_) fun _ => coincide_pure rfl
      cases (u.die i).typeReference with
      | none => exact coincide_throw_left _ _
      | some wrapped => exact ih wrapped

theorem coincide_unwrap (texts texts' : WrapperTexts) (offset : Word) :
    Coincide Eq (u.unwrap texts offset) (u.unwrap texts' offset) :=
  coincide_unwrapFrom texts texts' 16 offset

/-- The type of a local, but for the floating-point types, which only a core knows. -/
def SameRoot (live core : BoundedRootTypeResolution) : Prop :=
  core.valueType.kind ≠ .floating → live.valueType = core.valueType

theorem kind_of_resolveSnapshotFloatingType {offset : Word} {type : LocalValueType}
    (h : u.resolveSnapshotFloatingType offset = .ok (some type)) : type.kind = .floating := by
  obtain ⟨i, -, h⟩ := bind_eq_ok.mp h
  dsimp only at h
  split at h
  · cases h
  split at h
  · cases h
  split at h
  · cases h
  split at h
  · cases h
  · obtain rfl := Option.some.inj (pure_eq_ok.mp (ite_throw_eq_ok.mp h).2)
    rfl

/-- A pointer is eight bytes for both resolvers. -/
theorem coincide_pointer (offset : Word) :
    Coincide (fun type pointee => ∀ target, pointee = some target →
        type = { byteSize := 8, isSigned := false, kind := .pointer })
      (u.resolveValueType offset) (u.resolvePointerPointeeType offset) := by
  refine (coincide_unwrap _ _ offset).bind fun i i' hi => ?_
  subst hi
  intro type pointee htype hpointee target htarget
  subst htarget
  split at hpointee
  · cases hpointee
  next htag =>
    obtain ⟨hsize, -⟩ := ite_throw_eq_ok.mp hpointee
    have hpointer : (u.die i).tag = kDwTagPointerType := not_not.mp htag
    unfold valueTypeOf at htype
    dsimp only at htype
    rw [hpointer, if_neg (by decide), if_neg (by decide), if_neg (by decide), if_pos rfl] at htype
    obtain ⟨-, htype⟩ := ite_throw_eq_ok.mp htype
    split at htype
    · cases htype
    · obtain ⟨_, -, htype⟩ := bind_eq_ok.mp htype
      obtain rfl := pure_eq_ok.mp htype
      rw [not_not.mp hsize]

theorem coincide_root (offset : Word) :
    Coincide SameRoot (u.resolveLiveType offset) (u.resolveBoundedRootValueType offset) := by
  intro live core hlive hcore
  obtain ⟨type, htype, hlive⟩ := bind_eq_ok.mp hlive
  obtain rfl := pure_eq_ok.mp hlive
  obtain ⟨floating, hfloating, hcore⟩ := bind_eq_ok.mp hcore
  cases floating with
  | some floating =>
    obtain rfl := pure_eq_ok.mp hcore
    exact fun hkind => absurd (kind_of_resolveSnapshotFloatingType hfloating) hkind
  | none =>
    obtain ⟨pointee, hpointee, hcore⟩ := bind_eq_ok.mp hcore
    cases pointee with
    | some pointee =>
      obtain rfl := pure_eq_ok.mp hcore
      exact fun _ => coincide_pointer offset _ _ htype hpointee pointee rfl
    | none =>
      obtain ⟨type', htype', hcore⟩ := bind_eq_ok.mp hcore
      obtain rfl := pure_eq_ok.mp hcore
      exact fun _ => Except.ok.inj (htype.symm.trans htype')

/-! ## Bindings -/

/-- What the evaluators go by, but for the pointee. -/
structure SameBinding (live core : u.LocalBinding) : Prop where
  subprogram : live.subprogram = core.subprogram
  root : SameRoot live.root core.root
  expression : live.expression = core.expression

theorem coincide_bindValue (texts : BindingTexts) (base : Word) (subprogram value : u.Index) :
    Coincide SameBinding (u.bindValue texts u.resolveLiveType sections pc base subprogram value)
      (u.bindValue texts u.resolveBoundedRootValueType sections pc base subprogram value) := by
  refine (coincide_self _).bind fun type type' htype => ?_
  subst htype
  cases (u.die value).attribute kDwAtLocation with
  | none => exact coincide_throw_left _ _
  | some location =>
    cases type with
    | none => exact coincide_throw_left _ _
    | some type =>
      refine coincide_throw_ite fun _ => (coincide_root _).bind fun root root' hroot => ?_
      refine coincide_ite (fun _ => coincide_pure ⟨rfl, hroot, rfl⟩) fun _ => ?_
      refine coincide_ite (fun _ => ?_) fun _ => coincide_throw_left _ _
      refine (coincide_self _).bind fun expression expression' hexpression => ?_
      exact coincide_pure ⟨rfl, hroot, hexpression⟩

/-- The two evaluators go by the same entries, or both leave the unit to others. -/
theorem coincide_bind :
    Coincide (Option.Rel SameBinding) (u.bindCurrent sections pc name)
      (u.bindSnapshot sections pc name) := by
  refine (coincide_findSubprogram _ _).bind fun subprogram subprogram' hsubprogram => ?_
  subst hsubprogram
  refine (coincide_selectLocal _ _).bind fun value value' hvalue => ?_
  subst hvalue
  cases subprogram with
  | none => exact coincide_pure .none
  | some subprogram =>
    cases value with
    | none => exact coincide_pure .none
    | some value =>
      refine (coincide_bindValue _ _ _ _).bind fun binding binding' hbinding => ?_
      exact coincide_pure (.some hbinding)

end DieUnit

/-! ## Addresses -/

theorem coincide_readDwarfSleb (bytes : List Byte) (limit cursor : Nat) (what what' : String) :
    Coincide Eq (readDwarfSleb bytes limit what cursor)
      (readDwarfSleb bytes limit what' cursor) := by
  intro left right hleft hright
  have hsame : readDwarfSleb bytes limit what' cursor = .ok left :=
    (readSleb_eq_ok (.debugInfo what')).mpr ((readSleb_eq_ok (.debugInfo what)).mp hleft)
  exact Except.ok.inj (hsame.symm.trans hright)

theorem coincide_fbregOffset {wrongForm what trailing wrongForm' what' trailing' : String}
    (expression : List Byte) :
    Coincide Eq (fbregOffset wrongForm what trailing expression)
      (fbregOffset wrongForm' what' trailing' expression) := by
  refine coincide_throw_ite fun _ => Coincide.bind (r := Eq) ?_ fun left right hsame => ?_
  · refine Coincide.bind (coincide_readDwarfSleb expression _ 1 what what') ?_
    rintro ⟨offset, next⟩ _ rfl
    refine Coincide.bind (r := Eq) (coincide_throw_ite fun _ => coincide_pure rfl) ?_
    rintro ⟨_, stop⟩ _ rfl
    exact coincide_pure rfl
  · subst hsame
    exact coincide_pure rfl

theorem coincide_addSigned (base : Word) (offset : Int) (what what' : String) :
    Coincide Eq (addSigned base offset what) (addSigned base offset what') := by
  intro left right hleft hright
  have hsame : (addSigned base offset what').toOption = some left := addSigned_ok_iff.mp hleft
  exact Option.some.inj (hsame.symm.trans (addSigned_ok_iff.mp hright))

/-- The CFA does not depend on the memory that the saved registers are read from. -/
theorem coincide_callerFrame {cfi : EhFrame} {readMemory readMemory' : CfiMemoryReader}
    {pc : Word} {current : EhFrameCursor} (havailable : cfi.available = true) :
    Coincide (Option.Rel fun live core => live.stackPointer = core.stackPointer)
      (cfi.callerFrame readMemory pc current) (cfi.callerFrame readMemory' pc current) := by
  rw [callerFrame_eq havailable, callerFrame_eq havailable]
  refine (coincide_self _).bind fun row row' hrow => ?_
  subst hrow
  cases row with
  | none => exact coincide_pure .none
  | some row =>
    refine Coincide.bind (r := fun live core => live.stackPointer = core.stackPointer) ?_
      fun live core hsame => coincide_pure (.some hsame)
    intro live core hlive hcore
    obtain ⟨evaluated, hevaluated, -, -, hcfa, -⟩ := callerOfRow_ok hlive
    obtain ⟨evaluated', hevaluated', -, -, hcfa', -⟩ := callerOfRow_ok hcore
    obtain ⟨-, hrow, -⟩ := frameOfRow_ok_iff.mp hevaluated
    obtain ⟨-, hrow', -⟩ := frameOfRow_ok_iff.mp hevaluated'
    rw [hcfa, hcfa']
    exact Except.ok.inj (hrow.symm.trans hrow')

/-- A module of a stopped tracee and the same module of a core, at the innermost frame: the
registers, the call-frame information, the distance of the module from where it was linked and the
bytes that can be read are the same. -/
structure LiveModule.SameFrame (m : LiveModule) (c : CoreFrame) : Prop where
  rdi : c.frame.registers.rdi = none
  r12 : c.frame.registers.r12 = none
  rbx : c.frame.registers.rbx = some m.tracee.registers.rbx
  rsp : c.frame.registers.rsp = some m.tracee.registers.rsp
  cursor : c.frame.cursor = m.tracee.registers.cursor
  cfi : Coincide Eq m.cfi (c.files.ehFrame c.owner.moduleFilePath)
  bias : ∀ bias, m.tracee.loadBias m.elf = .ok bias →
    c.owner.virtualAddress = m.tracee.registers.rip - bias
  memory : ∀ address length bytes, m.tracee.readMemory address length = .ok bytes →
    ∀ index byte, bytes[index]? = some byte →
      c.snapshot.capturedByte (address + BitVec.ofNat 64 index) = .ok (some byte)

namespace LiveModule.SameFrame

variable {m : LiveModule} {c : CoreFrame}

theorem coincide_tracee (h : m.SameFrame c) {cfi : EhFrame} (havailable : cfi.available = true) :
    Coincide (Option.Rel fun live core => live.stackPointer = core.stackPointer)
      (m.tracee.callerFrame cfi m.elf m.tracee.registers.cursor)
      (cfi.callerFrame (frameBaseMemory c.snapshot c.files c.artifact) c.owner.virtualAddress
        c.frame.cursor) := by
  unfold Tracee.callerFrame
  rw [if_neg (by simp [havailable])]
  refine coincide_ite_throw_left fun _ => ?_
  intro live core hlive hcore
  obtain ⟨bias, hbias, hlive⟩ := bind_eq_ok.mp hlive
  obtain ⟨-, hlive⟩ := ite_throw_eq_ok.mp hlive
  rw [h.bias bias hbias, h.cursor] at hcore
  exact coincide_callerFrame havailable live core hlive hcore

/-- Both evaluate the frame base to the same address, where both know the operation. -/
theorem coincide_frameBase (h : m.SameFrame c) {subprogram : Die} {base : AttributeValue}
    (hbase : subprogram.attribute kDwAtFrameBase = some base) :
    Coincide Eq (m.frameBase base.expression)
      (snapshotFrameBase subprogram c.snapshot c.frame c.files c.artifact c.owner) := by
  unfold snapshotFrameBase frameBase
  rw [hbase]
  dsimp only
  generalize base.expression = expression
  match expression with
  | [] => exact coincide_throw_left _ _
  | _ :: _ :: _ => exact coincide_throw_left _ _
  | [op] =>
    refine coincide_ite_throw_right fun _ => ?_
    dsimp only
    by_cases hrsp : op = kDwOpReg7
    · subst hrsp
      rw [if_neg (by decide), if_pos rfl, if_pos (by decide), h.rsp]
      exact coincide_ite_throw_right fun _ => coincide_pure rfl
    rw [if_neg (show op ≠ kSnapshotDwOpRsp from hrsp)]
    by_cases hrbp : op = kDwOpReg6
    · subst hrbp
      exact coincide_ite_throw_right fun hcfa => absurd (by decide) hcfa
    rw [if_neg hrbp, if_neg hrsp]
    refine coincide_throw_ite fun _ => h.cfi.bind fun cfi cfi' hcfi => ?_
    subst hcfi
    refine coincide_throw_ite fun havailable => ?_
    refine Coincide.bind (r := Option.Rel fun live core => live.stackPointer = core.stackPointer)
      ?_ fun live core hsame => ?_
    · exact h.coincide_tracee (by simpa using havailable)
    · cases hsame with
      | none => exact coincide_throw_left _ _
      | some hsame => exact coincide_pure hsame

end LiveModule.SameFrame

/-! ## Values -/

/-- The same value, wherever it is stored and whatever it points to. -/
structure LocalScalarValue.SameValue (left right : LocalScalarValue) : Prop where
  rawValue : left.rawValue = right.rawValue
  byteSize : left.byteSize = right.byteSize
  isSigned : left.isSigned = right.isSigned
  kind : left.kind = right.kind
  members : left.members = right.members
  elements : left.elements = right.elements

namespace LocalScalarValue

variable {left middle right value : LocalScalarValue} {type : LocalValueType}

theorem SameValue.trans (h : left.SameValue middle) (h' : middle.SameValue right) :
    left.SameValue right :=
  ⟨h.rawValue.trans h'.rawValue, h.byteSize.trans h'.byteSize, h.isSigned.trans h'.isSigned,
    h.kind.trans h'.kind, h.members.trans h'.members, h.elements.trans h'.elements⟩

theorem sameValue_valueIn (modulePath modulePath' name name' : String) (bytes : List Byte) :
    (type.valueIn modulePath name bytes).SameValue (type.valueIn modulePath' name' bytes) := by
  unfold LocalValueType.valueIn
  split <;> exact ⟨rfl, rfl, rfl, rfl, rfl, rfl⟩

theorem sameValue_attachStorage (value : LocalScalarValue) (memory : SnapshotMemoryRead) :
    value.SameValue (attachStorage value memory) := by
  unfold attachStorage
  split <;> exact ⟨rfl, rfl, rfl, rfl, rfl, rfl⟩

theorem sameValue_attachPointerMetadata {pointee : Option LocalValueType}
    (h : attachPointerMetadata left pointee = .ok right) : left.SameValue right := by
  by_cases hkind : left.kind = .pointer
  · obtain ⟨target, -, rfl⟩ := attachPointerMetadata_pointer hkind h
    exact ⟨rfl, rfl, rfl, rfl, rfl, rfl⟩
  · unfold attachPointerMetadata at h
    rw [if_pos hkind] at h
    obtain rfl := pure_eq_ok.mp h
    exact ⟨rfl, rfl, rfl, rfl, rfl, rfl⟩

end LocalScalarValue

theorem materializeSnapshotMemoryValue_cases {modulePath name : String} {type : LocalValueType}
    {memory : SnapshotMemoryRead} {requireOwnerMatch : Bool} {value : LocalScalarValue}
    (h : materializeSnapshotMemoryValue modulePath name type memory requireOwnerMatch = .ok value) :
    ∃ result, materializeSnapshotBytes modulePath name type memory = .ok result ∧
      value = attachStorage result memory := by
  obtain ⟨result, hresult, h⟩ := bind_eq_ok.mp h
  refine ⟨result, hresult, ?_⟩
  unfold attachStorage
  split at h
  next hcore => rw [if_pos hcore, pure_eq_ok.mp h]
  next hcore => rw [if_neg hcore, pure_eq_ok.mp (ite_throw_eq_ok.mp h).2]

theorem readInteger_eq_ok {readMemory : CfiMemoryReader} {address : Word} {byteSize : Nat}
    {raw : Word} (h : readInteger readMemory address byteSize = .ok raw) :
    ∃ bytes, readMemory address byteSize = .ok bytes ∧ bytes.length = byteSize ∧
      raw = BitVec.ofNat 64 (littleEndian bytes) := by
  obtain ⟨bytes, hbytes, h⟩ := bind_eq_ok.mp h
  obtain ⟨hlength, h⟩ := ite_throw_eq_ok.mp h
  have hlength : bytes.length = byteSize := not_not.mp hlength
  refine ⟨bytes, hbytes, hlength, ?_⟩
  rw [← pure_eq_ok.mp (ite_throw_eq_ok.mp h).2, List.drop_zero, List.take_of_length_le hlength.le]

theorem LiveModule.readWhole_eq_ok {m : LiveModule} {address : Word} {length : Nat} {short : String}
    {bytes : List Byte} (h : m.readWhole address length short = .ok bytes) :
    m.tracee.readMemory address length = .ok bytes ∧ bytes.length = length := by
  obtain ⟨read, hread, h⟩ := bind_eq_ok.mp h
  obtain ⟨hlength, h⟩ := ite_throw_eq_ok.mp h
  obtain rfl := pure_eq_ok.mp h
  exact ⟨hread, not_not.mp hlength⟩

/-- What a live evaluator makes of an address. -/
theorem LiveModule.valueAt_eq_ok {m : LiveModule} {name : String} {type : LocalValueType}
    {address : Word} {value : LocalScalarValue} (hshape : type.Shape)
    (h : m.valueAt name type address = .ok value) :
    ∃ bytes, m.tracee.readMemory address type.byteSize = .ok bytes ∧
      bytes.length = type.byteSize ∧ value = type.valueIn m.elf.path name bytes := by
  unfold valueAt at h
  unfold LocalValueType.valueIn
  split at h
  next hkind =>
    obtain ⟨bytes, hbytes, h⟩ := bind_eq_ok.mp h
    obtain ⟨hread, hlength⟩ := readWhole_eq_ok hbytes
    rw [LocalValueType.decodeStructure_eq hshape hkind hlength] at h
    exact ⟨bytes, hread, hlength, by rw [hkind]; exact (Except.ok.inj h).symm⟩
  next hkind =>
    obtain ⟨bytes, hbytes, h⟩ := bind_eq_ok.mp h
    obtain ⟨hread, hlength⟩ := readWhole_eq_ok hbytes
    obtain ⟨arrayType, harray, heq⟩ :=
      LocalValueType.materializeBoundedArrayBytes_eq hshape hkind hlength
    rw [heq] at h
    exact ⟨bytes, hread, hlength, by rw [hkind, harray]; exact (Except.ok.inj h).symm⟩
  next hkind =>
    obtain ⟨bytes, hbytes, h⟩ := bind_eq_ok.mp h
    obtain ⟨hread, hlength⟩ := readWhole_eq_ok hbytes
    rw [LocalValueType.materializeBoundedUnionBytes_eq hshape hkind hlength] at h
    exact ⟨bytes, hread, hlength, by rw [hkind]; exact (Except.ok.inj h).symm⟩
  next hstructure harray hunion =>
    obtain ⟨raw, hraw, h⟩ := bind_eq_ok.mp h
    obtain ⟨bytes, hread, hlength, rfl⟩ := readInteger_eq_ok hraw
    obtain ⟨-, -, rfl⟩ := LocalScalarValue.materializeLiveScalar_eq h
    refine ⟨bytes, hread, hlength, ?_⟩
    split
    · exact absurd ‹_› hstructure
    · exact absurd ‹_› hunion
    · exact absurd ‹_› harray
    · rfl

/-- What the core evaluator makes of an address. -/
theorem CoreFrame.memoryValue_eq_ok {c : CoreFrame} {name : String} {type : LocalValueType}
    {address : Word} {value : LocalScalarValue} (hshape : type.Shape)
    (h : c.memoryValue name type address = .ok value) :
    ∃ memory, readSnapshotMemory c.snapshot c.files c.artifact address type.byteSize = .ok memory ∧
      memory.bytes.length = type.byteSize ∧
      value = attachStorage (type.valueIn c.owner.modulePath name memory.bytes) memory := by
  obtain ⟨memory, hmemory, h⟩ := bind_eq_ok.mp h
  obtain ⟨result, hresult, rfl⟩ := materializeSnapshotMemoryValue_cases h
  have hlength := LocalScalarValue.length_of_materializeSnapshotBytes hresult
  rw [LocalValueType.materializeSnapshotBytes_eq hshape hlength] at hresult
  exact ⟨memory, hmemory, hlength, by rw [Except.ok.inj hresult]⟩

namespace LiveModule.SameFrame

variable {m : LiveModule} {c : CoreFrame} {name : String} {subprogram : Die}
  {type : LocalValueType} {expression : List Byte} {address : Word}

/-- The core holds what a live read returns. -/
theorem bytes_eq (h : m.SameFrame c) {length : Nat} {bytes : List Byte}
    {memory : SnapshotMemoryRead}
    (hlive : m.tracee.readMemory address length = .ok bytes) (hlength : bytes.length = length)
    (hcore : readSnapshotMemory c.snapshot c.files c.artifact address length = .ok memory)
    (hsize : memory.bytes.length = length) : memory.bytes = bytes := by
  have hbyte {index : Nat} (hindex : index < length) :
      c.snapshot.byteAt (address + BitVec.ofNat 64 index) = bytes[index]? := by
    have hsome := List.getElem?_eq_getElem (hlength ▸ hindex)
    rw [CoreSnapshot.byteAt, h.memory address length bytes hlive index _ hsome, hsome]
    rfl
  obtain ⟨-, ⟨-, rfl⟩ | ⟨homitted, -⟩⟩ := readSnapshotMemory_cases hcore
  · refine List.ext_getElem (by simp [hlength]) fun index hleft hright => ?_
    simp only [List.getElem_map, List.getElem_range]
    rw [hbyte (hlength ▸ hright), List.getElem?_eq_getElem hright, Option.getD_some]
  · obtain hzero | hpos := Nat.eq_zero_or_pos length
    · rw [List.length_eq_zero_iff.mp (hsize.trans hzero),
        List.length_eq_zero_iff.mp (hlength.trans hzero)]
    · have hnone := hbyte hpos
      rw [homitted 0 hpos, List.getElem?_eq_getElem (hlength ▸ hpos)] at hnone
      cases hnone

theorem coincide_valueAt (h : m.SameFrame c) (hshape : type.Shape) :
    Coincide LocalScalarValue.SameValue (m.valueAt name type address)
      (c.memoryValue name type address) := by
  intro left right hleft hright
  obtain ⟨bytes, hlive, hlength, rfl⟩ := LiveModule.valueAt_eq_ok hshape hleft
  obtain ⟨memory, hcore, hsize, rfl⟩ := CoreFrame.memoryValue_eq_ok hshape hright
  rw [h.bytes_eq hlive hlength hcore hsize]
  exact (LocalScalarValue.sameValue_valueIn _ _ _ _ bytes).trans
    (LocalScalarValue.sameValue_attachStorage _ memory)

/-- The two places that `DW_OP_fbreg` stands for are one. -/
theorem coincide_address (h : m.SameFrame c) (kind : LocalValueKind) (what : String) :
    Coincide Eq (m.frameAddress kind subprogram expression)
      (c.fbregAddress subprogram expression what) := by
  unfold frameAddress
  refine coincide_ite_throw_left fun _ => ?_
  cases hbase : subprogram.attribute kDwAtFrameBase with
  | none => exact coincide_throw_left _ _
  | some base =>
    refine coincide_ite_throw_left fun _ => (h.coincide_frameBase hbase).bind ?_
    rintro start _ rfl
    refine (coincide_fbregOffset expression).bind ?_
    rintro offset _ rfl
    exact coincide_addSigned start offset _ _

end LiveModule.SameFrame

/-! ## Locations -/

namespace LiveModule

variable {m : LiveModule} {name : String} {subprogram : Die} {type : LocalValueType}
  {expression : List Byte} {op : Byte}

/-- The operations that a live evaluator reads registers for. -/
def registerOperations : List Byte :=
  [kDwOpReg0, kDwOpReg5, kDwOpEntryValue, kDwOpBreg8, kDwOpBreg3, kDwOpBreg5]

theorem registerScalar_none {byteSize : Nat} (hop : expression.head? = some op)
    (hother : op ∉ registerOperations) :
    m.registerScalar subprogram byteSize expression = .ok none := by
  simp only [registerOperations, List.mem_cons, List.not_mem_nil, or_false, not_or] at hother
  obtain ⟨hreg0, hreg5, hentry, hbreg8, hbreg3, hbreg5⟩ := hother
  have hsingle {other : Byte} (hne : op ≠ other) : expression ≠ [other] := by
    rintro rfl
    exact hne (Option.some.inj hop).symm
  unfold registerScalar
  dsimp only
  rw [if_neg (hsingle hreg0), if_neg (hsingle hreg5), hop]
  dsimp only
  rw [if_neg hentry, if_neg hbreg8, if_neg hbreg3, if_neg hbreg5]
  rfl

/-- Any other operation stands for an address. -/
theorem inspectUnitValue_eq (hop : expression.head? = some op) (hother : op ∉ registerOperations) :
    m.inspectUnitValue name subprogram type expression =
      (do m.valueAt name type (← m.frameAddress type.kind subprogram expression)) := by
  have hpieces : ¬(type.kind = .structure_ ∧ expression.head? = some kDwOpReg5) := by
    rintro ⟨-, hreg5⟩
    obtain rfl := Option.some.inj (hop.symm.trans hreg5)
    exact hother (by decide)
  unfold inspectUnitValue
  rw [registerScalar_none hop hother]
  cases type.kind.isAggregate with
  | false => exact if_neg hpieces
  | true => exact if_neg hpieces

/-- The address can only be one of the frame. -/
theorem inspectUnitValue_ne_ok {value : LocalScalarValue} (hop : expression.head? = some op)
    (hother : op ∉ registerOperations) (hfbreg : op ≠ kDwOpFbreg) :
    m.inspectUnitValue name subprogram type expression ≠ .ok value := by
  rw [inspectUnitValue_eq hop hother]
  intro h
  obtain ⟨address, haddress, -⟩ := bind_eq_ok.mp h
  exact (ite_throw_eq_ok.mp haddress).1 (by rw [hop]; simpa using hfbreg)

/-- A register and a constant, and a scalar made of them. -/
theorem inspectUnitValue_breg3 {value : LocalScalarValue}
    (hop : expression.head? = some kDwOpBreg3) (hkind : type.kind.isAggregate = false)
    (h : m.inspectUnitValue name subprogram type expression = .ok value) :
    ∃ raw, evaluateBreg3XorStackValue expression m.tracee.registers.rbx = .ok raw ∧
      value = type.scalarOf m.elf.path name (truncateInteger raw type.byteSize) := by
  have hsingle {other : Byte} (hne : kDwOpBreg3 ≠ other) : expression ≠ [other] := by
    rintro rfl
    exact hne (Option.some.inj hop).symm
  unfold inspectUnitValue registerScalar at h
  rw [hkind] at h
  simp only [Bool.false_eq_true, if_false] at h
  rw [if_neg (hsingle (by decide)), if_neg (hsingle (by decide)), hop] at h
  dsimp only at h
  rw [if_neg (by decide), if_neg (by decide), if_pos rfl] at h
  obtain ⟨found, hfound, h⟩ := bind_eq_ok.mp h
  obtain ⟨raw, hraw, hfound⟩ := bind_eq_ok.mp hfound
  obtain rfl := pure_eq_ok.mp hfound
  exact ⟨raw, hraw, (LocalScalarValue.materializeLiveScalar_eq h).2.2⟩

end LiveModule

namespace CoreFrame

variable {c : CoreFrame} {name : String} {subprogram : Die} {root : BoundedRootTypeResolution}
  {expression : List Byte} {value : LocalScalarValue}

theorem restoredScalar_none (texts : RegisterTexts) :
    c.restoredScalar texts none name root expression ≠ .ok value := by
  intro h
  simp only [restoredScalar, throw_bind, ite_throw_eq_ok] at h
  cases h.2.2

theorem restoredStructure_none {type : LocalValueType} (hrdi : c.frame.registers.rdi = none) :
    c.restoredStructure name type expression ≠ .ok value := by
  intro h
  unfold restoredStructure at h
  rw [hrdi] at h
  cases h

/-- A register and a constant, and a scalar made of them. -/
theorem historicalRbxValue_eq_ok {rbx : Word} (modulePath : String)
    (hrbx : c.frame.registers.rbx = some rbx)
    (h : c.historicalRbxValue name root expression = .ok value) :
    root.valueType.kind.isAggregate = false ∧ root.valueType.kind ≠ .floating ∧
      ∃ raw, evaluateBreg3XorStackValue expression rbx = .ok raw ∧
        (root.valueType.scalarOf modulePath name
          (truncateInteger raw root.valueType.byteSize)).SameValue value := by
  simp only [historicalRbxValue, throw_bind, ite_throw_eq_ok] at h
  obtain ⟨hkind, h⟩ := h
  simp only [not_or, Bool.not_eq_true] at hkind
  rw [hrbx] at h
  obtain ⟨raw, hraw, h⟩ := bind_eq_ok.mp h
  have hattach := LocalScalarValue.sameValue_attachPointerMetadata h
  exact ⟨hkind.1, hkind.2.2, raw, hraw,
    ⟨hattach.rawValue, hattach.byteSize, hattach.isSigned, hattach.kind, hattach.members,
      hattach.elements⟩⟩

/-- What is read at an address of the innermost frame. -/
inductive FrameZeroValue (c : CoreFrame) (name : String) (subprogram : Die)
    (root : BoundedRootTypeResolution) (expression : List Byte) (value : LocalScalarValue) : Prop
  | other {op : Byte} (hop : expression.head? = some op)
      (hother : op ∉ LiveModule.registerOperations) (hfbreg : op ≠ kDwOpFbreg)
  | frame {address : Word} (hop : expression.head? = some kDwOpFbreg)
      (hkind : root.valueType.kind ≠ .floating)
      (haddress : c.fbregAddress subprogram expression "snapshot DW_OP_fbreg runtime address" =
        .ok address) (hvalue : c.memoryValue name root.valueType address = .ok value)
  | register (hop : expression.head? = some kDwOpBreg3)
      (hvalue : c.historicalRbxValue name root expression = .ok value)

/-- The forms of a location that `inspect_snapshot_unit` accepts without RDI and R12. -/
theorem frameZeroValue_of_ok (hrdi : c.frame.registers.rdi = none)
    (hr12 : c.frame.registers.r12 = none)
    (h : c.inspectSnapshotUnitValue name subprogram root expression = .ok value) :
    c.FrameZeroValue name subprogram root expression value := by
  unfold inspectSnapshotUnitValue at h
  dsimp only at h
  split at h
  · cases h
  next op hop =>
    split at h
    next hxmm0 =>
      subst hxmm0
      exact .other hop (by decide) (by decide)
    split at h
    · exact absurd h (restoredStructure_none hrdi)
    split at h
    · rw [hrdi] at h
      exact absurd h (restoredScalar_none _)
    split at h
    · rw [hr12] at h
      exact absurd h (restoredScalar_none _)
    split at h
    next hfbreg =>
      subst hfbreg
      obtain ⟨⟨⟩, hcheck, h⟩ := bind_eq_ok.mp h
      obtain ⟨address, haddress, h⟩ := bind_eq_ok.mp h
      refine .frame hop (fun hkind => ?_) haddress h
      unfold checkFbregType at hcheck
      rw [hkind] at hcheck
      cases hcheck
    split at h
    next hbreg3 =>
      subst hbreg3
      exact .register hop h
    split at h
    · cases h
    next haddr =>
      obtain rfl := not_not.mp haddr
      exact .other hop (by decide) (by decide)

end CoreFrame

namespace LiveModule.SameFrame

variable {m : LiveModule} {c : CoreFrame} {name : String} {subprogram : Die}
  {live core : BoundedRootTypeResolution} {expression : List Byte}

/-- The two evaluators make the same of one location and one type. -/
theorem coincide_inspectUnitValue (h : m.SameFrame c) (hshape : live.valueType.Shape)
    (hroot : DieUnit.SameRoot live core) :
    Coincide LocalScalarValue.SameValue
      (m.inspectUnitValue name subprogram live.valueType expression)
      (c.inspectSnapshotUnitValue name subprogram core expression) := by
  intro left right hleft hright
  cases CoreFrame.frameZeroValue_of_ok h.rdi h.r12 hright with
  | other hop hother hfbreg =>
    exact absurd hleft (LiveModule.inspectUnitValue_ne_ok hop hother hfbreg)
  | frame hop hkind haddress hvalue =>
    rw [LiveModule.inspectUnitValue_eq hop (by decide), hroot hkind] at hleft
    obtain ⟨address, haddress', hleft⟩ := bind_eq_ok.mp hleft
    obtain rfl := h.coincide_address _ _ _ _ haddress' haddress
    exact h.coincide_valueAt (hroot hkind ▸ hshape) _ _ hleft hvalue
  | register hop hvalue =>
    obtain ⟨hsingle, hkind, raw, hraw, hsame⟩ :=
      CoreFrame.historicalRbxValue_eq_ok m.elf.path h.rbx hvalue
    rw [hroot hkind] at hleft
    obtain ⟨raw', hraw', rfl⟩ := LiveModule.inspectUnitValue_breg3 hop hsingle hleft
    obtain rfl := Except.ok.inj (hraw'.symm.trans hraw)
    exact hsame

/-- The two evaluators find the same local in a unit, and the same value. -/
theorem coincide_inspectUnit (h : m.SameFrame c) (u : DieUnit) (sections : LocationSections)
    (pc : Word) (name : String) :
    Coincide (Option.Rel LocalScalarValue.SameValue)
      ((LocalPath.current m).inspectUnit sections pc name u)
      ((LocalPath.snapshot c).inspectUnit sections pc name u) := by
  intro left right hleft hright
  obtain ⟨live, hlive, hleft⟩ := bind_eq_ok.mp hleft
  obtain ⟨core, hcore, hright⟩ := bind_eq_ok.mp hright
  cases DieUnit.coincide_bind live core hlive hcore with
  | none => exact coincide_pure .none left right hleft hright
  | @some live core hsame =>
    have hshape := DieUnit.shape_of_bindCurrent hlive
    have hvalue : Coincide LocalScalarValue.SameValue
        (m.inspectUnitValue name (u.die live.subprogram) live.root.valueType live.expression)
        (c.inspectSnapshotUnitValue name (u.die live.subprogram) core.root live.expression) :=
      h.coincide_inspectUnitValue hshape hsame.root
    dsimp only at hleft hright
    rw [← hsame.subprogram, ← hsame.expression] at hright
    exact hvalue.bind (fun _ _ hvalue => coincide_pure (.some hvalue)) left right hleft hright

end LiveModule.SameFrame

end MiniDebugger
