import MiniDebugger.X86.ModRm

/-!
# Near calls

`next` runs over a call by stopping behind it, so it needs the length of the call at RIP.
`decodeSupportedNearCallLength` finds it out from the first one to three bytes. `NearCall` lists the
calls it is about with their encodings, and the decoder accepts exactly these.
-/

namespace MiniDebugger

open ModRm

/-- `decode_supported_near_call_length` -/
def decodeSupportedNearCallLength {m : Type → Type} [Monad m]
    (readByte : Nat → m (Option (BitVec 8))) : m (Option Nat) := do
  match ← readByte 0 with
  | none => return none
  | some first =>
    if first = 0xe8 then return some 5
    else if first = 0x41 ∨ first = 0x48 ∨ first = 0x49 then
      match ← readByte 1, ← readByte 2 with
      | some opcode, some modrmByte =>
        if opcode ≠ 0xff then return none
        else
          let mod := (modrmByte >>> 6) &&& 0x3
          let reg := (modrmByte >>> 3) &&& 0x7
          if reg = 2 ∧ mod = 3 then return some 3 else return none
      | _, _ => return none
    else if first ≠ 0xff then return none
    else
      match ← readByte 1 with
      | none => return none
      | some modrmByte =>
        let mod := (modrmByte >>> 6) &&& 0x3
        let reg := (modrmByte >>> 3) &&& 0x7
        let rm := modrmByte &&& 0x7
        if reg ≠ 2 then return none
        else if mod = 3 then return some 2
        else if mod = 0 ∧ rm = 5 then return some 6
        else if mod = 0 ∧ rm = 4 then
          match ← readByte 2 with
          | none => return none
          | some sib => if sib &&& 0x7 = 5 then return some 7 else return some 3
        else if mod = 0 then return some 2
        else if mod = 1 then return some (if rm = 4 then 4 else 3)
        else if mod = 2 then return some (if rm = 4 then 7 else 6)
        else return none

/-- The decoder on bytes that are at hand. -/
def nearCallLength (bytes : Nat → Option (BitVec 8)) : Option Nat :=
  Id.run (decodeSupportedNearCallLength fun offset => pure (bytes offset))

/-- A REX prefix in front of a call through a register. -/
inductive CallPrefix where
  | b | w | wb
  deriving DecidableEq, Repr

def CallPrefix.encode : CallPrefix → BitVec 8
  | b => 0x41
  | w => 0x48
  | wb => 0x49

inductive NearCall where
  | relative (disp : BitVec 32)
  | indirect (target : Operand)
  | prefixed (rex : CallPrefix) (rm : BitVec 3)

namespace NearCall

def encode : NearCall → List (BitVec 8)
  | relative disp => 0xe8 :: dword disp
  | indirect target => 0xff :: target.encode 2
  | prefixed rex rm => [rex.encode, 0xff, modRm 3 2 rm]

/-- The bytes that tell the length of the call: up to the ModRM byte, or to the SIB byte if that
one can announce a displacement. -/
def header : NearCall → Nat
  | relative _ => 1
  | indirect (.indexed _ _ _ .none _) | indirect (.absolute _ _ _) => 3
  | indirect _ => 2
  | prefixed _ _ => 3

end NearCall

section Decoder

variable {bytes : Nat → Option (BitVec 8)} {mod : BitVec 2} {reg rm : BitVec 3} {n : Nat}

theorem nearCallLength_relative (h : bytes 0 = some 0xe8) : nearCallLength bytes = some 5 := by
  simp [nearCallLength, decodeSupportedNearCallLength, h]

theorem nearCallLength_prefixed {rex : CallPrefix} (h : bytes 0 = some rex.encode)
    (hopcode : bytes 1 = some 0xff) (hmodrm : bytes 2 = some (modRm mod reg rm)) :
    nearCallLength bytes = if reg = 2 ∧ mod = 3 then some 3 else none := by
  cases rex <;>
    simp [nearCallLength, decodeSupportedNearCallLength, h, hopcode, hmodrm, CallPrefix.encode,
      apply_ite Id.run]

theorem nearCallLength_indirect (h : bytes 0 = some 0xff)
    (hmodrm : bytes 1 = some (modRm mod reg rm)) :
    nearCallLength bytes =
      if reg ≠ 2 then none
      else if mod = 3 then some 2
      else if mod = 0 ∧ rm = 5 then some 6
      else if mod = 0 ∧ rm = 4 then
        (bytes 2).bind fun sib => if sib &&& 0x7 = 5 then some 7 else some 3
      else if mod = 0 then some 2
      else if mod = 1 then some (if rm = 4 then 4 else 3)
      else some (if rm = 4 then 7 else 6) := by
  obtain rfl | rfl | rfl | rfl := mod_cases mod
  · rcases hsib : bytes 2 with _ | sib <;>
      simp [nearCallLength, decodeSupportedNearCallLength, h, hmodrm, hsib, apply_ite Id.run]
  · simp [nearCallLength, decodeSupportedNearCallLength, h, hmodrm, apply_ite Id.run]
  · simp [nearCallLength, decodeSupportedNearCallLength, h, hmodrm, apply_ite Id.run]
  · simp [nearCallLength, decodeSupportedNearCallLength, h, hmodrm, apply_ite Id.run]

/-- Whatever is accepted begins like one of the three forms. -/
theorem nearCallLength_cases (h : nearCallLength bytes = some n) :
    bytes 0 = some 0xe8 ∨
    (∃ rex : CallPrefix, ∃ mod reg rm, bytes 0 = some rex.encode ∧ bytes 1 = some 0xff ∧
      bytes 2 = some (modRm mod reg rm)) ∨
    (∃ mod reg rm, bytes 0 = some 0xff ∧ bytes 1 = some (modRm mod reg rm)) := by
  rcases h0 : bytes 0 with _ | first
  · simp [nearCallLength, decodeSupportedNearCallLength, h0] at h
  have hprefixed : ∀ rex : CallPrefix, bytes 0 = some rex.encode →
      ∃ mod reg rm, bytes 1 = some 0xff ∧ bytes 2 = some (modRm mod reg rm) := by
    intro rex hrex
    rcases h1 : bytes 1 with _ | opcode
    · cases rex <;>
        simp [nearCallLength, decodeSupportedNearCallLength, hrex, CallPrefix.encode, h1] at h
    rcases h2 : bytes 2 with _ | modrm
    · cases rex <;>
        simp [nearCallLength, decodeSupportedNearCallLength, hrex, CallPrefix.encode, h1, h2] at h
    obtain ⟨mod, reg, rm, rfl⟩ := exists_modRm modrm
    by_cases hopcode : opcode = 255#8
    · exact ⟨mod, reg, rm, congrArg some hopcode, rfl⟩
    · cases rex <;>
        simp [nearCallLength, decodeSupportedNearCallLength, hrex, CallPrefix.encode, h1, h2,
          hopcode] at h
  by_cases hrelative : first = 232#8
  · exact .inl (congrArg some hrelative)
  by_cases hrex : first = 65#8 ∨ first = 72#8 ∨ first = 73#8
  · have hfirst : ∃ rex : CallPrefix, first = rex.encode := by
      obtain rfl | rfl | rfl := hrex
      exacts [⟨.b, rfl⟩, ⟨.w, rfl⟩, ⟨.wb, rfl⟩]
    obtain ⟨rex, rfl⟩ := hfirst
    obtain ⟨mod, reg, rm, h1, h2⟩ := hprefixed rex h0
    exact .inr (.inl ⟨rex, mod, reg, rm, rfl, h1, h2⟩)
  by_cases hopcode : first = 255#8
  · rcases h1 : bytes 1 with _ | modrm
    · simp [nearCallLength, decodeSupportedNearCallLength, h0, h1, hopcode] at h
    obtain ⟨mod, reg, rm, rfl⟩ := exists_modRm modrm
    exact .inr (.inr ⟨mod, reg, rm, congrArg some hopcode, rfl⟩)
  · simp [nearCallLength, decodeSupportedNearCallLength, h0, hrelative, hrex, hopcode] at h

/-- The bytes begin with the header of the call. -/
def NearCall.BeginsAt (call : NearCall) (bytes : Nat → Option (BitVec 8)) : Prop :=
  ∀ i < call.header, bytes i = call.encode[i]?

/-- A call is recognised by its header. -/
theorem nearCallLength_of_beginsAt {call : NearCall} (h : call.BeginsAt bytes) :
    nearCallLength bytes = some call.encode.length := by
  have h0 := h 0
  have h1 := h 1
  have h2 := h 2
  cases call with
  | relative disp => exact nearCallLength_relative (h0 (by simp [NearCall.header]))
  | prefixed rex rm =>
    rw [nearCallLength_prefixed (h0 (by simp [NearCall.header])) (h1 (by simp [NearCall.header])) (h2 (by simp [NearCall.header]))]
    rfl
  | indirect target =>
    cases target with
    | register rm =>
      rw [nearCallLength_indirect (h0 (by simp [NearCall.header])) (h1 (by simp [NearCall.header]))]
      rfl
    | ripRelative disp =>
      rw [nearCallLength_indirect (h0 (by simp [NearCall.header])) (h1 (by simp [NearCall.header]))]
      rfl
    | absolute scale index disp =>
      rw [nearCallLength_indirect (h0 (by simp [NearCall.header])) (h1 (by simp [NearCall.header])), h2 (by simp [NearCall.header])]
      simp [NearCall.encode, Operand.encode, dword]
    | based base disp hsib hbase =>
      have hsib : base ≠ 4#3 := hsib
      rw [nearCallLength_indirect (h0 (by simp [NearCall.header])) (h1 (by simp [NearCall.header]))]
      cases disp with
      | none => simp [NearCall.encode, Operand.encode, Displacement.encode, Displacement.mod,
          hsib, show base ≠ 5#3 from hbase rfl]
      | byte disp => simp [NearCall.encode, Operand.encode, Displacement.encode,
          Displacement.mod, hsib]
      | word disp => simp [NearCall.encode, Operand.encode, Displacement.encode,
          Displacement.mod, hsib, dword]
    | indexed scale index base disp hbase =>
      cases disp with
      | none =>
        rw [nearCallLength_indirect (h0 (by simp [NearCall.header])) (h1 (by simp [NearCall.header])), h2 (by simp [NearCall.header])]
        simp [NearCall.encode, Operand.encode, Displacement.encode, Displacement.mod,
          show base ≠ 5#3 from hbase rfl]
      | byte disp =>
        rw [nearCallLength_indirect (h0 (by simp [NearCall.header])) (h1 (by simp [NearCall.header]))]
        simp [NearCall.encode, Operand.encode, Displacement.encode, Displacement.mod]
      | word disp =>
        rw [nearCallLength_indirect (h0 (by simp [NearCall.header])) (h1 (by simp [NearCall.header]))]
        simp [NearCall.encode, Operand.encode, Displacement.encode, Displacement.mod, dword]

theorem NearCall.beginsAt_of_two {call : NearCall} (hheader : call.header = 2)
    (h0 : bytes 0 = call.encode[0]?) (h1 : bytes 1 = call.encode[1]?) : call.BeginsAt bytes := by
  intro i hi
  obtain rfl | rfl : i = 0 ∨ i = 1 := by omega
  · exact h0
  · exact h1

theorem NearCall.beginsAt_of_three {call : NearCall} (hheader : call.header = 3)
    (h0 : bytes 0 = call.encode[0]?) (h1 : bytes 1 = call.encode[1]?)
    (h2 : bytes 2 = call.encode[2]?) : call.BeginsAt bytes := by
  intro i hi
  obtain rfl | rfl | rfl : i = 0 ∨ i = 1 ∨ i = 2 := by omega
  · exact h0
  · exact h1
  · exact h2

/-- An accepted `FF /2` is a call through some operand. -/
theorem exists_indirect (h : nearCallLength bytes = some n) (h0 : bytes 0 = some 0xff)
    (h1 : bytes 1 = some (modRm mod reg rm)) : ∃ call : NearCall, call.BeginsAt bytes := by
  rw [nearCallLength_indirect h0 h1] at h
  by_cases hreg : reg = 2
  swap
  · rw [if_pos hreg] at h
    cases h
  subst hreg
  obtain rfl | rfl | rfl | rfl := mod_cases mod
  · by_cases h5 : rm = 5
    · subst h5
      exact ⟨.indirect (.ripRelative 0), NearCall.beginsAt_of_two rfl h0 h1⟩
    by_cases h4 : rm = 4
    · subst h4
      rcases h2 : bytes 2 with _ | byte
      · simp [h2] at h
      obtain ⟨scale, index, base, rfl⟩ := exists_sib byte
      by_cases hbase : base = 5
      · subst hbase
        exact ⟨.indirect (.absolute scale index 0), NearCall.beginsAt_of_three rfl h0 h1 h2⟩
      · exact ⟨.indirect (.indexed scale index base .none fun _ => hbase),
          NearCall.beginsAt_of_three rfl h0 h1 h2⟩
    · exact ⟨.indirect (.based rm .none h4 fun _ => h5), NearCall.beginsAt_of_two rfl h0 h1⟩
  · by_cases h4 : rm = 4
    · subst h4
      exact ⟨.indirect (.indexed 0 0 0 (.byte 0) (by simp)), NearCall.beginsAt_of_two rfl h0 h1⟩
    · exact ⟨.indirect (.based rm (.byte 0) h4 (by simp)), NearCall.beginsAt_of_two rfl h0 h1⟩
  · by_cases h4 : rm = 4
    · subst h4
      exact ⟨.indirect (.indexed 0 0 0 (.word 0) (by simp)), NearCall.beginsAt_of_two rfl h0 h1⟩
    · exact ⟨.indirect (.based rm (.word 0) h4 (by simp)), NearCall.beginsAt_of_two rfl h0 h1⟩
  · exact ⟨.indirect (.register rm), NearCall.beginsAt_of_two rfl h0 h1⟩

/-- The decoder accepts the bytes that begin with the header of a call, and answers with the
length of that call. -/
theorem nearCallLength_eq_some_iff :
    nearCallLength bytes = some n ↔
      ∃ call : NearCall, call.BeginsAt bytes ∧ n = call.encode.length := by
  constructor
  · intro h
    have hcall : ∃ call : NearCall, call.BeginsAt bytes := by
      obtain h0 | ⟨rex, mod, reg, rm, h0, h1, h2⟩ | ⟨mod, reg, rm, h0, h1⟩ :=
        nearCallLength_cases h
      · refine ⟨.relative 0, fun i hi => ?_⟩
        obtain rfl : i = 0 := Nat.lt_one_iff.mp hi
        exact h0
      · rw [nearCallLength_prefixed h0 h1 h2] at h
        obtain ⟨⟨rfl, rfl⟩, -⟩ := Option.ite_none_right_eq_some.mp h
        exact ⟨.prefixed rex rm, NearCall.beginsAt_of_three rfl h0 h1 h2⟩
      · exact exists_indirect h h0 h1
    obtain ⟨call, hcall⟩ := hcall
    rw [nearCallLength_of_beginsAt hcall, Option.some_inj] at h
    exact ⟨call, hcall, h.symm⟩
  · rintro ⟨call, hcall, rfl⟩
    exact nearCallLength_of_beginsAt hcall

end Decoder

end MiniDebugger
