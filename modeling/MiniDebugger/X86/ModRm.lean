import Mathlib.Data.BitVec

/-!
# Operands with a ModRM byte

How an x86-64 instruction in 64-bit mode, without prefixes, encodes one operand: a register, or a
memory operand with a base register, a scaled index, an offset from RIP or an absolute address. The
ModRM byte says which of them it is; register number 4 in it stands for a SIB byte, and without a
displacement number 5 stands for a displacement without a base. The constructors of `Operand`
exclude these two, so that every operand has one encoding.
-/

namespace MiniDebugger.ModRm

/-- A ModRM byte. -/
def modRm (mod : BitVec 2) (reg rm : BitVec 3) : BitVec 8 := mod ++ reg ++ rm

/-- A SIB byte. -/
def sib (scale : BitVec 2) (index base : BitVec 3) : BitVec 8 := scale ++ index ++ base

inductive Displacement where
  | none
  | byte (disp : BitVec 8)
  | word (disp : BitVec 32)
  deriving DecidableEq, Repr

inductive Operand where
  | register (rm : BitVec 3)
  | based (base : BitVec 3) (disp : Displacement) (hsib : base ≠ 4)
      (hbase : disp = .none → base ≠ 5)
  | indexed (scale : BitVec 2) (index base : BitVec 3) (disp : Displacement)
      (hbase : disp = .none → base ≠ 5)
  | ripRelative (disp : BitVec 32)
  | absolute (scale : BitVec 2) (index : BitVec 3) (disp : BitVec 32)

/-- The bytes of a displacement, lowest first. -/
def dword (disp : BitVec 32) : List (BitVec 8) :=
  [disp.extractLsb' 0 8, disp.extractLsb' 8 8, disp.extractLsb' 16 8, disp.extractLsb' 24 8]

namespace Displacement

/-- The mod field that announces the displacement. -/
def mod : Displacement → BitVec 2
  | none => 0
  | byte _ => 1
  | word _ => 2

def encode : Displacement → List (BitVec 8)
  | none => []
  | byte disp => [disp]
  | word disp => dword disp

end Displacement

/-- The operand's bytes in an instruction whose opcode is extended by `reg`. -/
def Operand.encode (reg : BitVec 3) : Operand → List (BitVec 8)
  | register rm => [modRm 3 reg rm]
  | based base disp _ _ => modRm disp.mod reg base :: disp.encode
  | indexed scale index base disp _ => modRm disp.mod reg 4 :: sib scale index base :: disp.encode
  | ripRelative disp => modRm 0 reg 5 :: dword disp
  | absolute scale index disp => modRm 0 reg 4 :: sib scale index 5 :: dword disp

/-! ## Fields -/

theorem setWidth_eq_ofNat {n k : Nat} (hn : n ≤ 8) (hk : k < 2 ^ n) (x : BitVec n) :
    x.setWidth 8 = BitVec.ofNat 8 k ↔ x = BitVec.ofNat n k := by
  have hpow : 2 ^ n ≤ 2 ^ 8 := Nat.pow_le_pow_right (by decide) hn
  rw [← BitVec.toNat_inj, ← BitVec.toNat_inj, BitVec.toNat_setWidth, BitVec.toNat_ofNat,
    BitVec.toNat_ofNat, Nat.mod_eq_of_lt (by omega), Nat.mod_eq_of_lt (by omega),
    Nat.mod_eq_of_lt hk]

theorem mod_modRm (mod : BitVec 2) (reg rm : BitVec 3) :
    (modRm mod reg rm >>> 6) &&& 3#8 = mod.setWidth 8 := by
  revert mod reg rm
  decide +kernel

theorem reg_modRm (mod : BitVec 2) (reg rm : BitVec 3) :
    (modRm mod reg rm >>> 3) &&& 7#8 = reg.setWidth 8 := by
  revert mod reg rm
  decide +kernel

theorem rm_modRm (mod : BitVec 2) (reg rm : BitVec 3) :
    modRm mod reg rm &&& 7#8 = rm.setWidth 8 := by
  revert mod reg rm
  decide +kernel

section Tests

variable {mod : BitVec 2} {reg rm : BitVec 3} {k : Nat}

@[simp] theorem mod_modRm_eq_iff (hk : k < 4) :
    (modRm mod reg rm >>> 6) &&& 3#8 = BitVec.ofNat 8 k ↔ mod = BitVec.ofNat 2 k := by
  rw [mod_modRm, setWidth_eq_ofNat (by decide) hk]

@[simp] theorem reg_modRm_eq_iff (hk : k < 8) :
    (modRm mod reg rm >>> 3) &&& 7#8 = BitVec.ofNat 8 k ↔ reg = BitVec.ofNat 3 k := by
  rw [reg_modRm, setWidth_eq_ofNat (by decide) hk]

@[simp] theorem rm_modRm_eq_iff (hk : k < 8) :
    modRm mod reg rm &&& 7#8 = BitVec.ofNat 8 k ↔ rm = BitVec.ofNat 3 k := by
  rw [rm_modRm, setWidth_eq_ofNat (by decide) hk]

@[simp] theorem base_sib_eq_iff (hk : k < 8) :
    sib mod reg rm &&& 7#8 = BitVec.ofNat 8 k ↔ rm = BitVec.ofNat 3 k :=
  rm_modRm_eq_iff hk

end Tests

/-- Every byte is a ModRM byte, and every byte is a SIB byte. -/
theorem exists_modRm (b : BitVec 8) : ∃ mod reg rm, b = modRm mod reg rm := by
  refine ⟨b.extractLsb' 6 2, b.extractLsb' 3 3, b.extractLsb' 0 3, ?_⟩
  revert b
  decide +kernel

theorem exists_sib (b : BitVec 8) : ∃ scale index base, b = sib scale index base :=
  exists_modRm b

theorem mod_cases (mod : BitVec 2) : mod = 0 ∨ mod = 1 ∨ mod = 2 ∨ mod = 3 := by
  revert mod
  decide

end MiniDebugger.ModRm
