import Mathlib.Tactic.Common

/-!
# Bits of a byte string

A field of a record occupies some bits of the bytes of the record and may repeat its highest bit
above them. `BitLayout` says which, and `BitLayout.bit` is the value read with it, bit by bit.

Two layouts for fields of one width read the same from all records only when they are the same: a
record with a single bit set tells them apart.
-/

namespace MiniDebugger

/-- A bit of some bytes, counted from the lowest of the first. -/
def bitAt (bytes : List (BitVec 8)) (position : Nat) : Bool :=
  (bytes.getD (position / 8) 0#8).getLsbD (position % 8)

@[ext]
structure BitLayout where
  /-- The first bit. -/
  offset : Nat
  size : Nat
  /-- The width of the value that is read. -/
  storage : Nat
  signExtended : Bool
  deriving DecidableEq, Repr

namespace BitLayout

/-- A field of a record of this many bits. -/
structure Fits (layout : BitLayout) (bits : Nat) : Prop where
  size_pos : 0 < layout.size
  size_le : layout.size ≤ layout.storage
  fits : layout.offset + layout.size ≤ bits
  extends_above : layout.signExtended → layout.size < layout.storage

/-- A bit of the value read with a layout. -/
def bit (layout : BitLayout) (bytes : List (BitVec 8)) (i : Nat) : Bool :=
  if i < layout.size then bitAt bytes (layout.offset + i)
  else i < layout.storage && layout.signExtended && bitAt bytes (layout.offset + layout.size - 1)

end BitLayout

/-- A record with a single bit set. -/
def onlyBit (length position : Nat) : List (BitVec 8) :=
  (List.range length).map fun index =>
    if index = position / 8 then BitVec.twoPow 8 (position % 8) else 0#8

@[simp] theorem length_onlyBit (length position : Nat) :
    (onlyBit length position).length = length := by
  simp [onlyBit]

theorem bitAt_onlyBit {length position : Nat} (h : position < length * 8) (other : Nat) :
    bitAt (onlyBit length position) other = decide (other = position) := by
  have hdiv : position / 8 < length := by omega
  unfold bitAt onlyBit
  rw [List.getD_eq_getElem?_getD, List.getElem?_map]
  by_cases hother : other / 8 < length
  · rw [List.getElem?_range hother, Option.map_some, Option.getD_some]
    split
    next hsame =>
      rw [BitVec.getLsbD_twoPow]
      simp only [decide_eq_true (show position % 8 < 8 by omega), Bool.true_and]
      exact decide_eq_decide.mpr ⟨fun h => by omega, fun h => by omega⟩
    next hdiffer =>
      simp only [BitVec.getLsbD_zero, Bool.false_eq, decide_eq_false_iff_not]
      rintro rfl
      exact hdiffer rfl
  · rw [List.getElem?_eq_none (by simpa using hother)]
    simp only [Option.map_none, Option.getD_none, BitVec.getLsbD_zero, Bool.false_eq,
      decide_eq_false_iff_not]
    rintro rfl
    exact hother hdiv

namespace BitLayout

variable {left right : BitLayout} {length : Nat}

/-- Two layouts read the same bits from every record of this length. -/
def ReadAlike (left right : BitLayout) (length : Nat) : Prop :=
  ∀ bytes : List (BitVec 8), bytes.length = length → ∀ i, left.bit bytes i = right.bit bytes i

theorem ReadAlike.symm (h : ReadAlike left right length) : ReadAlike right left length :=
  fun bytes hbytes i => (h bytes hbytes i).symm

theorem ReadAlike.at_onlyBit (h : ReadAlike left right length) (position i : Nat) :
    left.bit (onlyBit length position) i = right.bit (onlyBit length position) i :=
  h _ (length_onlyBit length position) i

theorem ReadAlike.offset_eq (h : ReadAlike left right length) (hleft : left.Fits (length * 8))
    (hright : right.Fits (length * 8)) : left.offset = right.offset := by
  have hbit := h.at_onlyBit left.offset 0
  have hinside : left.offset < length * 8 := by
    have := hleft.fits
    have := hleft.size_pos
    omega
  rw [bit, bit, if_pos hleft.size_pos, if_pos hright.size_pos, bitAt_onlyBit hinside,
    bitAt_onlyBit hinside] at hbit
  simpa [eq_comm] using hbit

/-- The first bit above the shorter field tells the lengths apart. -/
theorem ReadAlike.size_le (h : ReadAlike left right length) (hleft : left.Fits (length * 8))
    (hright : right.Fits (length * 8)) : right.size ≤ left.size := by
  have hoffset := h.offset_eq hleft hright
  by_contra hlt
  rw [Nat.not_le] at hlt
  have hbit := h.at_onlyBit (left.offset + left.size) left.size
  have hinside : left.offset + left.size < length * 8 := by
    have := hright.fits
    omega
  rw [bit, bit, if_neg (Nat.lt_irrefl _), if_pos hlt, bitAt_onlyBit hinside, bitAt_onlyBit hinside]
    at hbit
  have hpos := hleft.size_pos
  simp only [hoffset, decide_true, Bool.and_eq_true, decide_eq_true_eq] at hbit
  omega

/-- The highest bit of a field shows whether it is repeated. -/
theorem ReadAlike.signExtended_imp (h : ReadAlike left right length)
    (hleft : left.Fits (length * 8)) (hright : right.Fits (length * 8))
    (hsigned : left.signExtended) : right.signExtended := by
  have hoffset := h.offset_eq hleft hright
  have hsize : left.size = right.size :=
    Nat.le_antisymm (h.symm.size_le hright hleft) (h.size_le hleft hright)
  have hbit := h.at_onlyBit (left.offset + left.size - 1) left.size
  have hinside : left.offset + left.size - 1 < length * 8 := by
    have := hleft.fits
    have := hleft.size_pos
    omega
  have habove := hleft.extends_above hsigned
  rw [bit, bit, if_neg (Nat.lt_irrefl _), if_neg (hsize ▸ Nat.lt_irrefl _), bitAt_onlyBit hinside,
    bitAt_onlyBit hinside, ← hoffset, ← hsize] at hbit
  simp only [hsigned, habove, decide_true, Bool.and_true, Bool.true_eq, Bool.and_eq_true] at hbit
  exact hbit.2

/-- Layouts of one width that read the same are the same. -/
theorem ReadAlike.eq (h : ReadAlike left right length) (hleft : left.Fits (length * 8))
    (hright : right.Fits (length * 8)) (hstorage : left.storage = right.storage) :
    left = right := by
  apply BitLayout.ext
  · exact h.offset_eq hleft hright
  · exact Nat.le_antisymm (h.symm.size_le hright hleft) (h.size_le hleft hright)
  · exact hstorage
  · rw [Bool.eq_iff_iff]
    exact ⟨h.signExtended_imp hleft hright, h.symm.signExtended_imp hright hleft⟩

end BitLayout

end MiniDebugger
