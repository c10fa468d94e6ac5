import Mathlib.Algebra.CharP.Two
import Mathlib.Algebra.Field.ZMod
import Mathlib.RingTheory.AdjoinRoot
import Mathlib.Tactic.LinearCombination

/-!
# Cyclic redundancy checks

The register of a reflected check holds a polynomial over the field of two elements, its highest
coefficient in its lowest bit. A step of the register multiplies it by `X` modulo the generator,
so that the register holds at any time the remainder of what has been fed to it.
-/

namespace MiniDebugger.Crc

open Polynomial

variable {n : Nat}

/-- The polynomial in a register. -/
noncomputable def polynomial (w : BitVec n) : (ZMod 2)[X] :=
  ∑ k ∈ Finset.range n, if w.getMsbD k then X ^ k else 0

@[simp] theorem coeff_polynomial (w : BitVec n) (k : Nat) :
    (polynomial w).coeff k = if w.getMsbD k then 1 else 0 := by
  have hterm : ∀ j, (if w.getMsbD j then X ^ j else 0 : (ZMod 2)[X]).coeff k =
      if k = j then (if w.getMsbD k then 1 else 0) else 0 := by
    intro j
    by_cases hj : k = j
    · subst hj
      cases w.getMsbD k <;> simp
    · cases w.getMsbD j <;> simp [coeff_X_pow, hj]
  rw [polynomial, finsetSum_coeff, Finset.sum_congr rfl fun j _ => hterm j, Finset.sum_ite_eq]
  split
  · rfl
  · next hk =>
    have hge : n ≤ k := not_lt.mp fun h => hk (Finset.mem_range.mpr h)
    rw [BitVec.getMsbD_of_ge w k hge, if_neg Bool.false_ne_true]

theorem polynomial_injective : Function.Injective (polynomial : BitVec n → (ZMod 2)[X]) := by
  intro w w' h
  refine BitVec.eq_of_getMsbD_eq fun k _ => ?_
  have hk := congrArg (·.coeff k) h
  simp only [coeff_polynomial] at hk
  cases hw : w.getMsbD k <;> cases hw' : w'.getMsbD k <;> simp_all

theorem degree_polynomial_lt (w : BitVec n) : (polynomial w).degree < n := by
  refine (degree_lt_iff_coeff_zero _ n).mpr fun k hk => ?_
  rw [coeff_polynomial, BitVec.getMsbD_of_ge w k hk, if_neg Bool.false_ne_true]

theorem polynomial_zero : polynomial (0#n) = 0 := by
  ext k
  simp

theorem polynomial_xor (w w' : BitVec n) :
    polynomial (w ^^^ w') = polynomial w + polynomial w' := by
  ext k
  have htwo : (1 : ZMod 2) + 1 = 0 := CharTwo.add_self_eq_zero 1
  rw [coeff_add, coeff_polynomial, coeff_polynomial, coeff_polynomial, BitVec.getMsbD_xor]
  cases w.getMsbD k <;> cases w'.getMsbD k <;> simp [htwo]

/-- A byte in the low bits of a wider register. -/
theorem polynomial_setWidth {m : Nat} (w : BitVec m) (h : m ≤ n) :
    polynomial (w.setWidth n) = X ^ (n - m) * polynomial w := by
  ext k
  rw [coeff_X_pow_mul', coeff_polynomial, coeff_polynomial, BitVec.getMsbD_setWidth]
  grind

/-- The generator whose coefficients below the highest are in `poly`. -/
noncomputable def generator (poly : BitVec n) : (ZMod 2)[X] := X ^ n + polynomial poly

theorem monic_generator (poly : BitVec n) : (generator poly).Monic :=
  monic_X_pow_add (degree_polynomial_lt poly)

theorem degree_generator (poly : BitVec n) : (generator poly).degree = n := by
  rw [generator, degree_add_eq_left_of_degree_lt] <;> rw [degree_X_pow]
  exact degree_polynomial_lt poly

/-- A step of the register. -/
def bitStep (poly w : BitVec n) : BitVec n := (w >>> 1) ^^^ (poly &&& (0#n - (w &&& 1#n)))

/-- What the shift of a register loses of the multiplication by `X`. -/
theorem X_mul_polynomial (w : BitVec n) (hn : 0 < n) :
    X * polynomial w = polynomial (w >>> 1) + if w.getLsbD 0 then X ^ n else 0 := by
  have hlast : w.getLsbD 0 = w.getMsbD (n - 1) := by
    rw [BitVec.getMsbD_eq_getLsbD]
    simp [hn]
  ext k
  rw [hlast, coeff_add, coeff_polynomial, BitVec.getMsbD_ushiftRight]
  cases k with
  | zero => cases w.getMsbD (n - 1) <;> simp [coeff_X_pow, hn.ne]
  | succ k =>
    rw [coeff_X_mul, coeff_polynomial, Nat.add_sub_cancel]
    obtain hk | rfl | hk := lt_trichotomy (k + 1) n
    · cases w.getMsbD (n - 1) <;> simp [coeff_X_pow, hk, hk.ne]
    · cases hbit : w.getMsbD k <;> simp [hbit]
    · have hzero : w.getMsbD k = false := BitVec.getMsbD_of_ge w k (by omega)
      cases w.getMsbD (n - 1) <;> simp [coeff_X_pow, hzero, hk.ne']

theorem polynomial_and_neg (poly w : BitVec n) :
    polynomial (poly &&& (0#n - (w &&& 1#n))) = if w.getLsbD 0 then polynomial poly else 0 := by
  have hone : (1#1).setWidth n = 1#n := BitVec.eq_of_toNat_eq (by simp)
  rw [BitVec.and_one_eq_setWidth_ofBool_getLsbD]
  cases w.getLsbD 0
  · simp [polynomial_zero]
  · simp [hone, BitVec.neg_one_eq_allOnes]

/-- A step multiplies by `X` modulo the generator. -/
theorem X_mul_polynomial_eq (poly w : BitVec n) (hn : 0 < n) :
    X * polynomial w =
      polynomial (bitStep poly w) + if w.getLsbD 0 then generator poly else 0 := by
  rw [X_mul_polynomial w hn, bitStep, polynomial_xor, polynomial_and_neg]
  split
  · have htwo := CharTwo.add_self_eq_zero (polynomial poly)
    rw [generator]
    linear_combination -htwo
  · simp only [add_zero]

/-! ## Remainders -/

/-- The class of a polynomial modulo the generator. -/
noncomputable abbrev residue (poly : BitVec n) : (ZMod 2)[X] →+* AdjoinRoot (generator poly) :=
  AdjoinRoot.mk (generator poly)

section Residue

variable {poly : BitVec n}

theorem residue_bitStep (w : BitVec n) (hn : 0 < n) :
    residue poly (polynomial (bitStep poly w)) = residue poly (X * polynomial w) := by
  rw [X_mul_polynomial_eq poly w hn, map_add]
  split
  · rw [AdjoinRoot.mk_self, add_zero]
  · rw [map_zero, add_zero]

theorem residue_bitSteps (w : BitVec n) (hn : 0 < n) (count : Nat) :
    residue poly (polynomial ((bitStep poly)^[count] w)) =
      residue poly (X ^ count * polynomial w) := by
  induction count with
  | zero => rw [Function.iterate_zero_apply, pow_zero, one_mul]
  | succ count ih =>
    rw [Function.iterate_succ_apply', residue_bitStep _ hn, map_mul, ih, ← map_mul, pow_succ',
      mul_assoc]

/-- The register after a byte, whose lowest bit comes first. -/
def byteStep (poly w : BitVec n) (byte : BitVec 8) : BitVec n :=
  (bitStep poly)^[8] (w ^^^ byte.setWidth n)

theorem residue_byteStep (w : BitVec n) (byte : BitVec 8) (hn : 8 ≤ n) :
    residue poly (polynomial (byteStep poly w byte)) =
      residue poly (X ^ 8 * polynomial w + X ^ n * polynomial byte) := by
  have hpow : (X ^ n : (ZMod 2)[X]) = X ^ 8 * X ^ (n - 8) := by
    rw [← pow_add, Nat.add_sub_cancel' hn]
  rw [byteStep, residue_bitSteps _ (by omega), polynomial_xor, polynomial_setWidth _ hn, hpow]
  congr 1
  ring

/-- The polynomial of a message, whose first bit is its highest coefficient. -/
noncomputable def message : List (BitVec 8) → (ZMod 2)[X]
  | [] => 0
  | byte :: bytes => X ^ (8 * bytes.length) * polynomial byte + message bytes

theorem residue_foldl_byteStep (w : BitVec n) (bytes : List (BitVec 8)) (hn : 8 ≤ n) :
    residue poly (polynomial (bytes.foldl (byteStep poly) w)) =
      residue poly (X ^ (8 * bytes.length) * polynomial w + X ^ n * message bytes) := by
  induction bytes generalizing w with
  | nil => simp [message]
  | cons byte bytes ih =>
    rw [List.foldl_cons, ih, message, List.length_cons, map_add, map_mul,
      residue_byteStep w byte hn, ← map_mul, ← map_add]
    congr 1
    ring

end Residue

/-- The check of some bytes: what is in the register when the message has been divided, after it
has been filled with `initial` and before it is combined with `final`. -/
def IsCheck (poly initial final : BitVec n) (bytes : List (BitVec 8)) (check : BitVec n) : Prop :=
  polynomial (check ^^^ final) =
    (X ^ (8 * bytes.length) * polynomial initial + X ^ n * message bytes) %ₘ generator poly

theorem isCheck_foldl (poly initial final : BitVec n) (bytes : List (BitVec 8)) (hn : 8 ≤ n) :
    IsCheck poly initial final bytes (bytes.foldl (byteStep poly) initial ^^^ final) := by
  have hcancel : ∀ w : BitVec n, w ^^^ final ^^^ final = w := by
    intro w
    rw [BitVec.xor_assoc, BitVec.xor_self, BitVec.xor_zero]
  have hself : polynomial (bytes.foldl (byteStep poly) initial) %ₘ generator poly =
      polynomial (bytes.foldl (byteStep poly) initial) := by
    refine (modByMonic_eq_self_iff (monic_generator poly)).mpr ?_
    rw [degree_generator]
    exact degree_polynomial_lt _
  rw [IsCheck, hcancel, ← hself]
  refine modByMonic_eq_of_dvd_sub (monic_generator poly) ?_
  exact AdjoinRoot.mk_eq_mk.mp (residue_foldl_byteStep initial bytes hn)

/-- Some bytes have one check. -/
theorem IsCheck.unique {poly initial final check check' : BitVec n} {bytes : List (BitVec 8)}
    (h : IsCheck poly initial final bytes check) (h' : IsCheck poly initial final bytes check') :
    check = check' := by
  have hxor : check ^^^ final = check' ^^^ final := polynomial_injective (h.trans h'.symm)
  exact (BitVec.xor_left_inj final).mp hxor

end MiniDebugger.Crc
