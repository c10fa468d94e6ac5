import Mathlib.Tactic.Common
import Mathlib.Tactic.Linarith
import Mathlib.Tactic.Ring
import Mathlib.Data.Nat.Bitwise

/-!
# LEB128 numbers

A number is a run of bytes that all continue but the last. Each byte carries seven bits, lowest
first; a signed number repeats the highest of them above.

`ulebRounds` and `slebRounds` are the decoding loops of a reader with a 64-bit accumulator, over any
reader of single bytes. `ulebRounds_eq_ok` and `slebRounds_eq_ok` say what the loops read: the first
number of at most that many bytes. The unsigned loop refuses a number of more than 64 bits, and so
does the signed one when it checks its last byte; without the check it wraps.
-/

namespace MiniDebugger.Leb128

/-- All bytes continue but the last. -/
def IsNumber : List (BitVec 8) → Prop
  | [] => False
  | [last] => last.toNat < 128
  | byte :: bytes => 128 ≤ byte.toNat ∧ IsNumber bytes

/-- The value of an unsigned number. -/
def unsignedValue : List (BitVec 8) → Nat
  | [] => 0
  | byte :: bytes => byte.toNat % 128 + 128 * unsignedValue bytes

/-- The value of a signed number: the highest bit of the last byte is its sign. -/
def signedValue : List (BitVec 8) → Int
  | [] => 0
  | [last] => if last.toNat % 128 < 64 then last.toNat % 128 else last.toNat % 128 - 128
  | byte :: bytes => byte.toNat % 128 + 128 * signedValue bytes

/-- The number at the start of some bytes, when it has at most `room` bytes. -/
def firstNumber : Nat → List (BitVec 8) → Option (List (BitVec 8))
  | 0, _ => none
  | _ + 1, [] => none
  | room + 1, byte :: bytes =>
    if byte.toNat < 128 then some [byte] else (firstNumber room bytes).map (byte :: ·)

/-- A value of 64 bits. -/
def FitsUnsigned (value : Nat) : Prop := value < 2 ^ 64

/-- A value of 64 bits in two's complement. -/
def FitsSigned (value : Int) : Prop := -2 ^ 63 ≤ value ∧ value < 2 ^ 63

instance (value : Int) : Decidable (FitsSigned value) := by
  unfold FitsSigned
  exact inferInstance

/-- A 64-bit word holds the signed values that fit. -/
theorem toInt_ofInt_eq_self_iff {value : Int} :
    (BitVec.ofInt 64 value).toInt = value ↔ FitsSigned value := by
  rw [BitVec.toInt_ofInt]
  unfold FitsSigned
  refine ⟨?_, ?_⟩
  · intro h
    have hle := Int.le_bmod (x := value) (m := 2 ^ 64) (by omega)
    have hlt := Int.bmod_lt (x := value) (m := 2 ^ 64) (by omega)
    omega
  · intro ⟨hle, hlt⟩
    exact Int.bmod_eq_of_le (by omega) (by omega)

theorem unsignedValue_cons (byte : BitVec 8) (bytes : List (BitVec 8)) :
    unsignedValue (byte :: bytes) = byte.toNat % 128 + 128 * unsignedValue bytes := rfl

theorem isNumber_cons {byte : BitVec 8} {bytes : List (BitVec 8)} (h : bytes ≠ []) :
    IsNumber (byte :: bytes) ↔ 128 ≤ byte.toNat ∧ IsNumber bytes := by
  cases bytes with
  | nil => exact absurd rfl h
  | cons => rfl

theorem signedValue_cons {byte : BitVec 8} {bytes : List (BitVec 8)} (h : bytes ≠ []) :
    signedValue (byte :: bytes) = byte.toNat % 128 + 128 * signedValue bytes := by
  cases bytes with
  | nil => exact absurd rfl h
  | cons => rfl

theorem IsNumber.ne_nil {digits : List (BitVec 8)} (h : IsNumber digits) : digits ≠ [] := by
  intro hnil
  rw [hnil] at h
  exact h

theorem firstNumber_ne_nil {room : Nat} {bytes digits : List (BitVec 8)}
    (h : firstNumber room bytes = some digits) : digits ≠ [] := by
  intro hnil
  subst hnil
  cases room with
  | zero => cases h
  | succ room =>
    cases bytes with
    | nil => cases h
    | cons byte bytes =>
      unfold firstNumber at h
      split at h
      · cases h
      · obtain ⟨_, _, hcons⟩ := Option.map_eq_some_iff.mp h
        cases hcons

/-- The first number is the one number that starts the bytes. -/
theorem firstNumber_eq_some {room : Nat} {bytes digits : List (BitVec 8)} :
    firstNumber room bytes = some digits ↔
      IsNumber digits ∧ digits.length ≤ room ∧ digits <+: bytes := by
  induction room generalizing bytes digits with
  | zero =>
    refine ⟨(fun h => by cases h), ?_⟩
    intro ⟨hnumber, hlength, _⟩
    exact absurd (List.eq_nil_of_length_eq_zero (by omega)) hnumber.ne_nil
  | succ room ih =>
    cases bytes with
    | nil =>
      refine ⟨(fun h => by cases h), ?_⟩
      intro ⟨hnumber, _, hprefix⟩
      exact absurd (List.prefix_nil.mp hprefix) hnumber.ne_nil
    | cons byte bytes =>
      unfold firstNumber
      split
      next hlast =>
        refine ⟨?_, ?_⟩
        · intro h
          cases h
          exact ⟨hlast, by simp, by simp⟩
        · intro ⟨hnumber, _, hprefix⟩
          cases digits with
          | nil => exact absurd rfl hnumber.ne_nil
          | cons digit digits =>
            obtain ⟨rfl, _⟩ := List.cons_prefix_cons.mp hprefix
            cases digits with
            | nil => rfl
            | cons next digits =>
              obtain ⟨hcontinues, _⟩ := (isNumber_cons (by simp)).mp hnumber
              omega
      next hcontinues =>
        refine ⟨?_, ?_⟩
        · intro h
          obtain ⟨digits, hrest, rfl⟩ := Option.map_eq_some_iff.mp h
          obtain ⟨hnumber, hlength, hprefix⟩ := ih.mp hrest
          refine ⟨(isNumber_cons hnumber.ne_nil).mpr ⟨by omega, hnumber⟩, ?_, ?_⟩
          · simpa using hlength
          · exact List.cons_prefix_cons.mpr ⟨rfl, hprefix⟩
        · intro ⟨hnumber, hlength, hprefix⟩
          cases digits with
          | nil => exact absurd rfl hnumber.ne_nil
          | cons digit digits =>
            obtain ⟨rfl, htail⟩ := List.cons_prefix_cons.mp hprefix
            cases digits with
            | nil => exact absurd hnumber hcontinues
            | cons next digits =>
              obtain ⟨_, hnumber⟩ := (isNumber_cons (by simp)).mp hnumber
              rw [ih.mpr ⟨hnumber, by simpa using hlength, htail⟩]
              rfl

/-! ## Encoding -/

/-- The shortest encoding of an unsigned number. -/
def encodeUnsigned (value : Nat) : List (BitVec 8) :=
  if value < 128 then [BitVec.ofNat 8 value]
  else BitVec.ofNat 8 (value % 128 + 128) :: encodeUnsigned (value / 128)
termination_by value

theorem encodeUnsigned_ne_nil (value : Nat) : encodeUnsigned value ≠ [] := by
  unfold encodeUnsigned
  split <;> simp

theorem isNumber_encodeUnsigned (value : Nat) : IsNumber (encodeUnsigned value) := by
  induction value using encodeUnsigned.induct with
  | case1 value hsmall =>
    unfold encodeUnsigned
    rw [if_pos hsmall]
    simp only [IsNumber, BitVec.toNat_ofNat]
    omega
  | case2 value hlarge ih =>
    unfold encodeUnsigned
    rw [if_neg hlarge, isNumber_cons (encodeUnsigned_ne_nil _), BitVec.toNat_ofNat]
    exact ⟨by omega, ih⟩

theorem unsignedValue_encodeUnsigned (value : Nat) :
    unsignedValue (encodeUnsigned value) = value := by
  induction value using encodeUnsigned.induct with
  | case1 value hsmall =>
    unfold encodeUnsigned
    rw [if_pos hsmall]
    simp only [unsignedValue, BitVec.toNat_ofNat]
    omega
  | case2 value hlarge ih =>
    unfold encodeUnsigned
    rw [if_neg hlarge, unsignedValue_cons, ih, BitVec.toNat_ofNat]
    omega

theorem length_encodeUnsigned_le {size value : Nat} (hvalue : value < 128 ^ (size + 1)) :
    (encodeUnsigned value).length ≤ size + 1 := by
  induction size generalizing value with
  | zero =>
    unfold encodeUnsigned
    rw [if_pos (by omega)]
    simp
  | succ size ih =>
    unfold encodeUnsigned
    split
    · simp
    · have hrest := ih (Nat.div_lt_of_lt_mul (by rw [← Nat.pow_succ']; exact hvalue))
      rw [List.length_cons]
      omega

/-! ## The decoding loops -/

section Loops

variable {ε : Type} (byteAt : StateT Nat (Except ε) Nat) (overflows long : ε)

/-- The loop of an unsigned reader, with `count` rounds left. -/
def ulebRounds : Nat → Nat → BitVec 64 → StateT Nat (Except ε) (BitVec 64)
  | 0, _, _ => throw long
  | count + 1, shift, result => do
    let byte ← byteAt
    let payload := byte &&& 0x7f
    if 63 < shift ∨ (shift = 63 ∧ 1 < payload) then throw overflows
    let result := result ||| (BitVec.ofNat 64 payload <<< shift)
    if byte &&& 0x80 = 0 then return result
    ulebRounds count (shift + 7) result

/-- The loop of a signed reader, with `count` rounds left. Only a reader that is `checked` looks at
the bits that a tenth byte has no room for. -/
def slebRounds (checked : Bool) : Nat → Nat → BitVec 64 → StateT Nat (Except ε) Int
  | 0, _, _ => throw long
  | count + 1, shift, result => do
    let byte ← byteAt
    let payload := byte &&& 0x7f
    if checked ∧ (63 < shift ∨ (shift = 63 ∧ payload ≠ 0 ∧ payload ≠ 0x7f)) then throw overflows
    let result := result ||| (BitVec.ofNat 64 payload <<< shift)
    let shift := shift + 7
    if byte &&& 0x80 = 0 then
      if byte &&& 0x40 ≠ 0 ∧ shift < 64 then
        return (result ||| (BitVec.allOnes 64 <<< shift)).toInt
      return result.toInt
    slebRounds checked count shift result

/-- `byteAt` reads the byte at the cursor when there is one. -/
def ReadsByte (bytes : List (BitVec 8)) : Prop :=
  ∀ cursor, (∀ byte rest, bytes.drop cursor = byte :: rest →
      byteAt cursor = .ok (byte.toNat, cursor + 1)) ∧
    (bytes.drop cursor = [] → ∃ e, byteAt cursor = .error e)

/-- A payload goes above the bits accumulated so far. -/
theorem or_payload {acc payload shift : Nat} (hacc : acc < 2 ^ shift) :
    BitVec.ofNat 64 acc ||| (BitVec.ofNat 64 payload <<< shift) =
      BitVec.ofNat 64 (acc + 2 ^ shift * payload) := by
  apply BitVec.eq_of_toNat_eq
  have hor : acc ||| payload <<< shift = acc + 2 ^ shift * payload := by
    rw [Nat.or_comm, ← Nat.shiftLeft_add_eq_or_of_lt hacc, Nat.shiftLeft_eq]
    ring
  simp only [BitVec.toNat_or, BitVec.toNat_ofNat, BitVec.toNat_shiftLeft]
  rw [← hor, Nat.or_mod_two_pow]
  congr 1
  rw [Nat.shiftLeft_eq, Nat.shiftLeft_eq, Nat.mod_mul_mod]

/-- The bits above the accumulated ones are all set. -/
theorem or_signBits {acc shift : Nat} (hacc : acc < 2 ^ shift) :
    BitVec.ofNat 64 acc ||| (BitVec.allOnes 64 <<< shift) =
      BitVec.ofInt 64 (acc - 2 ^ shift) := by
  have hones : BitVec.allOnes 64 = BitVec.ofNat 64 (2 ^ 64 - 1) := rfl
  have hvalue : ((acc + 2 ^ shift * (2 ^ 64 - 1) : Nat) : Int) =
      (acc - 2 ^ shift : Int) + (2 ^ 64 : Nat) * 2 ^ shift := by
    push_cast
    ring
  rw [hones, or_payload hacc, ← BitVec.ofInt_natCast, hvalue]
  apply BitVec.eq_of_toInt_eq
  rw [BitVec.toInt_ofInt, BitVec.toInt_ofInt, Int.add_mul_bmod_self_left]

theorem and_payload (byte : BitVec 8) : byte.toNat &&& 0x7f = byte.toNat % 128 :=
  Nat.and_two_pow_sub_one_eq_mod byte.toNat 7

theorem and_continues (byte : BitVec 8) : byte.toNat &&& 0x80 = 0 ↔ byte.toNat < 128 := by
  have hall : ∀ byte : BitVec 8, byte.toNat &&& 0x80 = 0 ↔ byte.toNat < 128 := by decide
  exact hall byte

theorem and_sign (byte : BitVec 8) : byte.toNat &&& 0x40 = 0 ↔ byte.toNat % 128 < 64 := by
  have hall : ∀ byte : BitVec 8, byte.toNat &&& 0x40 = 0 ↔ byte.toNat % 128 < 64 := by decide
  exact hall byte

/-- The accumulated bits stay below the next byte's. -/
theorem accumulated_lt {acc payload k : Nat} (hacc : acc < 2 ^ (7 * k)) (hpayload : payload < 128) :
    acc + 2 ^ (7 * k) * payload < 2 ^ (7 * (k + 1)) := by
  have hnext : 2 ^ (7 * (k + 1)) = 2 ^ (7 * k) * 128 := by rw [Nat.mul_succ, Nat.pow_add]
  have hmul : 2 ^ (7 * k) * payload + 2 ^ (7 * k) ≤ 2 ^ (7 * k) * 128 := by
    rw [← Nat.mul_succ]
    exact Nat.mul_le_mul_left _ hpayload
  omega

theorem drop_succ {bytes rest : List (BitVec 8)} {byte : BitVec 8} {cursor : Nat}
    (h : bytes.drop cursor = byte :: rest) : bytes.drop (cursor + 1) = rest := by
  rw [← List.drop_drop, h, List.drop_succ_cons, List.drop_zero]

section Unsigned

variable {byteAt : StateT Nat (Except ε) Nat} {overflows long : ε} {bytes : List (BitVec 8)}

/-- A round of the unsigned loop. -/
theorem ulebRounds_succ (hread : ReadsByte byteAt bytes) {count k acc cursor : Nat}
    {byte : BitVec 8} {rest : List (BitVec 8)} (hcount : count + 1 + k = 10)
    (hacc : acc < 2 ^ (7 * k)) (hdrop : bytes.drop cursor = byte :: rest) :
    ulebRounds byteAt overflows long (count + 1) (7 * k) (BitVec.ofNat 64 acc) cursor =
      if k = 9 ∧ 1 < byte.toNat % 128 then .error overflows
      else if byte.toNat < 128 then
        .ok (BitVec.ofNat 64 (acc + 2 ^ (7 * k) * (byte.toNat % 128)), cursor + 1)
      else ulebRounds byteAt overflows long count (7 * (k + 1))
        (BitVec.ofNat 64 (acc + 2 ^ (7 * k) * (byte.toNat % 128))) (cursor + 1) := by
  have hguard : (63 < 7 * k ∨ (7 * k = 63 ∧ 1 < byte.toNat % 128)) ↔
      (k = 9 ∧ 1 < byte.toNat % 128) := by omega
  have hbyte := (hread cursor).1 byte rest hdrop
  simp only [ulebRounds, bind, StateT.bind, Except.bind, hbyte, and_payload, and_continues, hguard,
    or_payload hacc]
  split
  · rfl
  · split
    · rfl
    · rfl

/-- Only the tenth byte can carry an unsigned number past 64 bits. -/
theorem fitsUnsigned_last {acc payload k : Nat} (hk : k ≤ 9) (hacc : acc < 2 ^ (7 * k))
    (hpayload : payload < 128) :
    FitsUnsigned (acc + 2 ^ (7 * k) * payload) ↔ ¬(k = 9 ∧ 1 < payload) := by
  unfold FitsUnsigned
  by_cases hlast : k = 9
  · subst hlast
    omega
  · have hbelow := accumulated_lt hacc hpayload
    have hpow : 2 ^ (7 * (k + 1)) ≤ 2 ^ 63 := Nat.pow_le_pow_right (by omega) (by omega)
    omega

/-- What the unsigned loop reads after `k` bytes that accumulated `acc`. -/
theorem ulebRounds_eq_ok (hread : ReadsByte byteAt bytes) {count k acc cursor next : Nat}
    {value : BitVec 64} (hcount : count + k = 10) (hacc : acc < 2 ^ (7 * k)) :
    ulebRounds byteAt overflows long count (7 * k) (BitVec.ofNat 64 acc) cursor =
        .ok (value, next) ↔
      ∃ digits, firstNumber count (bytes.drop cursor) = some digits ∧
        FitsUnsigned (acc + 2 ^ (7 * k) * unsignedValue digits) ∧
        value = BitVec.ofNat 64 (acc + 2 ^ (7 * k) * unsignedValue digits) ∧
        next = cursor + digits.length := by
  induction count generalizing k acc cursor with
  | zero =>
    refine ⟨(fun h => by cases h), ?_⟩
    intro ⟨_, h, _⟩
    cases h
  | succ count ih =>
    cases hdrop : bytes.drop cursor with
    | nil =>
      obtain ⟨e, he⟩ := (hread cursor).2 hdrop
      refine ⟨?_, ?_⟩
      · intro h
        simp [ulebRounds, bind, StateT.bind, Except.bind, he] at h
      · intro ⟨_, h, _⟩
        cases h
    | cons byte rest =>
      have hbelow := accumulated_lt hacc (Nat.mod_lt byte.toNat (by omega : 0 < 128))
      have hrest : bytes.drop (cursor + 1) = rest := drop_succ hdrop
      rw [ulebRounds_succ hread hcount hacc hdrop]
      unfold firstNumber
      by_cases hlast : byte.toNat < 128
      · -- the number ends here, and only the tenth byte can carry it past 64 bits
        have hfits := fitsUnsigned_last (by omega) hacc (Nat.mod_lt byte.toNat (by omega : 0 < 128))
        simp only [if_pos hlast, Option.some.injEq, exists_eq_left', unsignedValue, Nat.mul_zero,
          Nat.add_zero, List.length_singleton, hfits]
        grind
      · simp only [if_neg hlast]
        by_cases hover : k = 9 ∧ 1 < byte.toNat % 128
        · rw [if_pos hover]
          refine ⟨(fun h => by cases h), ?_⟩
          intro ⟨_, h, _⟩
          obtain rfl : count = 0 := by omega
          cases h
        · rw [if_neg hover, ih (by omega) hbelow, hrest]
          have hvalue : ∀ digits, acc + 2 ^ (7 * k) * unsignedValue (byte :: digits) =
              acc + 2 ^ (7 * k) * (byte.toNat % 128) + 2 ^ (7 * (k + 1)) * unsignedValue digits := by
            intro digits
            rw [unsignedValue_cons]
            ring
          refine ⟨?_, ?_⟩
          · intro ⟨digits, hfirst, hfits, hword, hnext⟩
            refine ⟨byte :: digits, by rw [hfirst]; rfl, ?_, ?_, ?_⟩
            · rwa [hvalue]
            · rwa [hvalue]
            · rw [List.length_cons]
              omega
          · intro ⟨_, hfirst, hfits, hword, hnext⟩
            obtain ⟨digits, hdigits, rfl⟩ := Option.map_eq_some_iff.mp hfirst
            rw [hvalue] at hfits hword
            rw [List.length_cons] at hnext
            exact ⟨digits, hdigits, hfits, hword, by omega⟩

end Unsigned

section Signed

variable {byteAt : StateT Nat (Except ε) Nat} {overflows long : ε} {bytes : List (BitVec 8)}

/-- What a signed loop returns at the last byte. -/
theorem signed_last {byte : BitVec 8} {acc k : Nat} (hacc : acc < 2 ^ (7 * k)) (hk : k ≤ 9) :
    (if ¬byte.toNat % 128 < 64 ∧ 7 * k + 7 < 64 then
        BitVec.ofNat 64 (acc + 2 ^ (7 * k) * (byte.toNat % 128)) |||
          (BitVec.allOnes 64 <<< (7 * k + 7))
      else BitVec.ofNat 64 (acc + 2 ^ (7 * k) * (byte.toNat % 128))) =
      BitVec.ofInt 64 (acc + 2 ^ (7 * k) * signedValue [byte]) := by
  have hbelow := accumulated_lt hacc (Nat.mod_lt byte.toNat (by omega : 0 < 128))
  unfold signedValue
  by_cases hpositive : byte.toNat % 128 < 64
  · rw [if_neg (fun h => h.1 hpositive), if_pos hpositive, ← BitVec.ofInt_natCast]
    push_cast
    rfl
  · rw [if_neg hpositive]
    by_cases hroom : 7 * k + 7 < 64
    · -- the sign fills what is left of the accumulator
      rw [if_pos ⟨hpositive, hroom⟩, ← Nat.mul_succ, or_signBits hbelow]
      congr 1
      push_cast
      ring
    · -- the tenth byte has its sign in the highest bit already
      obtain rfl : k = 9 := by omega
      rw [if_neg (fun h => hroom h.2), ← BitVec.ofInt_natCast]
      have hvalue : ((acc + 2 ^ (7 * 9) * (byte.toNat % 128) : Nat) : Int) =
          (acc + 2 ^ (7 * 9) * ((byte.toNat : Int) % 128 - 128)) + (2 ^ 64 : Nat) * 64 := by
        push_cast
        ring
      rw [hvalue]
      apply BitVec.eq_of_toInt_eq
      rw [BitVec.toInt_ofInt, BitVec.toInt_ofInt, Int.add_mul_bmod_self_left]

/-- A round of the signed loop. -/
theorem slebRounds_succ (hread : ReadsByte byteAt bytes) {checked : Bool}
    {count k acc cursor : Nat} {byte : BitVec 8} {rest : List (BitVec 8)}
    (hcount : count + 1 + k = 10) (hacc : acc < 2 ^ (7 * k))
    (hdrop : bytes.drop cursor = byte :: rest) :
    slebRounds byteAt overflows long checked (count + 1) (7 * k) (BitVec.ofNat 64 acc) cursor =
      if checked ∧ k = 9 ∧ byte.toNat % 128 ≠ 0 ∧ byte.toNat % 128 ≠ 127 then .error overflows
      else if byte.toNat < 128 then
        .ok ((BitVec.ofInt 64 (acc + 2 ^ (7 * k) * signedValue [byte])).toInt, cursor + 1)
      else slebRounds byteAt overflows long checked count (7 * (k + 1))
        (BitVec.ofNat 64 (acc + 2 ^ (7 * k) * (byte.toNat % 128))) (cursor + 1) := by
  have hguard : (checked ∧ (63 < 7 * k ∨
      (7 * k = 63 ∧ byte.toNat % 128 ≠ 0 ∧ byte.toNat % 128 ≠ 127))) ↔
      (checked ∧ k = 9 ∧ byte.toNat % 128 ≠ 0 ∧ byte.toNat % 128 ≠ 127) := by
    refine and_congr_right fun _ => ?_
    omega
  have hbyte := (hread cursor).1 byte rest hdrop
  simp only [slebRounds, bind, StateT.bind, Except.bind, hbyte, and_payload, and_continues, hguard,
    or_payload hacc, ne_eq, and_sign]
  split
  · rfl
  · split
    · rw [← signed_last hacc (by omega)]
      split <;> rfl
    · rfl

/-- Only the tenth byte can carry a signed number past 64 bits. -/
theorem fitsSigned_last (byte : BitVec 8) {acc k : Nat} (hacc : acc < 2 ^ (7 * k)) (hk : k ≤ 9) :
    FitsSigned (acc + 2 ^ (7 * k) * signedValue [byte]) ↔
      ¬(k = 9 ∧ byte.toNat % 128 ≠ 0 ∧ byte.toNat % 128 ≠ 127) := by
  have hpayload : byte.toNat % 128 < 128 := Nat.mod_lt _ (by omega)
  have hsign : signedValue [byte] =
      if byte.toNat % 128 < 64 then ((byte.toNat % 128 : Nat) : Int)
      else ((byte.toNat % 128 : Nat) : Int) - 128 := by
    unfold signedValue
    push_cast
    rfl
  rw [hsign]
  unfold FitsSigned
  generalize byte.toNat % 128 = payload at hpayload
  by_cases hlast : k = 9
  · subst hlast
    split <;> omega
  · have hpow : 2 ^ (7 * k) ≤ 2 ^ 56 := Nat.pow_le_pow_right (by omega) (by omega)
    have hcast : ((2 ^ (7 * k) : Nat) : Int) = 2 ^ (7 * k) := by push_cast; rfl
    rw [← hcast]
    generalize 2 ^ (7 * k) = unit at hacc hpow
    refine iff_of_true ?_ (fun h => hlast h.1)
    split
    · constructor <;> nlinarith
    · constructor <;> nlinarith

/-- What the signed loop reads after `k` bytes that accumulated `acc`. -/
theorem slebRounds_eq_ok (hread : ReadsByte byteAt bytes) {checked : Bool}
    {count k acc cursor next : Nat} {value : Int} (hcount : count + k = 10)
    (hacc : acc < 2 ^ (7 * k)) :
    slebRounds byteAt overflows long checked count (7 * k) (BitVec.ofNat 64 acc) cursor =
        .ok (value, next) ↔
      ∃ digits, firstNumber count (bytes.drop cursor) = some digits ∧
        (checked → FitsSigned (acc + 2 ^ (7 * k) * signedValue digits)) ∧
        value = (BitVec.ofInt 64 (acc + 2 ^ (7 * k) * signedValue digits)).toInt ∧
        next = cursor + digits.length := by
  induction count generalizing k acc cursor with
  | zero =>
    refine ⟨(fun h => by cases h), ?_⟩
    intro ⟨_, h, _⟩
    cases h
  | succ count ih =>
    cases hdrop : bytes.drop cursor with
    | nil =>
      obtain ⟨e, he⟩ := (hread cursor).2 hdrop
      refine ⟨?_, ?_⟩
      · intro h
        simp [slebRounds, bind, StateT.bind, Except.bind, he] at h
      · intro ⟨_, h, _⟩
        cases h
    | cons byte rest =>
      have hbelow := accumulated_lt hacc (Nat.mod_lt byte.toNat (by omega : 0 < 128))
      have hrest : bytes.drop (cursor + 1) = rest := drop_succ hdrop
      rw [slebRounds_succ hread hcount hacc hdrop]
      unfold firstNumber
      by_cases hlast : byte.toNat < 128
      · have hfits := fitsSigned_last byte hacc (by omega)
        simp only [if_pos hlast, Option.some.injEq, exists_eq_left', List.length_singleton, hfits]
        grind
      · simp only [if_neg hlast]
        by_cases hover : checked ∧ k = 9 ∧ byte.toNat % 128 ≠ 0 ∧ byte.toNat % 128 ≠ 127
        · rw [if_pos hover]
          refine ⟨(fun h => by cases h), ?_⟩
          intro ⟨_, h, _⟩
          obtain rfl : count = 0 := by omega
          cases h
        · rw [if_neg hover, ih (by omega) hbelow, hrest]
          have hvalue : ∀ digits : List (BitVec 8), digits ≠ [] →
              (acc + 2 ^ (7 * k) * signedValue (byte :: digits) : Int) =
              (acc + 2 ^ (7 * k) * (byte.toNat % 128) : Nat) +
                2 ^ (7 * (k + 1)) * signedValue digits := by
            intro digits hdigits
            rw [signedValue_cons hdigits]
            push_cast
            ring
          refine ⟨?_, ?_⟩
          · intro ⟨digits, hfirst, hfits, hword, hnext⟩
            refine ⟨byte :: digits, by rw [hfirst]; rfl, ?_, ?_, ?_⟩
            · rwa [hvalue digits (firstNumber_ne_nil hfirst)]
            · rwa [hvalue digits (firstNumber_ne_nil hfirst)]
            · rw [List.length_cons]
              omega
          · intro ⟨_, hfirst, hfits, hword, hnext⟩
            obtain ⟨digits, hdigits, rfl⟩ := Option.map_eq_some_iff.mp hfirst
            rw [hvalue digits (firstNumber_ne_nil hdigits)] at hfits hword
            rw [List.length_cons] at hnext
            exact ⟨digits, hdigits, hfits, hword, by omega⟩

end Signed

end Loops

/-! ## Numbers of more than 64 bits -/

/-- A number is continuing bytes and a last one. -/
theorem isNumber_iff {digits : List (BitVec 8)} :
    IsNumber digits ↔ ∃ continuing last, digits = continuing ++ [last] ∧
      (∀ byte ∈ continuing, 128 ≤ byte.toNat) ∧ last.toNat < 128 := by
  induction digits with
  | nil =>
    refine ⟨(fun h => h.elim), ?_⟩
    intro ⟨continuing, last, h, _⟩
    simp at h
  | cons byte bytes ih =>
    by_cases hbytes : bytes = []
    · subst hbytes
      refine ⟨(fun h => ⟨[], byte, rfl, by simp, h⟩), ?_⟩
      intro ⟨continuing, last, hdigits, _, hlast⟩
      cases continuing with
      | nil =>
        cases hdigits
        exact hlast
      | cons _ continuing => simp at hdigits
    · rw [isNumber_cons hbytes, ih]
      refine ⟨?_, ?_⟩
      · intro ⟨hbyte, continuing, last, hdigits, hcontinues, hlast⟩
        refine ⟨byte :: continuing, last, by rw [hdigits]; rfl, ?_, hlast⟩
        simpa [hbyte] using hcontinues
      · intro ⟨continuing, last, hdigits, hcontinues, hlast⟩
        cases continuing with
        | nil =>
          cases hdigits
          exact absurd rfl hbytes
        | cons first continuing =>
          cases hdigits
          exact ⟨hcontinues byte (by simp), continuing, last, rfl,
            fun other hother => hcontinues other (by simp [hother]), hlast⟩

/-- A number of ten bytes whose last byte holds more than the sign of 64 bits. -/
structure Spills (continuing : List (BitVec 8)) (last : BitVec 8) : Prop where
  length_eq : continuing.length = 9
  continues : ∀ byte ∈ continuing, 128 ≤ byte.toNat
  stops : last.toNat < 128
  not_zero : last.toNat ≠ 0
  not_ones : last.toNat ≠ 127

theorem fitsSigned_append {continuing : List (BitVec 8)} {last : BitVec 8} {acc k : Nat}
    (hacc : acc < 2 ^ (7 * k)) (hlength : k + continuing.length ≤ 9) (hlast : last.toNat < 128) :
    FitsSigned (acc + 2 ^ (7 * k) * signedValue (continuing ++ [last])) ↔
      ¬(k + continuing.length = 9 ∧ last.toNat ≠ 0 ∧ last.toNat ≠ 127) := by
  induction continuing generalizing acc k with
  | nil =>
    rw [List.nil_append, fitsSigned_last last hacc (by simpa using hlength), Nat.mod_eq_of_lt hlast]
    simp
  | cons byte continuing ih =>
    have hbelow := accumulated_lt hacc (Nat.mod_lt byte.toNat (by omega : 0 < 128))
    rw [List.length_cons] at hlength
    have hrest := ih hbelow (by omega)
    rw [List.cons_append, signedValue_cons (by simp), List.length_cons]
    have hvalue : (acc + 2 ^ (7 * k) * ((byte.toNat : Int) % 128 +
          128 * signedValue (continuing ++ [last]))) =
        (acc + 2 ^ (7 * k) * (byte.toNat % 128) : Nat) +
          2 ^ (7 * (k + 1)) * signedValue (continuing ++ [last]) := by
      push_cast
      ring
    rw [hvalue, hrest, Nat.add_right_comm, Nat.add_assoc]

/-- The first number is of more than 64 bits exactly when it spills. -/
theorem firstNumber_not_fitsSigned {bytes : List (BitVec 8)} :
    (∃ digits, firstNumber 10 bytes = some digits ∧ ¬FitsSigned (signedValue digits)) ↔
      ∃ continuing last, Spills continuing last ∧ continuing ++ [last] <+: bytes := by
  have hfits : ∀ {continuing : List (BitVec 8)} {last : BitVec 8}, continuing.length ≤ 9 →
      last.toNat < 128 → (FitsSigned (signedValue (continuing ++ [last])) ↔
        ¬(continuing.length = 9 ∧ last.toNat ≠ 0 ∧ last.toNat ≠ 127)) := by
    intro continuing last hlength hlast
    have hzero : (0 : Nat) < 2 ^ (7 * 0) := by omega
    simpa using fitsSigned_append hzero (by omega) hlast
  refine ⟨?_, ?_⟩
  · intro ⟨digits, hfirst, hnot⟩
    obtain ⟨hnumber, hlength, hprefix⟩ := firstNumber_eq_some.mp hfirst
    obtain ⟨continuing, last, rfl, hcontinues, hlast⟩ := isNumber_iff.mp hnumber
    rw [List.length_append, List.length_singleton] at hlength
    rw [hfits (by omega) hlast, not_not] at hnot
    exact ⟨continuing, last, ⟨hnot.1, hcontinues, hlast, hnot.2.1, hnot.2.2⟩, hprefix⟩
  · intro ⟨continuing, last, hspills, hprefix⟩
    refine ⟨continuing ++ [last], firstNumber_eq_some.mpr ⟨?_, ?_, hprefix⟩, ?_⟩
    · exact isNumber_iff.mpr ⟨continuing, last, rfl, hspills.continues, hspills.stops⟩
    · simp [hspills.length_eq]
    · rw [hfits (by rw [hspills.length_eq]) hspills.stops, not_not]
      exact ⟨hspills.length_eq, hspills.not_zero, hspills.not_ones⟩

end MiniDebugger.Leb128
