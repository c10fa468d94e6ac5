import MiniDebugger.Leb128
import MiniDebugger.Dwarf.LineReader
import MiniDebugger.Dwarf.Locations

/-!
# The four readers of LEB128 numbers

The line table, the two readers of `.eh_frame` and the debug-info readers each have a `read_uleb` and
a `read_sleb` of their own. All of them are the loops of `Leb128`; they differ in their errors, and
only the line table's `read_sleb` is checked.

The readers decode what stands at a position exactly when no number there spills past its tenth
byte: from such a number the unchecked readers return a value that has lost its high bits.
-/

namespace MiniDebugger

open Leb128

/-- Where a copy of `read_uleb` and `read_sleb` stands. -/
inductive LebReader where
  | lineTable
  | ehFrame
  | ehFrameSignal
  | debugInfo (what : String)
  deriving DecidableEq, Repr

/-- `read_uleb`. The two readers of `.eh_frame` have the same text. -/
def LebReader.readUleb (reader : LebReader) (bytes : List Byte) (limit : Nat) : Parse Word :=
  match reader with
  | .lineTable => readLineUleb bytes limit
  | .ehFrame => MiniDebugger.readUleb bytes limit
  | .ehFrameSignal => MiniDebugger.readUleb bytes limit
  | .debugInfo what => readDwarfUleb bytes limit what

/-- `read_sleb` -/
def LebReader.readSleb (reader : LebReader) (bytes : List Byte) (limit : Nat) : Parse Int :=
  match reader with
  | .lineTable => readLineSleb bytes limit
  | .ehFrame => MiniDebugger.readSleb bytes limit
  | .ehFrameSignal => MiniDebugger.readSleb bytes limit
  | .debugInfo what => readDwarfSleb bytes limit what

/-! ## The readers are the loops -/

section Loops

variable {bytes : List Byte} {limit : Nat} {what : String}

theorem take_drop_cons {cursor : Nat} {byte : Byte} {rest : List Byte}
    (h : (bytes.take limit).drop cursor = byte :: rest) :
    cursor < limit ∧ cursor < bytes.length ∧ (bytes.drop cursor).take 1 = [byte] := by
  have hlength := congrArg List.length h
  simp only [List.length_drop, List.length_take, List.length_cons] at hlength
  refine ⟨by omega, by omega, ?_⟩
  rw [List.drop_take] at h
  have hfirst := congrArg (List.take 1) h
  rwa [List.take_take, Nat.min_eq_left (by omega), List.take_succ_cons, List.take_zero] at hfirst

theorem readsByte_of {scalar : Parse Nat} {boundary past : Exception}
    (read : List Byte → Nat → Nat → String → Except Exception Nat)
    (hscalar : ∀ cursor, scalar cursor =
      if limit < cursor ∨ limit - cursor < 1 then .error boundary
      else (read bytes cursor 1 what).map (·, cursor + 1))
    (hread : ∀ offset, read bytes offset 1 what =
      if bytes.length < offset ∨ bytes.length - offset < 1 then .error past
      else .ok (littleEndian ((bytes.drop offset).take 1))) :
    ReadsByte scalar (bytes.take limit) := by
  intro cursor
  rw [hscalar, hread]
  refine ⟨?_, ?_⟩
  · intro byte rest hdrop
    obtain ⟨hlimit, hlength, hbyte⟩ := take_drop_cons hdrop
    rw [if_neg (by omega), if_neg (by omega), hbyte]
    simp [littleEndian, Except.map]
  · intro hdrop
    have hlength := congrArg List.length hdrop
    simp only [List.length_drop, List.length_take, List.length_nil] at hlength
    by_cases hlimit : limit < cursor ∨ limit - cursor < 1
    · rw [if_pos hlimit]
      exact ⟨_, rfl⟩
    · rw [if_neg hlimit, if_pos (by omega)]
      exact ⟨_, rfl⟩

theorem readsByte_readScalar : ReadsByte (readScalar bytes limit 1 what) (bytes.take limit) :=
  readsByte_of readAt (fun _ => rfl) (fun _ => rfl)

theorem readsByte_readLineScalar :
    ReadsByte (readLineScalar bytes limit 1 what) (bytes.take limit) :=
  readsByte_of readLineAt (fun _ => rfl) (fun _ => rfl)

theorem readsByte_readDwarfScalar :
    ReadsByte (readDwarfScalar bytes limit 1 what) (bytes.take limit) :=
  readsByte_of readAt (fun _ => rfl) (fun _ => rfl)

theorem readUlebRounds_eq (count shift : Nat) (result : Word) :
    readUlebRounds bytes limit count shift result =
      ulebRounds (readScalar bytes limit 1 "ULEB128") (.runtimeError "ULEB128 overflows 64 bits")
        (.runtimeError "ULEB128 is too long") count shift result := by
  induction count generalizing shift result with
  | zero => rfl
  | succ count ih =>
    unfold readUlebRounds ulebRounds
    simp only [ih]

theorem readDwarfUlebRounds_eq (count shift : Nat) (result : Word) :
    readDwarfUlebRounds bytes limit what count shift result =
      ulebRounds (readDwarfScalar bytes limit 1 what)
        (.runtimeError (what ++ " overflows 64 bits")) (.runtimeError (what ++ " is too long"))
        count shift result := by
  induction count generalizing shift result with
  | zero => rfl
  | succ count ih =>
    unfold readDwarfUlebRounds ulebRounds
    simp only [ih]

theorem readLineUlebRounds_eq (count shift : Nat) (result : Word) :
    readLineUlebRounds bytes limit count shift result =
      ulebRounds (readLineScalar bytes limit 1 "ULEB128 operand")
        (.runtimeError "ULEB128 operand overflows 64 bits")
        (.runtimeError "ULEB128 operand is too long") count shift result := by
  induction count generalizing shift result with
  | zero => rfl
  | succ count ih =>
    unfold readLineUlebRounds ulebRounds
    simp only [ih]

theorem readSlebRounds_eq (overflows : Exception) (count shift : Nat) (result : Word) :
    readSlebRounds bytes limit count shift result =
      slebRounds (readScalar bytes limit 1 "SLEB128") overflows
        (.runtimeError "SLEB128 is too long") false count shift result := by
  induction count generalizing shift result with
  | zero => rfl
  | succ count ih =>
    unfold readSlebRounds slebRounds
    simp only [ih, Bool.false_eq_true, false_and, if_false]

theorem readDwarfSlebRounds_eq (overflows : Exception) (count shift : Nat) (result : Word) :
    readDwarfSlebRounds bytes limit what count shift result =
      slebRounds (readDwarfScalar bytes limit 1 what) overflows
        (.runtimeError (what ++ " is too long")) false count shift result := by
  induction count generalizing shift result with
  | zero => rfl
  | succ count ih =>
    unfold readDwarfSlebRounds slebRounds
    simp only [ih, Bool.false_eq_true, false_and, if_false]

theorem readLineSlebRounds_eq (count shift : Nat) (result : Word) :
    readLineSlebRounds bytes limit count shift result =
      slebRounds (readLineScalar bytes limit 1 "SLEB128 operand")
        (.runtimeError "SLEB128 operand overflows 64 bits")
        (.runtimeError "SLEB128 operand is too long") true count shift result := by
  induction count generalizing shift result with
  | zero => rfl
  | succ count ih =>
    unfold readLineSlebRounds slebRounds
    simp only [ih, true_and]

end Loops

/-- The number at a position: at most ten bytes within the limit. -/
def numberAt (bytes : List Byte) (limit cursor : Nat) : Option (List Byte) :=
  firstNumber 10 ((bytes.take limit).drop cursor)

/-- A reader that checks its tenth byte. -/
def LebReader.Checked (reader : LebReader) : Bool :=
  match reader with
  | .lineTable => true
  | _ => false

section Readers

variable {bytes : List Byte} {limit cursor next : Nat}

/-- What every `read_uleb` reads. -/
theorem readUleb_eq_ok (reader : LebReader) {value : Word} :
    reader.readUleb bytes limit cursor = .ok (value, next) ↔
      ∃ digits, numberAt bytes limit cursor = some digits ∧
        FitsUnsigned (unsignedValue digits) ∧ value = BitVec.ofNat 64 (unsignedValue digits) ∧
        next = cursor + digits.length := by
  have hloop : ∀ {byteAt : Parse Nat} {overflows long : Exception},
      ReadsByte byteAt (bytes.take limit) →
      (ulebRounds byteAt overflows long 10 0 0 cursor = .ok (value, next) ↔
        ∃ digits, numberAt bytes limit cursor = some digits ∧
          FitsUnsigned (unsignedValue digits) ∧ value = BitVec.ofNat 64 (unsignedValue digits) ∧
          next = cursor + digits.length) := by
    intro byteAt overflows long hread
    have hrounds : ulebRounds byteAt overflows long 10 (7 * 0) (BitVec.ofNat 64 0) cursor =
        .ok (value, next) ↔ _ := ulebRounds_eq_ok hread rfl (by omega)
    simpa [numberAt] using hrounds
  cases reader with
  | lineTable =>
    unfold LebReader.readUleb readLineUleb
    rw [readLineUlebRounds_eq]
    exact hloop readsByte_readLineScalar
  | ehFrame =>
    unfold LebReader.readUleb MiniDebugger.readUleb
    rw [readUlebRounds_eq]
    exact hloop readsByte_readScalar
  | ehFrameSignal =>
    unfold LebReader.readUleb MiniDebugger.readUleb
    rw [readUlebRounds_eq]
    exact hloop readsByte_readScalar
  | debugInfo what =>
    dsimp only [LebReader.readUleb, readDwarfUleb]
    rw [readDwarfUlebRounds_eq]
    exact hloop readsByte_readDwarfScalar

/-- What every `read_sleb` reads: a reader that does not check wraps. -/
theorem readSleb_eq_ok (reader : LebReader) {value : Int} :
    reader.readSleb bytes limit cursor = .ok (value, next) ↔
      ∃ digits, numberAt bytes limit cursor = some digits ∧
        (reader.Checked → FitsSigned (signedValue digits)) ∧
        value = (BitVec.ofInt 64 (signedValue digits)).toInt ∧ next = cursor + digits.length := by
  have hloop : ∀ {byteAt : Parse Nat} {overflows long : Exception} {checked : Bool},
      ReadsByte byteAt (bytes.take limit) →
      (slebRounds byteAt overflows long checked 10 0 0 cursor = .ok (value, next) ↔
        ∃ digits, numberAt bytes limit cursor = some digits ∧
          (checked → FitsSigned (signedValue digits)) ∧
          value = (BitVec.ofInt 64 (signedValue digits)).toInt ∧
          next = cursor + digits.length) := by
    intro byteAt overflows long checked hread
    have hrounds : slebRounds byteAt overflows long checked 10 (7 * 0) (BitVec.ofNat 64 0)
        cursor = .ok (value, next) ↔ _ := slebRounds_eq_ok hread rfl (by omega)
    simpa [numberAt] using hrounds
  cases reader with
  | lineTable =>
    dsimp only [LebReader.readSleb, readLineSleb]
    rw [readLineSlebRounds_eq]
    exact hloop readsByte_readLineScalar
  | ehFrame =>
    dsimp only [LebReader.readSleb, MiniDebugger.readSleb]
    rw [readSlebRounds_eq (.runtimeError "")]
    exact hloop readsByte_readScalar
  | ehFrameSignal =>
    dsimp only [LebReader.readSleb, MiniDebugger.readSleb]
    rw [readSlebRounds_eq (.runtimeError "")]
    exact hloop readsByte_readScalar
  | debugInfo what =>
    dsimp only [LebReader.readSleb, readDwarfSleb]
    rw [readDwarfSlebRounds_eq (.runtimeError "")]
    exact hloop readsByte_readDwarfScalar

end Readers

/-! ## What stands at a position is decoded -/

/-- All readers decode what stands at a position: they return the value of the number there, which
has at most ten bytes within the limit and 64 bits, and throw when there is none. -/
structure DecodesAt (bytes : List Byte) (limit cursor : Nat) : Prop where
  unsigned : ∀ (reader : LebReader) (value : Word) (next : Nat),
    reader.readUleb bytes limit cursor = .ok (value, next) ↔
      ∃ digits, numberAt bytes limit cursor = some digits ∧
        unsignedValue digits = value.toNat ∧ next = cursor + digits.length
  signed : ∀ (reader : LebReader) (value : Int) (next : Nat),
    reader.readSleb bytes limit cursor = .ok (value, next) ↔
      ∃ digits, numberAt bytes limit cursor = some digits ∧
        FitsSigned (signedValue digits) ∧ signedValue digits = value ∧
        next = cursor + digits.length
  /-- Decoding undoes every encoding of at most ten bytes. -/
  undoes : ∀ (reader : LebReader) (digits : List Byte), IsNumber digits → digits.length ≤ 10 →
    digits <+: (bytes.take limit).drop cursor →
    (∀ value : Word, unsignedValue digits = value.toNat →
      reader.readUleb bytes limit cursor = .ok (value, cursor + digits.length)) ∧
    ∀ value : Word, signedValue digits = value.toInt →
      reader.readSleb bytes limit cursor = .ok (value.toInt, cursor + digits.length)
  /-- The copies agree. -/
  agree : ∀ left right : LebReader,
    (left.readUleb bytes limit cursor).toOption = (right.readUleb bytes limit cursor).toOption ∧
    (left.readSleb bytes limit cursor).toOption = (right.readSleb bytes limit cursor).toOption

theorem toOption_eq_of_eq_ok_iff {α : Type} {x y : Except Exception α}
    (h : ∀ a, x = .ok a ↔ y = .ok a) : x.toOption = y.toOption := by
  cases x with
  | ok a =>
    rw [(h a).mp rfl]
  | error e =>
    cases y with
    | ok a => cases (h a).mpr rfl
    | error e' => rfl

theorem decodesAt_of_fits {bytes : List Byte} {limit cursor : Nat}
    (hfits : ∀ digits, numberAt bytes limit cursor = some digits →
      FitsSigned (signedValue digits)) : DecodesAt bytes limit cursor := by
  have hunsigned : ∀ (reader : LebReader) (value : Word) (next : Nat),
      reader.readUleb bytes limit cursor = .ok (value, next) ↔
        ∃ digits, numberAt bytes limit cursor = some digits ∧
          unsignedValue digits = value.toNat ∧ next = cursor + digits.length := by
    intro reader value next
    rw [readUleb_eq_ok]
    refine exists_congr fun digits => and_congr_right fun _ => ?_
    rw [← and_assoc]
    refine and_congr_left fun _ => ⟨?_, ?_⟩
    · intro ⟨hword, hvalue⟩
      rw [hvalue, BitVec.toNat_ofNat, Nat.mod_eq_of_lt hword]
    · intro hvalue
      refine ⟨hvalue ▸ value.isLt, ?_⟩
      rw [hvalue, BitVec.ofNat_toNat, BitVec.setWidth_eq]
  have hsigned : ∀ (reader : LebReader) (value : Int) (next : Nat),
      reader.readSleb bytes limit cursor = .ok (value, next) ↔
        ∃ digits, numberAt bytes limit cursor = some digits ∧
          FitsSigned (signedValue digits) ∧ signedValue digits = value ∧
          next = cursor + digits.length := by
    intro reader value next
    rw [readSleb_eq_ok]
    refine exists_congr fun digits => and_congr_right fun hdigits => ?_
    have hfit := hfits digits hdigits
    rw [toInt_ofInt_eq_self_iff.mpr hfit]
    simp only [hfit, implies_true, true_and, eq_comm (a := value)]
  refine ⟨hunsigned, hsigned, ?_, ?_⟩
  · intro reader digits hnumber hlength hprefix
    have hat : numberAt bytes limit cursor = some digits :=
      firstNumber_eq_some.mpr ⟨hnumber, hlength, hprefix⟩
    refine ⟨?_, ?_⟩
    · intro value hvalue
      exact (hunsigned reader value _).mpr ⟨digits, hat, hvalue, rfl⟩
    · intro value hvalue
      exact (hsigned reader _ _).mpr ⟨digits, hat, hfits digits hat, hvalue, rfl⟩
  · intro left right
    refine ⟨toOption_eq_of_eq_ok_iff ?_, toOption_eq_of_eq_ok_iff ?_⟩
    · intro ⟨value, next⟩
      rw [hunsigned, hunsigned]
    · intro ⟨value, next⟩
      rw [hsigned, hsigned]

/-- The readers decode what stands at a position exactly when no number of ten bytes there has more
than a sign in its last byte. -/
theorem decodesAt_iff_not_spills (bytes : List Byte) (limit cursor : Nat) :
    DecodesAt bytes limit cursor ↔
      ¬∃ continuing last, Spills continuing last ∧
        continuing ++ [last] <+: (bytes.take limit).drop cursor := by
  rw [← firstNumber_not_fitsSigned]
  refine ⟨?_, ?_⟩
  · intro hdecodes ⟨digits, hdigits, hnot⟩
    -- an unchecked reader returns what is left of the value
    have hwraps : LebReader.ehFrame.readSleb bytes limit cursor =
        .ok ((BitVec.ofInt 64 (signedValue digits)).toInt, cursor + digits.length) :=
      (readSleb_eq_ok _).mpr ⟨digits, hdigits, (fun h => by cases h), rfl, rfl⟩
    obtain ⟨other, hother, hfits, _⟩ := (hdecodes.signed _ _ _).mp hwraps
    have hsame : some digits = some other := hdigits.symm.trans hother
    cases hsame
    exact hnot hfits
  · intro hnot
    apply decodesAt_of_fits
    intro digits hdigits
    by_contra hspills
    exact hnot ⟨digits, hdigits, hspills⟩

/-- The number that `eh_frame` reads as zero: nine bytes of zero digits and a tenth of two. -/
theorem not_decodesAt_spilled :
    ¬DecodesAt (List.replicate 9 0x80#8 ++ [0x02#8]) 10 0 := by
  intro hdecodes
  have hread : LebReader.ehFrame.readSleb (List.replicate 9 0x80#8 ++ [0x02#8]) 10 0 =
      .ok (0, 10) := by rfl
  have hline : LebReader.lineTable.readSleb (List.replicate 9 0x80#8 ++ [0x02#8]) 10 0 =
      .error (.runtimeError "SLEB128 operand overflows 64 bits") := by rfl
  have hagree := (hdecodes.agree .ehFrame .lineTable).2
  rw [hread, hline] at hagree
  cases hagree

end MiniDebugger
