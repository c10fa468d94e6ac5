import MiniDebugger.CallFrame
import MiniDebugger.Dwarf.Code
import MiniDebugger.Dwarf.Rows

/-!
# The table of a function

`decode` reads the instructions of a CIE or FDE from its bytes, `CfiState.row` is the row that a
state of `execute` describes. Each pass of the loop of `execute` decodes an instruction and does to
the state what the instruction does to the row; so the state it returns is the row in force at the
target.
-/

namespace MiniDebugger

open Leb128 CallFrame
open Std (ExtTreeMap)

/-! ## Encoded instructions -/

/-- An instruction with all its operands behind the opcode. -/
def decodeExtended (opcode : Nat) (code : List Byte) : Option (Instruction × List Byte) :=
  match opcode with
  | 0x00 => some (.nop, code)
  | 0x02 => (takeField 1 code).map fun (units, code) => (.advance units, code)
  | 0x03 => (takeField 2 code).map fun (units, code) => (.advance units, code)
  | 0x04 => (takeField 4 code).map fun (units, code) => (.advance units, code)
  | 0x05 => do
    let (reg, code) ← takeNumber code
    let (factor, code) ← takeNumber code
    return (.offset reg factor, code)
  | 0x06 => (takeNumber code).map fun (reg, code) => (.restore reg, code)
  | 0x07 => (takeNumber code).map fun (reg, code) => (.undefined reg, code)
  | 0x08 => (takeNumber code).map fun (reg, code) => (.sameValue reg, code)
  | 0x0a => some (.rememberState, code)
  | 0x0b => some (.restoreState, code)
  | 0x0c => do
    let (reg, code) ← takeNumber code
    let (offset, code) ← takeNumber code
    return (.defCfa reg offset, code)
  | 0x0d => (takeNumber code).map fun (reg, code) => (.defCfaRegister reg, code)
  | 0x0e => (takeNumber code).map fun (offset, code) => (.defCfaOffset offset, code)
  | 0x2e => (takeNumber code).map fun (size, code) => (.argsSize size, code)
  | _ => none

/-- The first instruction of some code: the two high bits of an opcode choose one of three
instructions with an operand in the opcode, or the others. -/
def decode : List Byte → Option (Instruction × List Byte)
  | [] => none
  | opcode :: code =>
    let operand := opcode.toNat % 64
    match opcode.toNat / 64 with
    | 0 => decodeExtended operand code
    | 1 => some (.advance operand, code)
    | 2 => (takeNumber code).map fun (factor, code) => (.offset operand factor, code)
    | _ => some (.restore operand, code)

theorem decodeExtended_suffix {opcode : Nat} {code rest : List Byte} {instruction : Instruction}
    (h : decodeExtended opcode code = some (instruction, rest)) : rest <:+ code := by
  have hone : ∀ {take : Option (Nat × List Byte)} {make : Nat → Instruction},
      (∀ value middle, take = some (value, middle) → middle <:+ code) →
      take.map (fun (value, code) => (make value, code)) = some (instruction, rest) →
      rest <:+ code := by
    intro take make htake h
    obtain ⟨⟨value, middle⟩, hvalue, hmake⟩ := Option.map_eq_some_iff.mp h
    cases hmake
    exact htake value rest hvalue
  have htwo : ∀ {make : Nat → Nat → Instruction},
      (do
        let (first, code) ← takeNumber code
        let (second, code) ← takeNumber code
        return (make first second, code)) = some (instruction, rest) → rest <:+ code := by
    intro make h
    obtain ⟨⟨first, middle⟩, hfirst, h⟩ := Option.bind_eq_some_iff.mp h
    obtain ⟨⟨second, behind⟩, hsecond, hdone⟩ := Option.bind_eq_some_iff.mp h
    cases hdone
    exact (takeNumber_suffix hsecond).trans (takeNumber_suffix hfirst)
  unfold decodeExtended at h
  split at h
  · cases h
    exact List.suffix_refl _
  · exact hone (fun _ _ => takeField_suffix) h
  · exact hone (fun _ _ => takeField_suffix) h
  · exact hone (fun _ _ => takeField_suffix) h
  · exact htwo h
  · exact hone (fun _ _ => takeNumber_suffix) h
  · exact hone (fun _ _ => takeNumber_suffix) h
  · exact hone (fun _ _ => takeNumber_suffix) h
  · cases h
    exact List.suffix_refl _
  · cases h
    exact List.suffix_refl _
  · exact htwo h
  · exact hone (fun _ _ => takeNumber_suffix) h
  · exact hone (fun _ _ => takeNumber_suffix) h
  · exact hone (fun _ _ => takeNumber_suffix) h
  · cases h

/-- An instruction is taken from the front. -/
theorem decode_suffix {code rest : List Byte} {instruction : Instruction}
    (h : decode code = some (instruction, rest)) : rest <:+ code := by
  cases code with
  | nil => cases h
  | cons opcode code =>
    refine List.IsSuffix.trans ?_ (List.suffix_cons opcode code)
    unfold decode at h
    dsimp only at h
    split at h
    · exact decodeExtended_suffix h
    · cases h
      exact List.suffix_refl _
    · obtain ⟨⟨factor, behind⟩, hfactor, hmake⟩ := Option.map_eq_some_iff.mp h
      cases hmake
      exact takeNumber_suffix hfactor
    · cases h
      exact List.suffix_refl _

theorem decodes_suffix {code rest : List Byte} {instructions : List Instruction}
    (h : Decodes decode code instructions rest) : rest <:+ code := by
  induction h with
  | done => exact List.suffix_refl _
  | next hfirst _ ih => exact ih.trans (decode_suffix hfirst)

/-! ## Rows -/

def RegisterRule.rule (rule : RegisterRule) : Rule :=
  match rule.kind with
  | .undefined => .undefined
  | .sameValue => .sameValue
  | .offset => .offset rule.offset

/-- The row that a state describes. -/
def CfiState.row (state : CfiState) : Row where
  cfa := if state.cfaDefined then some (state.cfaRegister.toNat, state.cfaOffset) else none
  rules reg :=
    if reg < 2 ^ 64 then state.rules[BitVec.ofNat 64 reg]?.map RegisterRule.rule else none

def CfiMachine.machine (machine : CfiMachine) : Machine where
  location := machine.location.toNat
  row := machine.state.row
  remembered := machine.stack.map CfiState.row

def Cie.factors (cie : Cie) : Factors where
  code := cie.codeAlignment.toNat
  data := cie.dataAlignment

theorem ofNat_eq_iff {reg : Nat} (hreg : reg < 2 ^ 64) (word : Word) :
    BitVec.ofNat 64 reg = word ↔ reg = word.toNat := by
  refine ⟨?_, ?_⟩
  · intro h
    rw [← h, BitVec.toNat_ofNat, Nat.mod_eq_of_lt hreg]
  · intro h
    rw [h, BitVec.ofNat_toNat, BitVec.setWidth_eq]

theorem row_insert (state : CfiState) (reg : Word) (rule : RegisterRule) :
    CfiState.row { state with rules := state.rules.insert reg rule } =
      { state.row with rules := Function.update state.row.rules reg.toNat (some rule.rule) } := by
  unfold CfiState.row
  congr 1
  funext other
  rw [Function.update_apply]
  by_cases hother : other < 2 ^ 64
  · have hsame := ofNat_eq_iff hother reg
    simp only [if_pos hother, ExtTreeMap.getElem?_insert]
    grind
  · have hne : other ≠ reg.toNat := by
      have := reg.isLt
      omega
    simp only [if_neg hother, if_neg hne]

theorem row_erase (state : CfiState) (reg : Word) :
    CfiState.row { state with rules := state.rules.erase reg } =
      { state.row with rules := Function.update state.row.rules reg.toNat none } := by
  unfold CfiState.row
  congr 1
  funext other
  rw [Function.update_apply]
  by_cases hother : other < 2 ^ 64
  · have hsame := ofNat_eq_iff hother reg
    simp only [if_pos hother, ExtTreeMap.getElem?_erase]
    grind
  · simp only [if_neg hother, ite_self]

theorem machine_setRule (machine : CfiMachine) (reg : Word) (rule : RegisterRule) :
    (machine.setRule reg rule).machine = machine.machine.setRule reg.toNat (some rule.rule) := by
  unfold CfiMachine.setRule CfiMachine.machine Machine.setRule
  rw [row_insert]

/-! ## Arithmetic -/

/-- A factored offset is the exact product, and fits its type. -/
theorem scaledOffset_eq_ok {alignment offset : Int} {factor : Word}
    (h : scaledOffset alignment factor = .ok offset) :
    offset = alignment * factor.toNat ∧ int64Min ≤ offset ∧ offset ≤ int64Max := by
  unfold scaledOffset at h
  rw [Checks.ite_throw_eq_ok, Checks.ite_throw_eq_ok, Checks.ite_throw_eq_ok, Checks.pure_eq_ok]
    at h
  obtain ⟨_, hlow, hhigh, rfl⟩ := h
  have hmin : int64Min = -2 ^ 63 := rfl
  have hmax : int64Max = 2 ^ 63 - 1 := rfl
  have hfactor : (0 : Int) ≤ factor.toNat := Int.natCast_nonneg _
  refine ⟨rfl, ?_⟩
  obtain hzero | hpos := Nat.eq_zero_or_pos factor.toNat
  · rw [hzero, Int.natCast_zero, Int.mul_zero]
    omega
  · obtain hneg | hnonneg := lt_or_ge alignment 0
    · have hle : -(2 ^ 63 / (factor.toNat : Int)) ≤ alignment := by
        have hquotient : int64Min.tdiv factor.toNat = -(2 ^ 63 / (factor.toNat : Int)) := by
          rw [hmin, Int.neg_tdiv, Int.tdiv_eq_ediv_of_nonneg (by omega)]
        rw [← hquotient]
        omega
      have hproduct := Int.mul_le_mul_of_nonneg_right hle hfactor
      have hquotient := Int.ediv_mul_le (2 ^ 63) (by omega : (factor.toNat : Int) ≠ 0)
      have hnonpos := Int.mul_nonpos_of_nonpos_of_nonneg (Int.le_of_lt hneg) hfactor
      rw [Int.neg_mul] at hproduct
      omega
    · have hle : alignment ≤ int64Max / factor.toNat := by
        rw [← Int.tdiv_eq_ediv_of_nonneg (by omega)]
        obtain hzero | hpos := Int.le_iff_eq_or_lt.mp hnonneg
        · rw [← hzero]
          exact Int.tdiv_nonneg (by omega) hfactor
        · omega
      have hproduct := Int.mul_le_mul_of_nonneg_right hle hfactor
      have hquotient := Int.ediv_mul_le int64Max (by omega : (factor.toNat : Int) ≠ 0)
      have hnonneg := Int.mul_nonneg hnonneg hfactor
      omega

/-- A sum is exact. -/
theorem addSigned_exact {base sum : Word} {offset : Int} {what : String}
    (h : addSigned base offset what = .ok sum) : (sum.toNat : Int) = base.toNat + offset := by
  unfold addSigned at h
  have hbase := base.isLt
  split at h
  · split at h
    · cases h
    · cases h
      rw [BitVec.toNat_add, BitVec.toNat_ofNat]
      omega
  · split at h
    · cases h
    · cases h
      rw [BitVec.toNat_sub, BitVec.toNat_ofNat]
      omega

/-! ## Reading an instruction -/

theorem lift_ok {α : Type} {cursor next : Nat} {x : Except Exception α} {a : α}
    (h : (liftM x : Parse α) cursor = .ok (a, next)) : x = .ok a ∧ next = cursor := by
  cases x with
  | error e => cases h
  | ok b =>
    cases h
    exact ⟨rfl, rfl⟩

/-! ## A pass of the loop -/

section Pass

variable {bytes : List Byte} {stop : Nat} {cie : Cie} {initial : Option CfiState} {target : Word}
  {machine : CfiMachine} {cursor next : Nat} {result : Option CfiMachine}

/-- A pass does to the machine what the instruction does, or it ends the loop at an advance past the
target to a location that is still an address. -/
def FollowsInstruction (cie : Cie) (initial : Option CfiState) (target : Word)
    (machine : CfiMachine) (instruction : Instruction) : Option CfiMachine → Prop
  | some after =>
    apply cie.factors (initial.map CfiState.row) instruction machine.machine = some after.machine ∧
      (machine.location ≤ target → after.location ≤ target)
  | none => ∃ units, instruction = .advance units ∧
    target.toNat < machine.location.toNat + units * cie.codeAlignment.toNat ∧
    machine.location.toNat + units * cie.codeAlignment.toNat < 2 ^ 64

theorem follows_advance {units : Word} (h : advance cie target units machine = .ok result) :
    FollowsInstruction cie initial target machine (.advance units.toNat) result := by
  unfold advance at h
  rw [Checks.ite_throw_eq_ok] at h
  obtain ⟨hunits, h⟩ := h
  obtain ⟨hzero, hunits⟩ := not_or.mp hunits
  have hpos : 0 < cie.codeAlignment.toNat := by
    refine Nat.pos_of_ne_zero fun h => hzero (BitVec.eq_of_toNat_eq h)
  have hproduct : units.toNat * cie.codeAlignment.toNat < 2 ^ 64 := by
    have := (Nat.le_div_iff_mul_le hpos).mp (Nat.le_of_not_lt hunits)
    omega
  have hdelta : (units * cie.codeAlignment).toNat = units.toNat * cie.codeAlignment.toNat := by
    rw [BitVec.toNat_mul, Nat.mod_eq_of_lt hproduct]
  dsimp only at h
  rw [Checks.ite_throw_eq_ok, hdelta] at h
  obtain ⟨hroom, h⟩ := h
  have hlocation : (machine.location + units * cie.codeAlignment).toNat =
      machine.location.toNat + units.toNat * cie.codeAlignment.toNat := by
    rw [BitVec.toNat_add, hdelta]
    omega
  split at h
  next hbeyond =>
    cases h
    rw [BitVec.lt_def, hlocation] at hbeyond
    refine ⟨units.toNat, rfl, hbeyond, ?_⟩
    omega
  next hreached =>
    cases h
    refine ⟨?_, fun _ => BitVec.not_lt.mp hreached⟩
    unfold apply CfiMachine.machine Cie.factors
    rw [hlocation]

/-- An instruction other than an advance. -/
theorem follows_of_apply {instruction : Instruction} {after : CfiMachine}
    (happly : apply cie.factors (initial.map CfiState.row) instruction machine.machine =
      some after.machine) (hlocation : after.location = machine.location) :
    FollowsInstruction cie initial target machine instruction (some after) :=
  ⟨happly, fun hle => hlocation ▸ hle⟩

theorem follows_setRule {instruction : Instruction} {reg : Word} {rule : RegisterRule}
    (happly : apply cie.factors (initial.map CfiState.row) instruction machine.machine =
      some (machine.machine.setRule reg.toNat (some rule.rule))) :
    FollowsInstruction cie initial target machine instruction
      (some (machine.setRule reg rule)) := by
  refine follows_of_apply ?_ rfl
  rw [happly, machine_setRule]

theorem follows_restore {state : CfiState} {reg : Word}
    (h : restoreRule machine.state initial reg = .ok state) :
    FollowsInstruction cie initial target machine (.restore reg.toNat)
      (some { machine with state }) := by
  refine follows_of_apply ?_ rfl
  unfold restoreRule at h
  cases initial with
  | none => cases h
  | some initial =>
    have hrule : initial.row.rules reg.toNat = initial.rules[reg]?.map RegisterRule.rule := by
      unfold CfiState.row
      dsimp only
      rw [if_pos reg.isLt, BitVec.ofNat_toNat, BitVec.setWidth_eq]
    have happly : apply cie.factors (some initial.row) (.restore reg.toNat) machine.machine =
        some (machine.machine.setRule reg.toNat (initial.row.rules reg.toNat)) := rfl
    rw [Option.map_some, happly, hrule]
    dsimp only at h
    split at h
    next hnone =>
      cases h
      rw [hnone]
      unfold CfiMachine.machine Machine.setRule
      rw [row_erase]
      rfl
    next rule hsome =>
      cases h
      rw [hsome]
      unfold CfiMachine.machine Machine.setRule
      rw [row_insert]
      rfl

/-- An advance by a field of the code. -/
theorem follows_advanceField {size : Nat} {what : String} (hsize : size ≤ 4)
    (h : (do advance cie target (BitVec.ofNat 64 (← readScalar bytes stop size what)) machine :
      Parse (Option CfiMachine)) cursor = .ok (result, next)) :
    ∃ units, takeField size (codeAt bytes stop cursor) = some (units, codeAt bytes stop next) ∧
      FollowsInstruction cie initial target machine (.advance units) result := by
  obtain ⟨units, middle, hunits, h⟩ := bind_ok h
  obtain ⟨hadvance, rfl⟩ := lift_ok h
  have htake := takeField_of_readScalar hunits
  have hword : (BitVec.ofNat 64 units).toNat = units := by
    have hlt := takeField_lt htake
    have hpow : 256 ^ size ≤ 256 ^ 4 := Nat.pow_le_pow_right (by omega) hsize
    rw [BitVec.toNat_ofNat]
    omega
  have hfollows : FollowsInstruction cie initial target machine
      (.advance (BitVec.ofNat 64 units).toNat) result := follows_advance hadvance
  rw [hword] at hfollows
  exact ⟨units, htake, hfollows⟩

theorem follows_restoreState {state : CfiState} {stack : List CfiState}
    (hstack : machine.stack = state :: stack) :
    FollowsInstruction cie initial target machine .restoreState
      (some { machine with state, stack }) := by
  refine follows_of_apply ?_ rfl
  unfold apply CfiMachine.machine
  rw [hstack]
  rfl

theorem follows_defCfaRegister (hdefined : machine.state.cfaDefined = true) (cfaRegister : Word) :
    FollowsInstruction cie initial target machine (.defCfaRegister cfaRegister.toNat)
      (some { machine with state := { machine.state with cfaRegister } }) := by
  refine follows_of_apply ?_ rfl
  unfold apply CfiMachine.machine CfiState.row
  simp [hdefined]

theorem follows_defCfaOffset (hdefined : machine.state.cfaDefined = true) (offset : Nat) :
    FollowsInstruction cie initial target machine (.defCfaOffset offset)
      (some { machine with state := { machine.state with cfaOffset := offset } }) := by
  refine follows_of_apply ?_ rfl
  unfold apply CfiMachine.machine CfiState.row
  simp [hdefined]

/-- An instruction whose operand is a number. -/
theorem decode_number {value : Word} (make : Nat → Instruction)
    (h : readUleb bytes stop cursor = .ok (value, next)) :
    (takeNumber (codeAt bytes stop cursor)).map (fun (value, code) => (make value, code)) =
      some (make value.toNat, codeAt bytes stop next) := by
  rw [takeNumber_of_readUleb h]
  rfl

/-- An instruction whose operands are two numbers. -/
theorem decode_numbers {left right : Word} {middle : Nat} (make : Nat → Nat → Instruction)
    (hleft : readUleb bytes stop cursor = .ok (left, middle))
    (hright : readUleb bytes stop middle = .ok (right, next)) :
    (do let (left, code) ← takeNumber (codeAt bytes stop cursor)
        let (right, code) ← takeNumber code
        return (make left right, code)) =
      some (make left.toNat right.toNat, codeAt bytes stop next) := by
  rw [takeNumber_of_readUleb hleft, Option.bind_eq_bind, Option.bind_some]
  dsimp only
  rw [takeNumber_of_readUleb hright]
  rfl

theorem executeExtended_follows {opcode : Nat}
    (h : executeExtended bytes stop cie initial target machine opcode cursor =
      .ok (result, next)) :
    ∃ instruction, decodeExtended opcode (codeAt bytes stop cursor) =
        some (instruction, codeAt bytes stop next) ∧
      FollowsInstruction cie initial target machine instruction result := by
  unfold executeExtended at h
  split at h
  · cases h
    exact ⟨.nop, rfl, follows_of_apply rfl rfl⟩
  · obtain ⟨units, htake, hfollows⟩ := follows_advanceField (by omega) h
    exact ⟨_, by rw [decodeExtended, htake]; rfl, hfollows⟩
  · obtain ⟨units, htake, hfollows⟩ := follows_advanceField (by omega) h
    exact ⟨_, by rw [decodeExtended, htake]; rfl, hfollows⟩
  · obtain ⟨units, htake, hfollows⟩ := follows_advanceField (by omega) h
    exact ⟨_, by rw [decodeExtended, htake]; rfl, hfollows⟩
  · obtain ⟨reg, middle, hreg, h⟩ := bind_ok h
    obtain ⟨factor, behind, hfactor, h⟩ := bind_ok h
    obtain ⟨offset, after, hoffset, hdone⟩ := bind_ok h
    obtain ⟨hscaled, rfl⟩ := lift_ok hoffset
    cases hdone
    obtain ⟨rfl, _⟩ := scaledOffset_eq_ok hscaled
    exact ⟨_, decode_numbers .offset hreg hfactor, follows_setRule rfl⟩
  · obtain ⟨reg, middle, hreg, h⟩ := bind_ok h
    obtain ⟨state, after, hstate, hdone⟩ := bind_ok h
    obtain ⟨hrestore, rfl⟩ := lift_ok hstate
    cases hdone
    exact ⟨_, decode_number .restore hreg, follows_restore hrestore⟩
  · obtain ⟨reg, middle, hreg, h⟩ := bind_ok h
    cases h
    exact ⟨_, decode_number .undefined hreg, follows_setRule rfl⟩
  · obtain ⟨reg, middle, hreg, h⟩ := bind_ok h
    cases h
    exact ⟨_, decode_number .sameValue hreg, follows_setRule rfl⟩
  · cases h
    exact ⟨.rememberState, rfl, follows_of_apply rfl rfl⟩
  · cases hstack : machine.stack with
    | nil =>
      rw [hstack] at h
      cases h
    | cons state stack =>
      rw [hstack] at h
      cases h
      exact ⟨.restoreState, rfl, follows_restoreState hstack⟩
  · obtain ⟨reg, middle, hreg, h⟩ := bind_ok h
    obtain ⟨offset, behind, hoffset, h⟩ := bind_ok h
    split at h
    · cases h
    · cases h
      exact ⟨_, decode_numbers .defCfa hreg hoffset, follows_of_apply rfl rfl⟩
  · split at h
    · cases h
    next hdefined =>
      obtain ⟨reg, middle, hreg, h⟩ := bind_ok h
      cases h
      exact ⟨_, decode_number .defCfaRegister hreg,
        follows_defCfaRegister (by simpa using hdefined) reg⟩
  · split at h
    · cases h
    next hdefined =>
      obtain ⟨offset, middle, hoffset, h⟩ := bind_ok h
      split at h
      · cases h
      · cases h
        exact ⟨_, decode_number .defCfaOffset hoffset,
          follows_defCfaOffset (by simpa using hdefined) offset.toNat⟩
  · obtain ⟨size, middle, hsize, h⟩ := bind_ok h
    cases h
    exact ⟨_, decode_number .argsSize hsize, follows_of_apply rfl rfl⟩
  · cases h

/-- The high bits of an opcode, as the source masks them. -/
theorem primary_eq (byte : Byte) :
    (byte.toNat &&& 0xc0 = 0x40 ↔ byte.toNat / 64 = 1) ∧
      (byte.toNat &&& 0xc0 = 0x80 ↔ byte.toNat / 64 = 2) ∧
      (byte.toNat &&& 0xc0 = 0xc0 ↔ byte.toNat / 64 = 3) ∧
      byte.toNat &&& 0x3f = byte.toNat % 64 := by
  have hall : ∀ byte : Byte, (byte.toNat &&& 0xc0 = 0x40 ↔ byte.toNat / 64 = 1) ∧
      (byte.toNat &&& 0xc0 = 0x80 ↔ byte.toNat / 64 = 2) ∧
      (byte.toNat &&& 0xc0 = 0xc0 ↔ byte.toNat / 64 = 3) ∧
      byte.toNat &&& 0x3f = byte.toNat % 64 := by decide
  exact hall byte

/-- A pass of the loop decodes an instruction and follows it. -/
theorem executeOpcode_follows
    (h : executeOpcode bytes stop cie initial target machine cursor = .ok (result, next)) :
    ∃ instruction, decode (codeAt bytes stop cursor) =
        some (instruction, codeAt bytes stop next) ∧
      FollowsInstruction cie initial target machine instruction result := by
  obtain ⟨opcode, middle, hopcode, h⟩ := bind_ok h
  obtain ⟨byte, hcode, rfl⟩ := eq_cons_of_takeField (takeField_of_readScalar hopcode)
  obtain ⟨hadvance, hoffset, hrestore, hoperand⟩ := primary_eq byte
  have hbyte := byte.isLt
  have hword : (BitVec.ofNat 64 (byte.toNat % 64)).toNat = byte.toNat % 64 := by
    rw [BitVec.toNat_ofNat]
    omega
  rw [hcode]
  dsimp only [decode]
  rw [hoperand] at h
  dsimp only at h
  split at h
  next hprimary =>
    obtain ⟨hadvances, rfl⟩ := lift_ok h
    rw [hadvance.mp hprimary]
    have hfollows : FollowsInstruction cie initial target machine
        (.advance (BitVec.ofNat 64 (byte.toNat % 64)).toNat) result := follows_advance hadvances
    rw [hword] at hfollows
    exact ⟨_, rfl, hfollows⟩
  next hprimary =>
    split at h
    next hprimary' =>
      obtain ⟨factor, behind, hfactor, h⟩ := bind_ok h
      obtain ⟨offset, after, hproduct, hdone⟩ := bind_ok h
      obtain ⟨hscaled, rfl⟩ := lift_ok hproduct
      cases hdone
      obtain ⟨rfl, _⟩ := scaledOffset_eq_ok hscaled
      rw [hoffset.mp hprimary']
      refine ⟨.offset (byte.toNat % 64) factor.toNat, ?_, follows_setRule ?_⟩
      · rw [takeNumber_of_readUleb hfactor]
        rfl
      · rw [hword]
        rfl
    next hprimary' =>
      split at h
      next hprimary'' =>
        obtain ⟨state, after, hstate, hdone⟩ := bind_ok h
        obtain ⟨hrestores, rfl⟩ := lift_ok hstate
        cases hdone
        rw [hrestore.mp hprimary'']
        have hfollows : FollowsInstruction cie initial target machine
            (.restore (BitVec.ofNat 64 (byte.toNat % 64)).toNat) (some { machine with state }) :=
          follows_restore hrestores
        rw [hword] at hfollows
        exact ⟨_, rfl, hfollows⟩
      next hprimary'' =>
        have hextended : byte.toNat / 64 = 0 := by
          have hone := mt hadvance.mpr hprimary
          have htwo := mt hoffset.mpr hprimary'
          have hthree := mt hrestore.mpr hprimary''
          omega
        rw [hextended, show byte.toNat % 64 = byte.toNat by omega]
        exact executeExtended_follows h

end Pass

/-! ## What a pass depends on -/

section Local

variable {α β : Type}

/-- A reader that depends on nothing but the bytes it takes. -/
def Local (p : List Byte → Nat → Parse α) : Prop :=
  ∀ ⦃bytes stop cursor a next⦄, p bytes stop cursor = .ok (a, next) →
    ∃ taken, taken <+: codeAt bytes stop cursor ∧ next = cursor + taken.length ∧
      ∀ ⦃bytes' stop' cursor'⦄, taken <+: codeAt bytes' stop' cursor' →
        p bytes' stop' cursor' = .ok (a, cursor' + taken.length)

theorem local_of_eq_ok {p : List Byte → Nat → Parse α} {a : α}
    (h : ∀ bytes stop cursor, p bytes stop cursor = .ok (a, cursor)) : Local p := by
  intro bytes stop cursor b next hread
  rw [h] at hread
  cases hread
  exact ⟨[], List.nil_prefix, rfl, fun _ _ _ _ => h _ _ _⟩

theorem local_pure (a : α) : Local fun _ _ => (pure a : Parse α) :=
  local_of_eq_ok fun _ _ _ => rfl

theorem local_throw (e : Exception) : Local fun _ _ => (throw e : Parse α) := by
  intro bytes stop cursor a next h
  cases h

theorem local_lift (x : Except Exception α) : Local fun _ _ => (liftM x : Parse α) := by
  cases x with
  | error e => exact local_throw e
  | ok a => exact local_of_eq_ok fun _ _ _ => rfl

theorem local_ite {c : Prop} [Decidable c] {p q : List Byte → Nat → Parse α} (hp : Local p)
    (hq : Local q) : Local fun bytes stop => if c then p bytes stop else q bytes stop := by
  split
  · exact hp
  · exact hq

theorem local_bind {p : List Byte → Nat → Parse α} {f : α → List Byte → Nat → Parse β}
    (hp : Local p) (hf : ∀ a, Local (f a)) :
    Local fun bytes stop => p bytes stop >>= fun a => f a bytes stop := by
  intro bytes stop cursor b next h
  obtain ⟨a, middle, hfirst, hrest⟩ := bind_ok h
  obtain ⟨taken, htaken, rfl, hagain⟩ := hp hfirst
  obtain ⟨taken', htaken', rfl, hagain'⟩ := hf a hrest
  obtain ⟨rest, hcode, hbehind⟩ := codeAt_of_prefix htaken
  rw [hbehind] at htaken'
  refine ⟨taken ++ taken', ?_, ?_, ?_⟩
  · rw [hcode]
    exact (List.prefix_append_right_inj taken).mpr htaken'
  · rw [List.length_append, Nat.add_assoc]
  · intro bytes' stop' cursor' hprefix
    have hfirst' := (List.prefix_append taken taken').trans hprefix
    obtain ⟨rest', hcode', hbehind'⟩ := codeAt_of_prefix hfirst'
    rw [hcode'] at hprefix
    have hsecond := (List.prefix_append_right_inj taken).mp hprefix
    rw [← hbehind'] at hsecond
    dsimp only
    rw [bind_of_read (hagain hfirst'), hagain' hsecond, List.length_append, Nat.add_assoc]

theorem readScalar_of_prefix {bytes taken : List Byte} {stop cursor : Nat} {what : String}
    (hpos : 0 < taken.length) (h : taken <+: codeAt bytes stop cursor) :
    readScalar bytes stop taken.length what cursor =
      .ok (littleEndian taken, cursor + taken.length) := by
  have hlength := h.length_le
  have htaken := List.prefix_iff_eq_take.mp h
  unfold codeAt at hlength htaken
  rw [List.length_drop, List.length_take] at hlength
  rw [List.drop_take, List.take_take, Nat.min_eq_left (by omega)] at htaken
  unfold readScalar readAt
  rw [if_neg (by omega), if_neg (by omega), ← htaken]
  rfl

theorem local_readScalar {size : Nat} (hpos : 0 < size) (what : String) :
    Local fun bytes stop => readScalar bytes stop size what := by
  intro bytes stop cursor value next h
  have hnext := readScalar_next h
  have htake := takeField_of_readScalar h
  unfold takeField at htake
  split at htake
  · cases htake
  next hlength =>
    obtain ⟨hvalue, _⟩ := Prod.mk.inj (Option.some.inj htake)
    have hsize : ((codeAt bytes stop cursor).take size).length = size := by
      rw [List.length_take]
      omega
    refine ⟨(codeAt bytes stop cursor).take size, List.take_prefix _ _, hsize.symm ▸ hnext, ?_⟩
    intro bytes' stop' cursor' hprefix
    have hread : readScalar bytes' stop' _ what cursor' = _ :=
      readScalar_of_prefix (hsize.symm ▸ hpos) hprefix
    rw [hsize] at hread ⊢
    rw [hvalue] at hread
    exact hread

theorem local_readUleb : Local readUleb := by
  intro bytes stop cursor value next h
  obtain ⟨digits, hdigits, hfits, rfl, rfl⟩ := (readUleb_eq_ok .ehFrame).mp h
  obtain ⟨hnumber, hlength, hprefix⟩ := firstNumber_eq_some.mp hdigits
  refine ⟨digits, hprefix, rfl, ?_⟩
  intro bytes' stop' cursor' hprefix'
  exact (readUleb_eq_ok .ehFrame).mpr
    ⟨digits, firstNumber_eq_some.mpr ⟨hnumber, hlength, hprefix'⟩, hfits, rfl, rfl⟩

variable {cie : Cie} {initial : Option CfiState} {target : Word} {machine : CfiMachine}

theorem local_executeExtended (opcode : Nat) : Local fun bytes stop =>
    executeExtended bytes stop cie initial target machine opcode := by
  unfold executeExtended
  split
  · exact local_pure _
  · exact local_bind (local_readScalar (by omega) _) fun _ => local_lift _
  · exact local_bind (local_readScalar (by omega) _) fun _ => local_lift _
  · exact local_bind (local_readScalar (by omega) _) fun _ => local_lift _
  · refine local_bind local_readUleb fun _ => local_bind local_readUleb fun _ => ?_
    exact local_bind (local_lift _) fun _ => local_pure _
  · refine local_bind local_readUleb fun _ => ?_
    exact local_bind (local_lift _) fun _ => local_pure _
  · exact local_bind local_readUleb fun _ => local_pure _
  · exact local_bind local_readUleb fun _ => local_pure _
  · exact local_pure _
  · split
    · exact local_throw _
    · exact local_pure _
  · refine local_bind local_readUleb fun _ => local_bind local_readUleb fun _ => ?_
    exact local_ite (local_throw _) (local_pure _)
  · refine local_ite (local_throw _) ?_
    exact local_bind local_readUleb fun _ => local_pure _
  · refine local_ite (local_throw _) (local_bind local_readUleb fun _ => ?_)
    exact local_ite (local_throw _) (local_pure _)
  · exact local_bind local_readUleb fun _ => local_pure _
  · exact local_throw _

theorem local_executeOpcode : Local fun bytes stop =>
    executeOpcode bytes stop cie initial target machine := by
  unfold executeOpcode
  refine local_bind (local_readScalar (by omega) _) fun opcode => ?_
  refine local_ite (local_lift _) (local_ite ?_ (local_ite ?_ ?_))
  · refine local_bind local_readUleb fun _ => ?_
    exact local_bind (local_lift _) fun _ => local_pure _
  · exact local_bind (local_lift _) fun _ => local_pure _
  · exact local_executeExtended opcode

end Local

/-! ## The row that `execute` returns -/

section Execute

variable {bytes : List Byte} {stop : Nat} {cie : Cie} {initial : Option CfiState} {target : Word}
  {machine : CfiMachine} {cursor : Nat} {state : CfiState}

/-- A run of `execute` is a run of the decoded instructions up to the row at the target; the advance
that ends it stays in the address space. -/
theorem execute_runs (hle : machine.location ≤ target)
    (h : execute bytes stop cie initial target machine cursor = .ok state) :
    ∃ instructions rest final, Decodes decode (codeAt bytes stop cursor) instructions rest ∧
      run cie.factors (initial.map CfiState.row) instructions machine.machine = some final ∧
      final.location ≤ target.toNat ∧ final.row = state.row ∧
      (rest = [] ∨ ∃ units after, decode rest = some (.advance units, after) ∧
        target.toNat < final.location + units * cie.factors.code ∧
        final.location + units * cie.factors.code < 2 ^ 64) := by
  induction hroom : stop - cursor using Nat.strongRecOn generalizing machine cursor with
  | ind room ih =>
    subst hroom
    by_cases hcursor : cursor < stop
    · cases hstep : executeOpcode bytes stop cie initial target machine cursor with
      | error e =>
        rw [execute_of_error hcursor hstep] at h
        cases h
      | ok result =>
        obtain ⟨result, next⟩ := result
        have hnext := executeOpcode_next hstep
        obtain ⟨instruction, hdecode, hfollows⟩ := executeOpcode_follows hstep
        cases result with
        | none =>
          rw [execute_of_none hcursor hstep] at h
          cases h
          obtain ⟨units, rfl, hbeyond, hspace⟩ := hfollows
          exact ⟨[], _, machine.machine, .done _, rfl, hle, rfl,
            .inr ⟨units, _, hdecode, hbeyond, hspace⟩⟩
        | some after =>
          rw [execute_of_some hcursor hstep] at h
          obtain ⟨happly, hreached⟩ := hfollows
          obtain ⟨instructions, rest, final, hdecodes, hran, hfinal⟩ :=
            ih (stop - next) (by omega) (hreached hle) h rfl
          refine ⟨instruction :: instructions, rest, final, .next hdecode hdecodes, ?_, hfinal⟩
          rw [run, happly]
          exact hran
    · rw [execute_of_end hcursor] at h
      cases h
      rw [codeAt_eq_nil hcursor]
      exact ⟨[], [], machine.machine, .done _, rfl, hle, rfl, .inl rfl⟩

theorem execute_inForce (hle : machine.location ≤ target)
    (h : execute bytes stop cie initial target machine cursor = .ok state) :
    InForce decode cie.factors (initial.map CfiState.row) machine.machine
      (codeAt bytes stop cursor) target.toNat state.row := by
  obtain ⟨instructions, rest, final, hdecodes, hran, hfinal, hrow, hover⟩ := execute_runs hle h
  refine ⟨instructions, rest, final, hdecodes, hran, hfinal, ?_, hrow⟩
  obtain hend | ⟨units, after, hadvance, hbeyond, _⟩ := hover
  · exact .inl hend
  · exact .inr ⟨units, after, hadvance, hbeyond⟩

/-- With the last address as the target, all instructions are run. -/
theorem execute_all
    (h : execute bytes stop cie initial (BitVec.allOnes 64) machine cursor = .ok state) :
    ∃ instructions final, Decodes decode (codeAt bytes stop cursor) instructions [] ∧
      run cie.factors (initial.map CfiState.row) instructions machine.machine = some final ∧
      final.row = state.row := by
  have hle : machine.location ≤ BitVec.allOnes 64 := by
    have := machine.location.isLt
    rw [BitVec.le_def, BitVec.toNat_allOnes]
    omega
  obtain ⟨instructions, rest, final, hdecodes, hran, _, hrow, hover⟩ := execute_runs hle h
  obtain rfl | ⟨units, after, _, hbeyond, hspace⟩ := hover
  · exact ⟨instructions, final, hdecodes, hran, hrow⟩
  · rw [BitVec.toNat_allOnes] at hbeyond
    omega

/-- What follows an advance past the target does not matter. -/
theorem execute_of_beyond {taken rest : List Byte} {instructions : List Instruction}
    {final : Machine} (hle : machine.location ≤ target)
    (hcode : codeAt bytes stop cursor = taken ++ rest)
    (hdecodes : Decodes decode (taken ++ rest) instructions rest)
    (hran : run cie.factors (initial.map CfiState.row) instructions machine.machine = some final)
    (hbeyond : target.toNat < final.location)
    (h : execute bytes stop cie initial target machine cursor = .ok state)
    {bytes' more : List Byte} {stop' cursor' : Nat}
    (hcode' : codeAt bytes' stop' cursor' = taken ++ more) :
    execute bytes' stop' cie initial target machine cursor' = .ok state := by
  induction instructions generalizing machine cursor cursor' taken with
  | nil =>
    cases hran
    exact absurd hbeyond (Nat.not_lt.mpr hle)
  | cons instruction instructions ih =>
    cases hdecodes with
    | @next _ middle _ _ _ hfirst hrest =>
      rw [← hcode] at hfirst
      have hcursor : cursor < stop := by
        by_contra hend
        rw [codeAt_eq_nil hend] at hfirst
        cases hfirst
      cases hstep : executeOpcode bytes stop cie initial target machine cursor with
      | error e =>
        rw [execute_of_error hcursor hstep] at h
        cases h
      | ok result =>
        obtain ⟨result, next⟩ := result
        obtain ⟨decoded, hdecoded, hfollows⟩ := executeOpcode_follows hstep
        rw [hfirst] at hdecoded
        cases hdecoded
        -- the pass takes a part of what is kept
        obtain ⟨front, hfront, hnext, hagain⟩ := local_executeOpcode hstep
        obtain ⟨_, hsplit, hbehind⟩ := codeAt_of_prefix hfront
        rw [← hnext] at hbehind
        subst hbehind
        obtain ⟨back, hback⟩ := decodes_suffix hrest
        rw [← hback] at hsplit hrest
        have htaken : taken = front ++ back := by
          rw [hcode, ← List.append_assoc] at hsplit
          exact List.append_cancel_right hsplit
        rw [htaken, List.append_assoc] at hcode'
        have hstep' := hagain (hcode' ▸ List.prefix_append _ _)
        have hcursor' : cursor' < stop' := by
          have := executeOpcode_next hstep
          by_contra hend
          rw [codeAt_eq_nil hend] at hcode'
          obtain ⟨rfl, _⟩ := List.append_eq_nil_iff.mp hcode'.symm
          simp at hnext
          omega
        cases result with
        | none =>
          rw [execute_of_none hcursor hstep] at h
          rw [execute_of_none hcursor' hstep']
          exact h
        | some after =>
          rw [execute_of_some hcursor hstep] at h
          rw [execute_of_some hcursor' hstep']
          obtain ⟨happly, hreached⟩ := hfollows
          rw [run, happly] at hran
          refine ih (hreached hle) hback.symm hrest hran h ?_
          obtain ⟨_, hsplit', hbehind'⟩ := codeAt_of_prefix (hcode' ▸ List.prefix_append front _)
          rw [hbehind']
          exact List.append_cancel_left (hsplit'.symm.trans hcode')

end Execute

/-! ## Frame tables -/

/-- `execute` for the initial instructions of a CIE -/
def Fde.runInitial (bytes : List Byte) (fde : Fde) : Except Exception CfiState :=
  execute bytes fde.cie.instructionsEnd fde.cie none (BitVec.allOnes 64)
    ⟨fde.initialLocation, {}, []⟩ fde.cie.instructionsBegin

/-- `execute` for the instructions of an FDE, up to the row of the target -/
def Fde.runTo (bytes : List Byte) (fde : Fde) (initial : CfiState) (target : Word) :
    Except Exception CfiState :=
  execute bytes fde.stop fde.cie (some initial) target ⟨fde.initialLocation, initial, []⟩ fde.cursor

/-- The start of a table: its first location and the initial row. -/
def Fde.start (fde : Fde) (initial : Row) : Machine where
  location := fde.initialLocation.toNat
  row := initial

/-- The row of a location in the table of an FDE. -/
def Fde.RowAt (bytes : List Byte) (fde : Fde) (initial : Row) (target : Word) (row : Row) : Prop :=
  InForce decode fde.cie.factors (some initial) (fde.start initial)
    (codeAt bytes fde.stop fde.cursor) target.toNat row

/-- What `execute` returns are rows of the frame tables of a section, with exact arithmetic. -/
structure FollowsFrameTables (bytes : List Byte) : Prop where
  /-- The initial row is what all instructions of the CIE build. -/
  initialRow : ∀ (fde : Fde) (initial : CfiState), fde.runInitial bytes = .ok initial →
    ∃ instructions final,
      Decodes decode (codeAt bytes fde.cie.instructionsEnd fde.cie.instructionsBegin)
        instructions [] ∧
      run fde.cie.factors none instructions (fde.start {}) = some final ∧
      final.row = initial.row
  row : ∀ (fde : Fde) (initial state : CfiState) (target : Word), fde.initialLocation ≤ target →
    fde.runTo bytes initial target = .ok state →
    fde.RowAt bytes initial.row target state.row ∧
      ∀ row, fde.RowAt bytes initial.row target row → row = state.row
  /-- What follows an advance past the target can be anything. -/
  beyond : ∀ (fde : Fde) (initial state : CfiState) (target : Word), fde.initialLocation ≤ target →
    fde.runTo bytes initial target = .ok state →
    ∀ (taken rest : List Byte) (instructions : List Instruction) (final : Machine),
      codeAt bytes fde.stop fde.cursor = taken ++ rest →
      Decodes decode (taken ++ rest) instructions rest →
      run fde.cie.factors (some initial.row) instructions (fde.start initial.row) = some final →
      target.toNat < final.location →
      ∀ (bytes' more : List Byte) (stop cursor : Nat),
        codeAt bytes' stop cursor = taken ++ more →
        Fde.runTo bytes' { fde with stop, cursor } initial target = .ok state
  /-- The frame of a target is evaluated from the row of the FDE that covers it. -/
  selected : ∀ (virtualAddress target : Word) (readMemory : CfiMemoryReader)
    (readRegister : Word → Except Exception Word) (frame : EvaluatedFrame),
    evaluateFrame bytes virtualAddress target readMemory readRegister ∅ 0 = .ok (some frame) →
    ∃ fde initial, findFde bytes virtualAddress target ∅ 0 = .ok (some fde) ∧
      fde.initialLocation ≤ target ∧ fde.runInitial bytes = .ok initial ∧
      fde.runTo bytes initial target = .ok frame.state
  scaled : ∀ (alignment offset : Int) (factor : Word), scaledOffset alignment factor = .ok offset →
    offset = alignment * factor.toNat ∧ int64Min ≤ offset ∧ offset ≤ int64Max
  added : ∀ (base sum : Word) (offset : Int) (what : String),
    addSigned base offset what = .ok sum → (sum.toNat : Int) = base.toNat + offset
  advanced : ∀ (cie : Cie) (target units : Word) (machine after : CfiMachine),
    advance cie target units machine = .ok (some after) →
    after.location.toNat = machine.location.toNat + units.toNat * cie.codeAlignment.toNat

theorem row_empty : CfiState.row {} = {} := by
  unfold CfiState.row
  congr 1
  funext reg
  split
  · rw [ExtTreeMap.getElem?_empty]
    rfl
  · rfl

theorem evaluateFrame_runs {bytes : List Byte} {virtualAddress target : Word}
    {readMemory : CfiMemoryReader} {readRegister : Word → Except Exception Word}
    {frame : EvaluatedFrame}
    (h : evaluateFrame bytes virtualAddress target readMemory readRegister ∅ 0 =
      .ok (some frame)) :
    ∃ fde initial, findFde bytes virtualAddress target ∅ 0 = .ok (some fde) ∧
      fde.initialLocation ≤ target ∧ fde.runInitial bytes = .ok initial ∧
      fde.runTo bytes initial target = .ok frame.state := by
  rw [evaluateFrame_eq_findFde] at h
  obtain ⟨found, hfound, h⟩ := Checks.bind_eq_ok.mp h
  cases found with
  | none => cases h
  | some fde =>
    obtain ⟨evaluated, hevaluated, hframe⟩ := Checks.bind_eq_ok.mp h
    cases hframe
    obtain ⟨initial, hinitial, h⟩ := Checks.bind_eq_ok.mp hevaluated
    obtain ⟨state, hstate, h⟩ := Checks.bind_eq_ok.mp h
    have hsame : frame.state = state := by
      dsimp only at h
      rw [Checks.throw_bind, Checks.ite_throw_eq_ok] at h
      obtain ⟨base, _, h⟩ := Checks.bind_eq_ok.mp h.2
      obtain ⟨cfa, _, h⟩ := Checks.bind_eq_ok.mp h
      split at h
      · obtain ⟨slot, _, h⟩ := Checks.bind_eq_ok.mp h
        obtain ⟨returnAddress, _, h⟩ := Checks.bind_eq_ok.mp h
        rw [Checks.throw_bind, Checks.ite_throw_eq_ok] at h
        cases h.2
        rfl
      · cases h
    exact ⟨fde, initial, hfound, (fdeSearch_of_findFde hfound).covers, hinitial, hsame ▸ hstate⟩

theorem followsFrameTables (bytes : List Byte) : FollowsFrameTables bytes where
  initialRow := by
    intro fde initial h
    have hall := execute_all h
    unfold CfiMachine.machine at hall
    rw [row_empty] at hall
    exact hall
  row := by
    intro fde initial state target hle h
    have hrow : fde.RowAt bytes initial.row target state.row := execute_inForce hle h
    exact ⟨hrow, fun _ hother => hother.unique rfl hrow⟩
  beyond := by
    intro fde initial state target hle h taken rest instructions final hcode hdecodes hran hbeyond
      bytes' more stop cursor hcode'
    exact execute_of_beyond hle hcode hdecodes hran hbeyond h hcode'
  selected := by
    intro virtualAddress target readMemory readRegister frame h
    exact evaluateFrame_runs h
  scaled := fun _ _ _ => scaledOffset_eq_ok
  added := fun _ _ _ _ => addSigned_exact
  advanced := by
    intro cie target units machine after h
    have hfollows : FollowsInstruction cie none target machine (.advance units.toNat)
        (some after) :=
      follows_advance h
    exact (congrArg Machine.location (Option.some.inj hfollows.1)).symm

end MiniDebugger
