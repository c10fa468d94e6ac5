import MiniDebugger.Dwarf.StackItems
import MiniDebugger.Checks
import MiniDebugger.Dwarf.ValueBytes

/-!
# Values on the DWARF stack

The evaluators of the three forms that a local kept in a register is described with:
`evaluate_breg5_stack_value`, `evaluate_breg3_xor_stack_value` and `evaluate_composite_stack_value`.

The first two add an offset to a register with the arithmetic of addresses, which refuses to wrap.
They compute what the expression means exactly when the sum does not wrap.
-/

namespace MiniDebugger

open Checks

def kDwOpLit8 : Byte := 0x38
def kDwOpLit16 : Byte := 0x40
def kDwOpLit24 : Byte := 0x48
def kDwOpBreg1 : Byte := 0x71
def kDwOpBreg2 : Byte := 0x72
def kDwOpBreg3 : Byte := 0x73
def kDwOpBreg4 : Byte := 0x74
def kDwOpBreg5 : Byte := 0x75
def kDwOpBreg8 : Byte := 0x78
def kDwOpBreg9 : Byte := 0x79

/-- `read_integer`, from the memory of the debugger -/
def readInteger (readMemory : CfiMemoryReader) (address : Word) (byteSize : Nat) :
    Except Exception Word := do
  let bytes ← readMemory address byteSize
  if bytes.length ≠ byteSize then throw (.runtimeError "short local-variable memory read")
  decodeInteger bytes 0 byteSize

/-- The test for one operation at the cursor, which is passed. -/
def requireOp (expression : List Byte) (op : Byte) (what : String) : Parse Unit := fun cursor =>
  if expression[cursor]? = some op then return ((), cursor + 1) else throw (.runtimeError what)

/-- The test for the end of an expression. -/
def requireEnd (expression : List Byte) (what : String) : Parse Unit := fun cursor =>
  if cursor ≠ expression.length then throw (.runtimeError what) else return ((), cursor)

/-! ## The composite form -/

/-- The lambda `register_value` -/
def compositeRegister (regs : UserRegs) (op : Byte) : Except Exception Word :=
  if op = kDwOpBreg1 then return regs.rdx
  else if op = kDwOpBreg2 then return regs.rcx
  else if op = kDwOpBreg4 then return regs.rsi
  else if op = kDwOpBreg5 then return regs.rdi
  else if op = kDwOpBreg8 then return regs.r8
  else if op = kDwOpBreg9 then return regs.r9
  else throw (.runtimeError "unsupported register in composite local-value expression")

/-- A binary operation, the last word pushed first. -/
def compositeBinary (op : Byte) (stack : List Word) : Except Exception (List Word) :=
  match stack with
  | rhs :: lhs :: stack =>
    if op = kDwOpShl then
      if 64 ≤ rhs.toNat then
        throw (.runtimeError "composite local-value shift count is out of range")
      else return (lhs <<< rhs.toNat) :: stack
    else return (lhs ^^^ rhs) :: stack
  | _ => throw (.runtimeError "composite local-value binary operation underflows stack")

/-- The body of the loop for every operation but the last. -/
def compositeOperation (expression : List Byte) (regs : UserRegs) (op : Byte)
    (stack : List Word) : Parse (List Word) := do
  if op = kDwOpBreg1 ∨ op = kDwOpBreg2 ∨ op = kDwOpBreg4 ∨ op = kDwOpBreg5 ∨ op = kDwOpBreg8 ∨
      op = kDwOpBreg9 then
    let offset ← readDwarfSleb expression expression.length "composite DW_OP_breg offset"
    if offset ≠ 0 then
      throw (.runtimeError
        "composite local-value expression only supports compiler-proven zero breg offsets")
    return (← compositeRegister regs op) :: stack
  if op = kDwOpConst1u then
    match expression[← get]? with
    | none =>
      throw (.runtimeError "truncated DW_OP_const1u in composite local-value expression")
    | some value =>
      set ((← get) + 1)
      return value.setWidth 64 :: stack
  if op = kDwOpLit8 ∨ op = kDwOpLit16 ∨ op = kDwOpLit24 then
    return BitVec.ofNat 64 (op.toNat - 0x30) :: stack
  if op = kDwOpShl ∨ op = kDwOpXor then compositeBinary op stack
  else throw (.runtimeError "unsupported operation in compiler-proven composite local value")

/-- The loop of `evaluate_composite_stack_value`. A round passes an operation at least. -/
def compositeRounds (expression : List Byte) (regs : UserRegs) : Nat → List Word → Parse Word
  | 0, _ =>
    throw (.runtimeError "composite local-value expression is missing DW_OP_stack_value")
  | room + 1, stack => fun cursor =>
    match expression[cursor]? with
    | none =>
      throw (.runtimeError "composite local-value expression is missing DW_OP_stack_value")
    | some op =>
      if op = kDwOpStackValue then
        match stack with
        | [value] =>
          if cursor + 1 ≠ expression.length then
            throw (.runtimeError
              "composite local-value stack_value requires one final stack result")
          else return (value, cursor + 1)
        | _ =>
          throw (.runtimeError
            "composite local-value stack_value requires one final stack result")
      else (compositeOperation expression regs op stack >>= compositeRounds expression regs room)
        (cursor + 1)

def evaluateCompositeStackValue (expression : List Byte) (regs : UserRegs) :
    Except Exception Word :=
  if expression.head? ≠ some kDwOpBreg8 then
    throw (.runtimeError "local value location is not the compiler-proven composite stack form")
  else do
    let result ← compositeRounds expression regs expression.length [] 0
    return result.1

/-! ## The forms of one register -/

def evaluateBreg3XorStackValue (expression : List Byte) (rbx : Word) : Except Exception Word :=
  if expression.head? ≠ some kDwOpBreg3 then
    throw (.runtimeError "local value location is not the compiler-proven DW_OP_breg3 XOR form")
  else do
    let form : Parse (Int × Word) := do
      let offset ← readDwarfSleb expression expression.length "DW_OP_breg3 offset"
      requireOp expression kDwOpConstu
        "DW_OP_breg3 XOR value requires the compiler-proven DW_OP_constu"
      let constant ← readDwarfUleb expression expression.length "DW_OP_constu value"
      requireOp expression kDwOpXor
        "DW_OP_breg3 XOR value requires the compiler-proven DW_OP_xor"
      requireOp expression kDwOpStackValue
        "DW_OP_breg3 XOR value requires the compiler-proven trailing DW_OP_stack_value"
      requireEnd expression "unsupported trailing operations after DW_OP_breg3 XOR value"
      return (offset, constant)
    let ((offset, constant), _) ← form 1
    let base ← addSigned rbx offset "DW_OP_breg3 XOR base"
    return base ^^^ constant

/-- The loop over `DW_OP_deref`, with `levels` dereferences left. -/
def dereferenceRounds (expression : List Byte) (readMemory : CfiMemoryReader) :
    Nat → Word → Parse Word
  | 0, value => fun cursor =>
    if expression[cursor]? = some kDwOpDeref then
      throw (.runtimeError
        "DW_OP_breg5 dereference chain exceeds the compiler-proven two-level bound")
    else return (value, cursor)
  | levels + 1, value => fun cursor =>
    if expression[cursor]? = some kDwOpDeref then do
      let value ← readInteger readMemory value 8
      dereferenceRounds expression readMemory levels value (cursor + 1)
    else return (value, cursor)

/-- The form that follows the register through memory. The loop runs at least once here, as the
operation after the offset is `DW_OP_deref`. -/
def breg5Dereference (expression : List Byte) (rdi : Word) (offset : Int)
    (readMemory : CfiMemoryReader) : Parse Word := do
  let address ← addSigned rdi offset "DW_OP_breg5 dereference address"
  let value ← dereferenceRounds expression readMemory 2 address
  requireOp expression kDwOpConstu
    "DW_OP_breg5 dereference value requires the compiler-proven DW_OP_constu"
  let constant ← readDwarfUleb expression expression.length "DW_OP_constu value"
  requireOp expression kDwOpXor
    "DW_OP_breg5 dereference value requires the compiler-proven DW_OP_xor"
  requireOp expression kDwOpStackValue
    "DW_OP_breg5 dereference value requires the compiler-proven trailing DW_OP_stack_value"
  requireEnd expression "unsupported trailing operations after DW_OP_breg5 dereference value"
  return value ^^^ constant

def evaluateBreg5StackValue (expression : List Byte) (rdi : Word)
    (readMemory : CfiMemoryReader) : Except Exception Word :=
  if expression.head? ≠ some kDwOpBreg5 then
    throw (.runtimeError "local value location is not the compiler-proven DW_OP_breg5 form")
  else do
    let form : Parse Word := do
      let offset ← readDwarfSleb expression expression.length "DW_OP_breg5 offset"
      match expression[← get]? with
      | none => throw (.runtimeError "DW_OP_breg5 value is missing a compiler-proven operation")
      | some next =>
        if next = kDwOpStackValue then
          set ((← get) + 1)
          requireEnd expression "unsupported trailing operations after DW_OP_breg5 value"
          addSigned rdi offset "DW_OP_breg5 value"
        else if next ≠ kDwOpDeref ∨ offset ≠ 0 then
          throw (.runtimeError
            "DW_OP_breg5 value is not the compiler-proven stack/dereference form")
        else breg5Dereference expression rdi offset readMemory
    let result ← form 1
    return result.1

/-! ## What the expressions mean -/

/-- The sum of a register and a signed offset is an address. -/
def InRange (register offset : Word) : Prop :=
  0 ≤ (register.toNat : Int) + offset.toInt ∧ (register.toNat : Int) + offset.toInt < 2 ^ 64

instance (register offset : Word) : Decidable (InRange register offset) := by
  unfold InRange
  exact inferInstance

theorem inRange_zero (register : Word) : InRange register 0 := by
  have := register.isLt
  have hzero : (0 : Word).toInt = 0 := rfl
  unfold InRange
  rw [hzero]
  omega

theorem addSigned_eq_ok {base offset value : Word} {what : String} :
    addSigned base offset.toInt what = .ok value ↔ InRange base offset ∧ base + offset = value := by
  have hbase := base.isLt
  have hofInt : BitVec.ofInt 64 offset.toInt = offset := BitVec.ofInt_toInt
  unfold addSigned InRange
  by_cases hsign : 0 ≤ offset.toInt
  · have hoffset : BitVec.ofNat 64 offset.toInt.toNat = offset := by
      rw [← BitVec.ofInt_natCast, Int.toNat_of_nonneg hsign, hofInt]
    rw [if_pos hsign, hoffset, ite_throw_eq_ok, pure_eq_ok]
    refine and_congr_left fun _ => ?_
    omega
  · have hoffset : base - BitVec.ofNat 64 (-offset.toInt).toNat = base + offset := by
      rw [← BitVec.ofInt_natCast, Int.toNat_of_nonneg (by omega), BitVec.ofInt_neg, hofInt,
        BitVec.sub_eq_add_neg, BitVec.neg_neg]
    rw [if_neg hsign, hoffset, ite_throw_eq_ok, pure_eq_ok]
    refine and_congr_left fun _ => ?_
    omega

def IsBreg5 (items : List StackItem) : Prop :=
  (∃ offset, items = [.breg 5 offset]) ∨
  ∃ offset count constant, offset.value = 0 ∧ (count = 1 ∨ count = 2) ∧
    items = .breg 5 offset :: List.replicate count .deref ++ [.constu constant, .xor]

def IsBreg3 (items : List StackItem) : Prop :=
  ∃ offset constant, items = [.breg 3 offset, .constu constant, .xor]

/-- An operation of the composite form. -/
def IsCompositeItem : StackItem → Prop
  | .breg register offset => register ∈ ([1, 2, 4, 5, 8, 9] : List (Fin 32)) ∧ offset.value = 0
  | .const1u _ => True
  | .lit value => value ∈ ([8, 16, 24] : List (Fin 32))
  | .shl => True
  | .xor => True
  | _ => False

def IsComposite (items : List StackItem) : Prop :=
  (∃ offset rest, items = .breg 8 offset :: rest) ∧ ∀ item ∈ items, IsCompositeItem item

/-! ## Following the evaluators -/

namespace Remaining

variable {expression rest : List Byte} {op : Byte} {cursor : Nat} {what : String}

theorem requireOp (h : Remaining expression expression.length cursor (op :: rest)) :
    requireOp expression op what cursor = .ok ((), cursor + 1) := by
  unfold MiniDebugger.requireOp
  rw [if_pos h.getElem?]
  rfl

theorem requireEnd (h : Remaining expression expression.length cursor []) :
    requireEnd expression what cursor = .ok ((), cursor) := by
  unfold MiniDebugger.requireEnd
  rw [if_neg (not_not.mpr h.stop)]
  rfl

end Remaining

section Forms

variable {readMemory : CfiMemoryReader} {offset : SignedOperand} {constant : UnsignedOperand}

theorem evaluateBreg3XorStackValue_eq (rbx : Word) :
    evaluateBreg3XorStackValue (stackExpression [.breg 3 offset, .constu constant, .xor]) rbx =
      (addSigned rbx offset.value.toInt "DW_OP_breg3 XOR base").map (· ^^^ constant.value) := by
  have hexpression : stackExpression [.breg 3 offset, .constu constant, .xor] =
      kDwOpBreg3 :: (offset.digits ++ (kDwOpConstu :: (constant.digits ++
        [kDwOpXor, kDwOpStackValue]))) := by
    simp [stackExpression, StackItem.bytes, kDwOpBreg3]
  rw [hexpression]
  have hstart := Remaining.start (kDwOpBreg3 :: (offset.digits ++ (kDwOpConstu ::
    (constant.digits ++ [kDwOpXor, kDwOpStackValue]))))
  have hoffset := hstart.tail
  have hconstu := hoffset.append
  have hconstant := hconstu.tail
  have hxor := hconstant.append
  have hvalue := hxor.tail
  have hend := hvalue.tail
  unfold evaluateBreg3XorStackValue
  rw [if_neg (by simp)]
  dsimp only
  rw [bind_of_read hoffset.readDwarfSleb, bind_of_read hconstu.requireOp,
    bind_of_read hconstant.readDwarfUleb, bind_of_read hxor.requireOp,
    bind_of_read hvalue.requireOp, bind_of_read hend.requireEnd]
  change (do
      let base ← addSigned rbx offset.value.toInt "DW_OP_breg3 XOR base"
      pure (base ^^^ constant.value)) = _
  cases addSigned rbx offset.value.toInt "DW_OP_breg3 XOR base" with
  | ok base => rfl
  | error e => rfl

theorem evaluateBreg5StackValue_eq (rdi : Word) :
    evaluateBreg5StackValue (stackExpression [.breg 5 offset]) rdi readMemory =
      addSigned rdi offset.value.toInt "DW_OP_breg5 value" := by
  have hexpression : stackExpression [.breg 5 offset] =
      kDwOpBreg5 :: (offset.digits ++ [kDwOpStackValue]) := by
    simp [stackExpression, StackItem.bytes, kDwOpBreg5]
  rw [hexpression]
  have hstart := Remaining.start (kDwOpBreg5 :: (offset.digits ++ [kDwOpStackValue]))
  have hoffset := hstart.tail
  have hvalue := hoffset.append
  have hend := hvalue.tail
  unfold evaluateBreg5StackValue
  rw [if_neg (by simp)]
  dsimp only
  rw [bind_of_read hoffset.readDwarfSleb, get_bind, hvalue.getElem?]
  dsimp only
  rw [if_pos rfl, get_bind, set_bind, bind_of_read hend.requireEnd]
  cases addSigned rdi offset.value.toInt "DW_OP_breg5 value" with
  | ok value => rfl
  | error e => rfl

theorem readInteger_toOption (address : Word) :
    (readInteger readMemory address 8).toOption = storedWord readMemory address := by
  unfold readInteger storedWord
  cases readMemory address 8 with
  | error e => rfl
  | ok bytes =>
    by_cases hlength : bytes.length = 8
    · simp [bind, Except.bind, hlength, decodeInteger, pure, Except.pure, Except.toOption,
        List.take_of_length_le (Nat.le_of_eq hlength)]
    · simp [bind, Except.bind, hlength, throw, throwThe, MonadExceptOf.throw, Except.toOption]

/-- The words that some dereferences lead through. -/
def dereferences (readMemory : CfiMemoryReader) : Nat → Word → Except Exception Word
  | 0, value => .ok value
  | count + 1, value => do dereferences readMemory count (← readInteger readMemory value 8)

/-- The loop over `DW_OP_deref` follows the dereferences of an expression. -/
theorem dereferenceRounds_eq {expression rest : List Byte} {op : Byte} {count cursor : Nat}
    (levels : Nat) (value : Word) (hcount : count ≤ levels) (hop : op ≠ kDwOpDeref)
    (h : Remaining expression expression.length cursor (List.replicate count kDwOpDeref ++ op :: rest)) :
    dereferenceRounds expression readMemory levels value cursor =
      (dereferences readMemory count value).map (·, cursor + count) := by
  induction count generalizing levels value cursor with
  | zero =>
    have hstop : expression[cursor]? ≠ some kDwOpDeref := by
      rw [h.getElem?]
      simpa using hop
    cases levels with
    | zero =>
      unfold dereferenceRounds
      rw [if_neg hstop]
      rfl
    | succ levels =>
      unfold dereferenceRounds
      rw [if_neg hstop]
      rfl
  | succ count ih =>
    cases levels with
    | zero => omega
    | succ levels =>
      unfold dereferenceRounds dereferences
      rw [if_pos h.getElem?]
      cases readInteger readMemory value 8 with
      | error e => rfl
      | ok word =>
        have hrest := ih levels word (by omega) h.tail
        rw [show cursor + 1 + count = cursor + (count + 1) by omega] at hrest
        exact hrest

theorem evaluateBreg5StackValue_deref {count : Nat} (rdi : Word) (hzero : offset.value = 0)
    (hcount : count = 1 ∨ count = 2) :
    evaluateBreg5StackValue (stackExpression
        (.breg 5 offset :: List.replicate count .deref ++ [.constu constant, .xor])) rdi readMemory =
      (dereferences readMemory count rdi).map (· ^^^ constant.value) := by
  have hexpression : stackExpression
      (.breg 5 offset :: List.replicate count .deref ++ [.constu constant, .xor]) =
      kDwOpBreg5 :: (offset.digits ++ (List.replicate count kDwOpDeref ++ (kDwOpConstu ::
        (constant.digits ++ [kDwOpXor, kDwOpStackValue])))) := by
    simp [stackExpression, StackItem.bytes, kDwOpBreg5, List.flatMap_replicate,
      List.flatten_replicate_singleton]
  rw [hexpression]
  have hstart := Remaining.start (kDwOpBreg5 :: (offset.digits ++ (List.replicate count kDwOpDeref ++
    (kDwOpConstu :: (constant.digits ++ [kDwOpXor, kDwOpStackValue])))))
  have hoffset := hstart.tail
  have hderef := hoffset.append
  have hconstu := hderef.append
  have hconstant := hconstu.tail
  have hxor := hconstant.append
  have hvalue := hxor.tail
  have hend := hvalue.tail
  rw [List.length_replicate] at hconstu hconstant hxor hvalue hend
  have hnext : (kDwOpBreg5 :: (offset.digits ++ (List.replicate count kDwOpDeref ++
      (kDwOpConstu :: (constant.digits ++ [kDwOpXor, kDwOpStackValue])))))[
        0 + 1 + offset.digits.length]? = some kDwOpDeref := by
    obtain rfl | rfl := hcount
    · exact hderef.getElem?
    · exact hderef.getElem?
  have haddress : addSigned rdi offset.value.toInt "DW_OP_breg5 dereference address" = .ok rdi := by
    rw [hzero, addSigned_eq_ok]
    exact ⟨inRange_zero rdi, BitVec.add_zero rdi⟩
  unfold evaluateBreg5StackValue
  rw [if_neg (by simp)]
  dsimp only
  rw [bind_of_read hoffset.readDwarfSleb, get_bind, hnext]
  dsimp only
  rw [if_neg (by decide), if_neg (by simp [hzero])]
  unfold breg5Dereference
  rw [haddress, lift_bind, ok_bind]
  have hloop : dereferenceRounds _ readMemory 2 rdi _ = _ :=
    dereferenceRounds_eq 2 rdi (by omega) (by decide) hderef
  cases hword : dereferences readMemory count rdi with
  | error e =>
    rw [hword] at hloop
    rw [bind_of_throw hloop]
    rfl
  | ok word =>
    rw [hword] at hloop
    rw [bind_of_read hloop, bind_of_read hconstu.requireOp, bind_of_read hconstant.readDwarfUleb,
      bind_of_read hxor.requireOp, bind_of_read hvalue.requireOp, bind_of_read hend.requireEnd]
    rfl

end Forms

/-! ## The composite loop -/

/-- The errors of a stack that does not hold what an operation takes, and those of memory. -/
inductive StackError (readMemory : CfiMemoryReader) : Exception → Prop
  | short : StackError readMemory
      (.runtimeError "composite local-value binary operation underflows stack")
  | shift : StackError readMemory
      (.runtimeError "composite local-value shift count is out of range")
  | result : StackError readMemory
      (.runtimeError "composite local-value stack_value requires one final stack result")
  | memory {address : Word} {e : Exception} (h : readInteger readMemory address 8 = .error e) :
      StackError readMemory e

/-- A computation returns the meaning of an expression, or fails where it has none. -/
def Computes (readMemory : CfiMemoryReader) {α : Type} (x : Except Exception α)
    (meaning : Option α) : Prop :=
  match meaning with
  | some a => x = .ok a
  | none => ∃ e, x = .error e ∧ StackError readMemory e

theorem Computes.map {readMemory : CfiMemoryReader} {α β : Type} {x : Except Exception α}
    {meaning : Option α} (h : Computes readMemory x meaning) (f : α → β) :
    Computes readMemory (x.map f) (meaning.map f) := by
  cases meaning with
  | some a =>
    obtain rfl : x = .ok a := h
    rfl
  | none =>
    obtain ⟨e, rfl, he⟩ := h
    exact ⟨e, rfl, he⟩

theorem Computes.bind {readMemory : CfiMemoryReader} {α β : Type} {x : Except Exception α}
    {meaning : Option α} {f : α → Except Exception β} {g : α → Option β}
    (h : Computes readMemory x meaning)
    (hf : ∀ a, meaning = some a → Computes readMemory (f a) (g a)) :
    Computes readMemory (x >>= f) (meaning.bind g) := by
  cases meaning with
  | some a =>
    obtain rfl : x = .ok a := h
    exact hf a rfl
  | none =>
    obtain ⟨e, rfl, he⟩ := h
    exact ⟨e, rfl, he⟩

section Composite

variable {regs : UserRegs} {readMemory : CfiMemoryReader} {expression rest : List Byte}
  {item : StackItem} {cursor : Nat}

theorem compositeBinary_shl (stack : List Word) :
    Computes readMemory (compositeBinary kDwOpShl stack)
      (StackItem.shl.step regs readMemory stack) := by
  match stack with
  | [] => exact ⟨_, rfl, .short⟩
  | [_] => exact ⟨_, rfl, .short⟩
  | rhs :: lhs :: stack =>
    unfold StackItem.step compositeBinary
    by_cases hshift : rhs.toNat < 64
    · simp only [if_pos hshift, if_neg (Nat.not_le.mpr hshift)]
      rfl
    · simp only [if_neg hshift, if_pos (Nat.not_lt.mp hshift)]
      exact ⟨_, rfl, .shift⟩

theorem compositeBinary_xor (stack : List Word) :
    Computes readMemory (compositeBinary kDwOpXor stack)
      (StackItem.xor.step regs readMemory stack) := by
  match stack with
  | [] => exact ⟨_, rfl, .short⟩
  | [_] => exact ⟨_, rfl, .short⟩
  | rhs :: lhs :: stack => rfl

theorem compositeOperation_breg {op : Byte} {value : Word} {next : Nat} (stack : List Word)
    (hop : op = kDwOpBreg1 ∨ op = kDwOpBreg2 ∨ op = kDwOpBreg4 ∨ op = kDwOpBreg5 ∨
      op = kDwOpBreg8 ∨ op = kDwOpBreg9)
    (hoffset : readDwarfSleb expression expression.length "composite DW_OP_breg offset" cursor =
      .ok (0, next)) (hvalue : compositeRegister regs op = .ok value) :
    compositeOperation expression regs op stack cursor = .ok (value :: stack, next) := by
  unfold compositeOperation
  rw [if_pos hop, bind_of_read hoffset, if_neg (by simp), hvalue]
  rfl

theorem compositeOperation_binary {op : Byte} (stack : List Word)
    (hop : op = kDwOpShl ∨ op = kDwOpXor) :
    compositeOperation expression regs op stack cursor =
      (compositeBinary op stack).map (·, cursor) := by
  obtain rfl | rfl := hop
  · rfl
  · rfl

/-- An operation of the composite form does what it means, and passes its bytes. -/
theorem compositeOperation_computes (hitem : IsCompositeItem item) (stack : List Word)
    (h : Remaining expression expression.length cursor (item.bytes ++ rest)) :
    ∃ op, expression[cursor]? = some op ∧ op ≠ kDwOpStackValue ∧
      Computes readMemory (compositeOperation expression regs op stack (cursor + 1))
        ((item.step regs readMemory stack).map (·, cursor + item.bytes.length)) := by
  cases item with
  | breg register offset =>
    obtain ⟨hregister, hzero⟩ := hitem
    have hoffset : readDwarfSleb expression expression.length "composite DW_OP_breg offset"
        (cursor + 1) = _ := h.tail.readDwarfSleb
    rw [hzero, Nat.add_assoc, Nat.add_comm 1] at hoffset
    simp only [List.mem_cons, List.not_mem_nil, or_false] at hregister
    refine ⟨_, h.getElem?, ?_, ?_⟩
    · obtain rfl | rfl | rfl | rfl | rfl | rfl := hregister <;> decide
    · simp only [StackItem.step, hzero]
      obtain rfl | rfl | rfl | rfl | rfl | rfl := hregister <;>
        exact compositeOperation_breg stack (by decide) hoffset (by simp; rfl)
  | const1u value =>
    refine ⟨_, h.getElem?, by decide, ?_⟩
    have hvalue := h.tail.getElem?
    unfold compositeOperation
    rw [if_neg (by decide), if_pos rfl]
    simp only [StackItem.step]
    rw [get_bind, hvalue]
    rfl
  | constu value => exact hitem.elim
  | lit value =>
    have hvalue : value ∈ ([8, 16, 24] : List (Fin 32)) := hitem
    simp only [List.mem_cons, List.not_mem_nil, or_false] at hvalue
    obtain rfl | rfl | rfl := hvalue <;> exact ⟨_, h.getElem?, by decide, rfl⟩
  | deref => exact hitem.elim
  | shl =>
    refine ⟨_, h.getElem?, by decide, ?_⟩
    rw [compositeOperation_binary stack (.inl rfl)]
    exact (compositeBinary_shl stack).map _
  | xor =>
    refine ⟨_, h.getElem?, by decide, ?_⟩
    rw [compositeOperation_binary stack (.inr rfl)]
    exact (compositeBinary_xor stack).map _

/-- The loop computes what the rest of the expression means for the stack so far. -/
theorem compositeRounds_computes {items : List StackItem} {room : Nat} (stack : List Word)
    (hitems : ∀ item ∈ items, IsCompositeItem item) (hroom : items.length < room)
    (h : Remaining expression expression.length cursor (stackExpression items)) :
    Computes readMemory (compositeRounds expression regs room stack cursor)
      (((runItems regs readMemory items stack).bind onlyWord).map (·, expression.length)) := by
  induction items generalizing room stack cursor with
  | nil =>
    cases room with
    | zero => omega
    | succ room =>
      have hlast := h.tail.stop
      unfold compositeRounds
      rw [h.getElem?]
      simp only [if_true, runItems_nil, Option.bind_some]
      match stack with
      | [value] =>
        simp only [hlast, ne_eq, not_true_eq_false, if_false]
        rfl
      | [] => exact ⟨_, rfl, .result⟩
      | _ :: _ :: _ => exact ⟨_, rfl, .result⟩
  | cons item items ih =>
    cases room with
    | zero => omega
    | succ room =>
      rw [stackExpression_cons] at h
      obtain ⟨op, hop, hnot, hstep⟩ := compositeOperation_computes (hitems item (by simp)) stack h
      unfold compositeRounds
      rw [hop]
      simp only [if_neg hnot]
      -- the rest of the loop starts from what the operation leaves
      have hrest : ∀ result : List Word × Nat,
          (item.step regs readMemory stack).map (·, cursor + item.bytes.length) = some result →
          Computes readMemory (compositeRounds expression regs room result.1 result.2)
            (((runItems regs readMemory items result.1).bind onlyWord).map
              (·, expression.length)) := by
        intro result hresult
        obtain ⟨next, _, rfl⟩ := Option.map_eq_some_iff.mp hresult
        exact ih next (fun other hother => hitems other (by simp [hother]))
          (by simpa using hroom) h.append
      have hmeaning := hstep.bind hrest
      rw [runItems_cons]
      cases hitem : item.step regs readMemory stack with
      | none =>
        rw [hitem] at hmeaning
        exact hmeaning
      | some next =>
        rw [hitem] at hmeaning
        exact hmeaning

theorem evaluateCompositeStackValue_computes {items : List StackItem} (h : IsComposite items) :
    Computes readMemory (evaluateCompositeStackValue (stackExpression items) regs)
      (stackValue regs readMemory items) := by
  obtain ⟨⟨offset, others, hfirst⟩, hitems⟩ := h
  have hhead : (stackExpression items).head? = some kDwOpBreg8 := by
    rw [hfirst]
    rfl
  have hrounds : Computes readMemory (compositeRounds _ regs _ [] 0) _ :=
    compositeRounds_computes [] hitems (length_lt_stackExpression items) (Remaining.start _)
  unfold evaluateCompositeStackValue stackValue
  rw [if_neg (not_not.mpr hhead)]
  have hresult := hrounds.map Prod.fst
  rw [Option.map_map, show (Prod.fst ∘ fun value : Word => (value, (stackExpression items).length))
    = id from rfl, Option.map_id] at hresult
  have hbind : (do
      let result ← compositeRounds (stackExpression items) regs (stackExpression items).length [] 0
      return result.1) = (compositeRounds (stackExpression items) regs
        (stackExpression items).length [] 0).map Prod.fst := by
    cases compositeRounds (stackExpression items) regs (stackExpression items).length [] 0 <;> rfl
  rw [hbind]
  exact hresult

end Composite

/-! ## The evaluators compute what the expressions mean -/

section Meaning

variable {regs : UserRegs} {readMemory : CfiMemoryReader}

theorem readInteger_computes (address : Word) :
    Computes readMemory (readInteger readMemory address 8) (storedWord readMemory address) := by
  rw [← readInteger_toOption]
  cases hread : readInteger readMemory address 8 with
  | ok value => rfl
  | error e => exact ⟨e, rfl, .memory hread⟩

/-- Dereferences do what they mean to the top of the stack. -/
theorem dereferences_computes (count : Nat) (value : Word) (items : List StackItem)
    {f : Word → Except Exception Word}
    (hitems : ∀ word, Computes readMemory (f word)
      ((runItems regs readMemory items [word]).bind onlyWord)) :
    Computes readMemory (dereferences readMemory count value >>= f)
      ((runItems regs readMemory (List.replicate count .deref ++ items) [value]).bind
        onlyWord) := by
  induction count generalizing value with
  | zero => exact hitems value
  | succ count ih =>
    have hread : Computes readMemory _ _ := readInteger_computes value
    have hword := hread.bind fun word _ => ih word
    rw [List.replicate_succ, List.cons_append, runItems_cons]
    have hassoc : (dereferences readMemory (count + 1) value >>= f) =
        readInteger readMemory value 8 >>= fun word => dereferences readMemory count word >>= f := by
      rw [dereferences]
      cases readInteger readMemory value 8 <;> rfl
    have hstep : StackItem.deref.step regs readMemory [value] =
        (storedWord readMemory value).map (· :: []) := rfl
    rw [hassoc, hstep]
    cases hstored : storedWord readMemory value with
    | none =>
      rw [hstored] at hword
      exact hword
    | some word =>
      rw [hstored] at hword
      exact hword

/-- The evaluators compute what an expression of their forms means. -/
structure EvaluatesForms (regs : UserRegs) (readMemory : CfiMemoryReader)
    (expression : List Byte) : Prop where
  breg5 : ∀ items, IsBreg5 items → stackExpression items = expression →
    Computes readMemory (evaluateBreg5StackValue expression regs.rdi readMemory)
      (stackValue regs readMemory items)
  breg3 : ∀ items, IsBreg3 items → stackExpression items = expression →
    Computes readMemory (evaluateBreg3XorStackValue expression regs.rbx)
      (stackValue regs readMemory items)
  composite : ∀ items, IsComposite items → stackExpression items = expression →
    Computes readMemory (evaluateCompositeStackValue expression regs)
      (stackValue regs readMemory items)

/-- No register of an expression wraps when its offset is added. -/
def NoneWraps (regs : UserRegs) (items : List StackItem) : Prop :=
  ∀ (register : Fin 32) (offset : SignedOperand) (value : Word), .breg register offset ∈ items →
    regs.dwarfRegister register = some value → InRange value offset.value

/-- The errors of `add_signed`. -/
def IsWrapError (what : String) (e : Exception) : Prop :=
  e = .runtimeError (what ++ " overflows address space") ∨
  e = .runtimeError (what ++ " underflows address space")

/-- The evaluators compute what an expression of their forms means, and refuse a sum that wraps. -/
structure ChecksSums (regs : UserRegs) (readMemory : CfiMemoryReader)
    (expression : List Byte) : Prop where
  breg5 : ∀ items, IsBreg5 items → stackExpression items = expression →
    (NoneWraps regs items →
      Computes readMemory (evaluateBreg5StackValue expression regs.rdi readMemory)
        (stackValue regs readMemory items)) ∧
    (¬NoneWraps regs items →
      ∃ e, evaluateBreg5StackValue expression regs.rdi readMemory = .error e ∧
        IsWrapError "DW_OP_breg5 value" e)
  breg3 : ∀ items, IsBreg3 items → stackExpression items = expression →
    (NoneWraps regs items →
      Computes readMemory (evaluateBreg3XorStackValue expression regs.rbx)
        (stackValue regs readMemory items)) ∧
    (¬NoneWraps regs items →
      ∃ e, evaluateBreg3XorStackValue expression regs.rbx = .error e ∧
        IsWrapError "DW_OP_breg3 XOR base" e)
  composite : ∀ items, IsComposite items → stackExpression items = expression →
    Computes readMemory (evaluateCompositeStackValue expression regs)
      (stackValue regs readMemory items)

theorem addSigned_wraps {base offset : Word} {what : String} (h : ¬InRange base offset) :
    ∃ e, addSigned base offset.toInt what = .error e ∧ IsWrapError what e := by
  cases hsum : addSigned base offset.toInt what with
  | ok value => exact absurd (addSigned_eq_ok.mp hsum).1 h
  | error e =>
    refine ⟨e, rfl, ?_⟩
    unfold addSigned at hsum
    split at hsum
    · split at hsum
      · cases hsum
        exact .inl rfl
      · cases hsum
    · split at hsum
      · cases hsum
        exact .inr rfl
      · cases hsum

theorem noneWraps_breg5 (offset : SignedOperand) :
    NoneWraps regs [.breg 5 offset] ↔ InRange regs.rdi offset.value := by
  refine ⟨?_, ?_⟩
  · intro h
    exact h 5 offset regs.rdi (by simp) rfl
  · intro h register other value hmem hvalue
    cases List.mem_singleton.mp hmem
    cases hvalue
    exact h

theorem noneWraps_breg3 (offset : SignedOperand) (constant : UnsignedOperand) :
    NoneWraps regs [.breg 3 offset, .constu constant, .xor] ↔ InRange regs.rbx offset.value := by
  refine ⟨?_, ?_⟩
  · intro h
    exact h 3 offset regs.rbx (by simp) rfl
  · intro h register other value hmem hvalue
    obtain hfirst | hothers := List.mem_cons.mp hmem
    · cases hfirst
      cases hvalue
      exact h
    · simp at hothers

/-- Nothing wraps where the offset is zero. -/
theorem noneWraps_dereference {offset : SignedOperand} (count : Nat) (constant : UnsignedOperand)
    (hzero : offset.value = 0) :
    NoneWraps regs (.breg 5 offset :: List.replicate count .deref ++ [.constu constant, .xor]) := by
  intro register other value hmem _
  have hother : other = offset := by
    simp only [List.cons_append, List.mem_cons, List.mem_append, List.mem_replicate,
      StackItem.breg.injEq, reduceCtorEq, and_false, or_false, List.not_mem_nil] at hmem
    exact hmem.2
  rw [hother, hzero]
  exact inRange_zero value

theorem stackValue_dereference {offset : SignedOperand} (count : Nat) (constant : UnsignedOperand)
    (hzero : offset.value = 0) :
    stackValue regs readMemory
        (.breg 5 offset :: List.replicate count .deref ++ [.constu constant, .xor]) =
      (runItems regs readMemory (List.replicate count .deref ++ [.constu constant, .xor])
        [regs.rdi]).bind onlyWord := by
  have hstep : (StackItem.breg 5 offset).step regs readMemory [] =
      some [regs.rdi + offset.value] := rfl
  have hsum : regs.rdi + (0 : Word) = regs.rdi := BitVec.add_zero _
  unfold stackValue
  rw [List.cons_append, runItems_cons, hstep, hzero, hsum]
  rfl

theorem evaluateBreg5StackValue_computes {offset : SignedOperand} {count : Nat}
    {constant : UnsignedOperand} (hzero : offset.value = 0) (hcount : count = 1 ∨ count = 2) :
    Computes readMemory (evaluateBreg5StackValue (stackExpression
        (.breg 5 offset :: List.replicate count .deref ++ [.constu constant, .xor])) regs.rdi
        readMemory)
      (stackValue regs readMemory
        (.breg 5 offset :: List.replicate count .deref ++ [.constu constant, .xor])) := by
  have hmeaning : Computes readMemory (dereferences readMemory count regs.rdi >>=
      fun word => .ok (word ^^^ constant.value))
      ((runItems regs readMemory (List.replicate count .deref ++ [.constu constant, .xor])
        [regs.rdi]).bind onlyWord) :=
    dereferences_computes count regs.rdi [.constu constant, .xor] fun word => rfl
  have hbind : (dereferences readMemory count regs.rdi).map (· ^^^ constant.value) =
      dereferences readMemory count regs.rdi >>= fun word => .ok (word ^^^ constant.value) := by
    cases dereferences readMemory count regs.rdi <;> rfl
  rw [evaluateBreg5StackValue_deref regs.rdi hzero hcount, hbind, stackValue_dereference _ _ hzero]
  exact hmeaning

/-- Every evaluator computes what an expression of its form means, with a checked addition. -/
theorem evaluators_check_sums (regs : UserRegs) (readMemory : CfiMemoryReader)
    (expression : List Byte) : ChecksSums regs readMemory expression := by
  refine ⟨?_, ?_, ?_⟩
  · intro items hitems hexpression
    obtain ⟨offset, rfl⟩ | ⟨offset, count, constant, hzero, hcount, rfl⟩ := hitems
    · rw [← hexpression, evaluateBreg5StackValue_eq, noneWraps_breg5]
      refine ⟨?_, addSigned_wraps⟩
      intro hrange
      exact addSigned_eq_ok.mpr ⟨hrange, rfl⟩
    · rw [← hexpression]
      refine ⟨fun _ => evaluateBreg5StackValue_computes hzero hcount, ?_⟩
      intro hwraps
      exact absurd (noneWraps_dereference count constant hzero) hwraps
  · intro items hitems hexpression
    obtain ⟨offset, constant, rfl⟩ := hitems
    rw [← hexpression, evaluateBreg3XorStackValue_eq, noneWraps_breg3]
    refine ⟨?_, ?_⟩
    · intro hrange
      rw [addSigned_eq_ok.mpr ⟨hrange, rfl⟩]
      rfl
    · intro hwraps
      obtain ⟨e, he, hwrap⟩ : ∃ e, addSigned regs.rbx _ "DW_OP_breg3 XOR base" = .error e ∧ _ :=
        addSigned_wraps hwraps
      rw [he]
      exact ⟨e, rfl, hwrap⟩
  · intro items hitems hexpression
    rw [← hexpression]
    exact evaluateCompositeStackValue_computes hitems

end Meaning

/-- The operand `-1`. -/
def minusOne : SignedOperand := ⟨[0x7f], (by decide : (0x7f : Byte).toNat < 128), by decide⟩

/-- A register that holds zero, and the offset `-1`: `evaluate_breg5_stack_value` throws "DW_OP_breg5
value underflows address space". -/
theorem not_evaluatesForms_minusOne :
    ¬EvaluatesForms {} (fun _ _ => .ok []) [kDwOpBreg5, 0x7f, kDwOpStackValue] := by
  intro h
  have hvalue := h.breg5 [.breg 5 minusOne] (.inl ⟨minusOne, rfl⟩) rfl
  have hthrows : evaluateBreg5StackValue [kDwOpBreg5, 0x7f, kDwOpStackValue] 0 (fun _ _ => .ok []) =
      .error (.runtimeError "DW_OP_breg5 value underflows address space") := rfl
  have hmeaning : stackValue {} (fun _ _ => .ok []) [.breg 5 minusOne] =
      some (0 + minusOne.value) := rfl
  rw [hmeaning] at hvalue
  cases hthrows.symm.trans hvalue

end MiniDebugger
