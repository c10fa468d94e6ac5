import MiniDebugger.Dwarf.Operands
import MiniDebugger.Dwarf.EhFrame

/-!
# DWARF stack expressions

The operations of the expressions that the compiler writes for a value kept in a register, their
encodings, and what they mean: `StackItem.step` computes with 64-bit words, so that a register plus
an offset wraps.
-/

namespace MiniDebugger

def kDwOpDeref : Byte := 0x06
def kDwOpConst1u : Byte := 0x08
def kDwOpConstu : Byte := 0x10
def kDwOpShl : Byte := 0x24
def kDwOpXor : Byte := 0x27
def kDwOpStackValue : Byte := 0x9f

inductive StackItem where
  | breg (register : Fin 32) (offset : SignedOperand)
  | const1u (value : Byte)
  | constu (value : UnsignedOperand)
  | lit (value : Fin 32)
  | deref
  | shl
  | xor

def StackItem.bytes : StackItem → List Byte
  | .breg register offset => BitVec.ofNat 8 (0x70 + register) :: offset.digits
  | .const1u value => [kDwOpConst1u, value]
  | .constu value => kDwOpConstu :: value.digits
  | .lit value => [BitVec.ofNat 8 (0x30 + value)]
  | .deref => [kDwOpDeref]
  | .shl => [kDwOpShl]
  | .xor => [kDwOpXor]

/-- An expression that ends in `DW_OP_stack_value`. -/
def stackExpression (items : List StackItem) : List Byte :=
  items.flatMap StackItem.bytes ++ [kDwOpStackValue]

/-- The registers by their numbers. -/
def UserRegs.dwarfRegister (regs : UserRegs) (register : Nat) : Option Word :=
  [regs.rax, regs.rdx, regs.rcx, regs.rbx, regs.rsi, regs.rdi, regs.rbp, regs.rsp, regs.r8, regs.r9,
    regs.r10, regs.r11, regs.r12, regs.r13, regs.r14, regs.r15][register]?

/-- The word at an address, when it can be read. -/
def storedWord (readMemory : CfiMemoryReader) (address : Word) : Option Word :=
  match readMemory address 8 with
  | .ok bytes => if bytes.length = 8 then some (BitVec.ofNat 64 (littleEndian bytes)) else none
  | .error _ => none

/-- What an operation does to the stack. Words wrap; a shift is by less than the width of a word. -/
def StackItem.step (regs : UserRegs) (readMemory : CfiMemoryReader) :
    StackItem → List Word → Option (List Word)
  | .breg register offset, stack =>
    (regs.dwarfRegister register).map fun value => (value + offset.value) :: stack
  | .const1u value, stack => some (value.setWidth 64 :: stack)
  | .constu value, stack => some (value.value :: stack)
  | .lit value, stack => some (BitVec.ofNat 64 value :: stack)
  | .deref, address :: stack => (storedWord readMemory address).map (· :: stack)
  | .shl, count :: value :: stack =>
    if count.toNat < 64 then some ((value <<< count.toNat) :: stack) else none
  | .xor, right :: left :: stack => some ((left ^^^ right) :: stack)
  | _, _ => none

/-- The stack after some operations. -/
def runItems (regs : UserRegs) (readMemory : CfiMemoryReader) (items : List StackItem)
    (stack : List Word) : Option (List Word) :=
  items.foldlM (fun stack item => item.step regs readMemory stack) stack

/-- The result that a stack stands for: its one word. -/
def onlyWord : List Word → Option Word
  | [value] => some value
  | _ => none

/-- The value of an expression. -/
def stackValue (regs : UserRegs) (readMemory : CfiMemoryReader) (items : List StackItem) :
    Option Word :=
  (runItems regs readMemory items []).bind onlyWord

section Run

variable {regs : UserRegs} {readMemory : CfiMemoryReader} {items : List StackItem}

@[simp] theorem runItems_nil (stack : List Word) :
    runItems regs readMemory [] stack = some stack := rfl

@[simp] theorem runItems_cons (item : StackItem) (stack : List Word) :
    runItems regs readMemory (item :: items) stack =
      (item.step regs readMemory stack).bind (runItems regs readMemory items) := rfl

theorem StackItem.length_bytes_pos (item : StackItem) : 0 < item.bytes.length := by
  cases item <;> exact Nat.succ_pos _

/-- An expression has a byte for each operation and one more. -/
theorem length_lt_stackExpression (items : List StackItem) :
    items.length < (stackExpression items).length := by
  unfold stackExpression
  rw [List.length_append, List.length_singleton]
  induction items with
  | nil => simp
  | cons item items ih =>
    have := item.length_bytes_pos
    rw [List.flatMap_cons, List.length_append, List.length_cons]
    omega

theorem stackExpression_cons (item : StackItem) (items : List StackItem) :
    stackExpression (item :: items) = item.bytes ++ stackExpression items := by
  simp [stackExpression]

end Run

end MiniDebugger
