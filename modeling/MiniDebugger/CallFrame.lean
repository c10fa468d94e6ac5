import Mathlib.Logic.Function.Basic
import Mathlib.Tactic.Common

/-!
# Call-frame tables

The instructions of a function build a table: each row says, for the locations from its own up to
that of the next row, how the frame address is computed and where the caller's registers are. An
advance ends a row and begins the next, the other instructions change the row under construction.

The row in force at a location is the one that the advance past the location ends, whatever comes
after, or the last one. There is at most one.
-/

namespace MiniDebugger.CallFrame

/-- Where the caller's value of a register is: lost, still in the register, or at an offset from the
frame address. -/
inductive Rule where
  | undefined
  | sameValue
  | offset (value : Int)
  deriving DecidableEq, Repr

/-- The frame address as a register and an offset, and the rules of the registers that have one. -/
structure Row where
  cfa : Option (Nat × Int) := none
  rules : Nat → Option Rule := fun _ => none

inductive Instruction where
  | nop
  | advance (units : Nat)
  | offset (reg factor : Nat)
  | restore (reg : Nat)
  | undefined (reg : Nat)
  | sameValue (reg : Nat)
  | rememberState
  | restoreState
  | defCfa (reg offset : Nat)
  | defCfaRegister (reg : Nat)
  | defCfaOffset (offset : Nat)
  | argsSize (size : Nat)
  deriving DecidableEq, Repr

/-- What advances and offsets are multiplied with. -/
structure Factors where
  code : Nat
  data : Int

/-- The row under construction, where it begins, and the rows that are remembered. -/
structure Machine where
  location : Nat
  row : Row
  remembered : List Row := []

def Machine.setRule (machine : Machine) (reg : Nat) (rule : Option Rule) : Machine :=
  { machine with row := { machine.row with rules := Function.update machine.row.rules reg rule } }

section Run

variable (factors : Factors) (initial : Option Row)

/-- What an instruction does; `none` when it is out of place. A register is restored to its rule of
the initial row, when there is one. -/
def apply : Instruction → Machine → Option Machine
  | .nop, machine => some machine
  | .advance units, machine =>
    some { machine with location := machine.location + units * factors.code }
  | .offset reg factor, machine =>
    some (machine.setRule reg (some (.offset (factors.data * factor))))
  | .restore reg, machine => initial.map fun row => machine.setRule reg (row.rules reg)
  | .undefined reg, machine => some (machine.setRule reg (some .undefined))
  | .sameValue reg, machine => some (machine.setRule reg (some .sameValue))
  | .rememberState, machine =>
    some { machine with remembered := machine.row :: machine.remembered }
  | .restoreState, machine =>
    match machine.remembered with
    | [] => none
    | row :: remembered => some { machine with row, remembered }
  | .defCfa reg offset, machine =>
    some { machine with row := { machine.row with cfa := some (reg, offset) } }
  | .defCfaRegister reg, machine =>
    machine.row.cfa.map fun (_, offset) =>
      { machine with row := { machine.row with cfa := some (reg, offset) } }
  | .defCfaOffset offset, machine =>
    machine.row.cfa.map fun (reg, _) =>
      { machine with row := { machine.row with cfa := some (reg, (offset : Int)) } }
  | .argsSize _, machine => some machine

def run : List Instruction → Machine → Option Machine
  | [], machine => some machine
  | instruction :: instructions, machine =>
    (apply factors initial instruction machine).bind (run instructions)

variable {factors : Factors} {initial : Option Row}

theorem run_append (before after : List Instruction) (machine : Machine) :
    run factors initial (before ++ after) machine =
      (run factors initial before machine).bind (run factors initial after) := by
  induction before generalizing machine with
  | nil => rfl
  | cons instruction before ih =>
    rw [List.cons_append, run, run, Option.bind_assoc]
    exact congrArg _ (funext ih)

theorem apply_location {instruction : Instruction} {machine next : Machine}
    (h : apply factors initial instruction machine = some next) :
    machine.location ≤ next.location := by
  cases instruction with
  | advance units =>
    cases h
    exact Nat.le_add_right _ _
  | restore reg =>
    obtain ⟨row, _, rfl⟩ := Option.map_eq_some_iff.mp h
    exact Nat.le_refl _
  | restoreState =>
    unfold apply at h
    dsimp only at h
    split at h
    · cases h
    · cases h
      exact Nat.le_refl _
  | defCfaRegister reg =>
    obtain ⟨cfa, _, rfl⟩ := Option.map_eq_some_iff.mp h
    exact Nat.le_refl _
  | defCfaOffset offset =>
    obtain ⟨cfa, _, rfl⟩ := Option.map_eq_some_iff.mp h
    exact Nat.le_refl _
  | _ =>
    cases h
    exact Nat.le_refl _

/-- Instructions never go back. -/
theorem run_location {instructions : List Instruction} {machine final : Machine}
    (h : run factors initial instructions machine = some final) :
    machine.location ≤ final.location := by
  induction instructions generalizing machine with
  | nil =>
    cases h
    exact Nat.le_refl _
  | cons instruction instructions ih =>
    obtain ⟨next, hnext, hrest⟩ := Option.bind_eq_some_iff.mp h
    exact Nat.le_trans (apply_location hnext) (ih hrest)

end Run

/-! ## Encoded instructions -/

section Decodes

variable {β : Type} (decode : List β → Option (Instruction × List β))

/-- The instructions that some code begins with, and the code behind them. -/
inductive Decodes : List β → List Instruction → List β → Prop
  | done (code : List β) : Decodes code [] code
  | next {code middle rest : List β} {instruction : Instruction} {instructions : List Instruction} :
      decode code = some (instruction, middle) → Decodes middle instructions rest →
      Decodes code (instruction :: instructions) rest

variable {decode : List β → Option (Instruction × List β)}

/-- Of two decodings of one code, the longer continues the shorter. -/
theorem Decodes.linear {code rest rest' : List β} {instructions instructions' : List Instruction}
    (h : Decodes decode code instructions rest) (h' : Decodes decode code instructions' rest') :
    (∃ more, instructions' = instructions ++ more ∧ Decodes decode rest more rest') ∨
      ∃ more, instructions = instructions' ++ more ∧ Decodes decode rest' more rest := by
  induction h generalizing instructions' with
  | done code => exact .inl ⟨instructions', rfl, h'⟩
  | @next code middle rest instruction instructions hfirst hrest ih =>
    cases h' with
    | done => exact .inr ⟨instruction :: instructions, rfl, .next hfirst hrest⟩
    | next hfirst' hrest' =>
      rw [hfirst] at hfirst'
      cases hfirst'
      obtain ⟨more, rfl, hmore⟩ | ⟨more, rfl, hmore⟩ := ih hrest'
      · exact .inl ⟨more, rfl, hmore⟩
      · exact .inr ⟨more, rfl, hmore⟩

theorem Decodes.eq_nil {rest : List β} {instructions : List Instruction}
    (hnil : decode [] = none) (h : Decodes decode [] instructions rest) : instructions = [] := by
  cases h with
  | done => rfl
  | next hfirst =>
    rw [hnil] at hfirst
    cases hfirst

end Decodes

/-! ## The row of a location -/

section InForce

variable {β : Type} (decode : List β → Option (Instruction × List β)) (factors : Factors)
  (initial : Option Row)

/-- The row under construction is the one at the target: no code is left, or an advance past the
target comes next. -/
def Over (target : Nat) (rest : List β) (machine : Machine) : Prop :=
  rest = [] ∨ ∃ units after, decode rest = some (.advance units, after) ∧
    target < machine.location + units * factors.code

/-- The row that the instructions of some code put in force at a location. -/
def InForce (start : Machine) (code : List β) (target : Nat) (row : Row) : Prop :=
  ∃ instructions rest machine, Decodes decode code instructions rest ∧
    run factors initial instructions start = some machine ∧ machine.location ≤ target ∧
    Over decode factors target rest machine ∧ machine.row = row

variable {decode : List β → Option (Instruction × List β)} {factors : Factors}
  {initial : Option Row}

/-- An instruction that does not leave the location behind comes before the row in force there. -/
theorem InForce.next {start next : Machine} {code rest : List β} {target : Nat} {row : Row}
    {instruction : Instruction} (hdecode : decode code = some (instruction, rest))
    (hnext : apply factors initial instruction start = some next)
    (h : InForce decode factors initial next rest target row) :
    InForce decode factors initial start code target row := by
  obtain ⟨instructions, after, machine, hdecodes, hran, hrow⟩ := h
  refine ⟨instruction :: instructions, after, machine, .next hdecode hdecodes, ?_, hrow⟩
  rw [run, hnext]
  exact hran

/-- No instructions lead from the row at the target to another one there. -/
theorem Over.eq_nil {target : Nat} {rest rest' : List β} {machine final : Machine}
    {more : List Instruction} (hnil : decode [] = none)
    (h : Over decode factors target rest machine) (hdecodes : Decodes decode rest more rest')
    (hran : run factors initial more machine = some final) (hfinal : final.location ≤ target) :
    more = [] := by
  obtain rfl | ⟨units, after, hdecode, hbeyond⟩ := h
  · exact hdecodes.eq_nil hnil
  · cases hdecodes with
    | done => rfl
    | next hfirst hrest =>
      rw [hdecode] at hfirst
      cases hfirst
      obtain ⟨next, hnext, hrest⟩ := Option.bind_eq_some_iff.mp hran
      cases hnext
      have hle := run_location hrest
      dsimp only at hle
      omega

/-- A location has one row in force. -/
theorem InForce.unique {start : Machine} {code : List β} {target : Nat} {row row' : Row}
    (hnil : decode [] = none) (h : InForce decode factors initial start code target row)
    (h' : InForce decode factors initial start code target row') : row = row' := by
  obtain ⟨before, rest, machine, hdecodes, hran, hle, hover, rfl⟩ := h
  obtain ⟨before', rest', machine', hdecodes', hran', hle', hover', rfl⟩ := h'
  obtain ⟨more, rfl, hmore⟩ | ⟨more, rfl, hmore⟩ := hdecodes.linear hdecodes'
  · rw [run_append, hran] at hran'
    obtain rfl := hover.eq_nil hnil hmore hran' hle'
    cases hran'
    rfl
  · rw [run_append, hran'] at hran
    obtain rfl := hover'.eq_nil hnil hmore hran hle
    cases hran
    rfl

end InForce

end MiniDebugger.CallFrame
