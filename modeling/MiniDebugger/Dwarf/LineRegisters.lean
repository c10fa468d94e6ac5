import MiniDebugger.Accumulators
import MiniDebugger.Dwarf.LineMatrix

/-!
# The registers of a line program

The address and the line of the line-number machine are accumulators: opcodes add their operands to
them, and some set them. The loop over the opcodes makes no check of a sum, so a program can take
the line out of an `int64_t` and the address past `2 ^ 64`; `Bounded` says of the operands of a
program that it does not.
-/

namespace MiniDebugger

open Accumulator LineProgram

/-! ## What instructions do to the registers -/

namespace LineProgram

/-- What an instruction does to the address. -/
def addressUpdate (header : Header) : Instruction → Update Nat
  | .special adjusted => .add (adjusted / header.lineRange * header.minimumInstructionLength)
  | .advancePc operations => .add (operations * header.minimumInstructionLength)
  | .constAddPc =>
    .add ((255 - header.opcodeBase) / header.lineRange * header.minimumInstructionLength)
  | .fixedAdvancePc delta => .add delta
  | .endSequence => .set 0
  | .setAddress address => .set (BitVec.ofNat 64 address).toNat
  | _ => .add 0

/-- What an instruction does to the line. -/
def lineUpdate (header : Header) : Instruction → Update Int
  | .special adjusted => .add (header.lineBase + (adjusted % header.lineRange : Nat))
  | .advanceLine delta => .add delta
  | .endSequence => .set 1
  | _ => .add 0

end LineProgram

/-- The address after the beginning of a program, in the numbers of arithmetic. -/
def addressAfter (header : Header) (instructions : List Instruction) : Nat :=
  exact 0 (instructions.map (addressUpdate header))

/-- The line after the beginning of a program. -/
def lineAfter (header : Header) (instructions : List Instruction) : Int :=
  exact 1 (instructions.map (lineUpdate header))

/-- Since the last opcode that sets it, no beginning of the program adds more to the address than
there is room for, and none takes the line out of an `int64_t`. -/
def LineUnitProgram.Bounded (unit : LineUnitProgram) : Prop :=
  ∀ instructions, instructions <+: unit.instructions →
    addressAfter unit.header instructions < 2 ^ 64 ∧
      int64Min ≤ lineAfter unit.header instructions ∧
      lineAfter unit.header instructions ≤ int64Max

/-! ## Passes that stay within the registers -/

section Passes

variable (bytes : List Byte)

/-- What the opcode at a position adds to the address. -/
def advanceAt (header : LineHeader) (position : Nat) : Nat :=
  match LineProgram.decode header.described (codeAt bytes header.unitEnd position) with
  | some (instruction, _) => (addressUpdate header.described instruction).delta
  | none => 0

/-- A pass of the loop over the opcodes: the address does not wrap, and the line stays an
`int64_t`. -/
def LinePassFits (header : LineHeader) (before after : LineMachine × Nat) : Prop :=
  before.1.state.address.toNat + advanceAt bytes header before.2 < 2 ^ 64 ∧
    int64Min ≤ after.1.state.line ∧ after.1.state.line ≤ int64Max

/-- The passes over the opcodes of a unit, with the file tables and the ranges before it. -/
def LineUnitFits (sectionEnd : Nat) (lineStrings : Option (SectionRange bytes))
    (before _after : (List LineFileTable × List LineRange) × Nat) : Prop :=
  ∀ header start, readLineHeader bytes sectionEnd lineStrings before.2 = .ok (header, start) →
    Loop.Always (Loop.scanRound header.unitEnd (lineOpcode bytes header before.1.1.length))
      (LinePassFits bytes header) ({ files := header.files, ranges := before.1.2 }, start)

/-- `DwarfLineTable::parse` makes no update of a register that overflows it. -/
def LineRegistersFit : Prop :=
  ∀ section_ lineStrings, findDebugSection bytes ".debug_line" = .ok (some section_) →
    findDebugSection bytes ".debug_line_str" = .ok lineStrings →
    Loop.Always (Loop.scanRound section_.stop (parseUnit bytes section_.stop lineStrings))
      (LineUnitFits bytes section_.stop lineStrings) (([], []), section_.offset)

end Passes

/-! ## One instruction -/

section Instructions

variable {header : Header} {registers : Registers} {instruction : Instruction}

theorem apply_line : (apply header registers instruction).1.line =
    (lineUpdate header instruction).apply registers.line := by
  cases instruction with
  | special adjusted =>
    simp only [apply, lineUpdate, Update.apply]
    exact Int.add_assoc _ _ _
  | _ => simp [apply, lineUpdate, Update.apply, Registers.advance]

theorem apply_address
    (h : registers.address.toNat + (addressUpdate header instruction).delta < 2 ^ 64) :
    (apply header registers instruction).1.address.toNat =
      (addressUpdate header instruction).apply registers.address.toNat := by
  cases instruction with
  | special adjusted => exact toNat_add_of_lt h
  | advancePc operations => exact toNat_add_of_lt h
  | constAddPc => exact toNat_add_of_lt h
  | fixedAdvancePc delta => exact toNat_add_of_lt h
  | endSequence => rfl
  | setAddress address => rfl
  | _ => rfl

/-- The registers before an instruction and its operand tell whether it fits. -/
def InstructionFits (header : Header) (registers : Registers) (instruction : Instruction) :
    Prop :=
  registers.address.toNat + (addressUpdate header instruction).delta < 2 ^ 64 ∧
    int64Min ≤ (apply header registers instruction).1.line ∧
    (apply header registers instruction).1.line ≤ int64Max

theorem instructionFits_iff : InstructionFits header registers instruction ↔
    (addressUpdate header instruction).apply registers.address.toNat < 2 ^ 64 ∧
      int64Min ≤ (lineUpdate header instruction).apply registers.line ∧
      (lineUpdate header instruction).apply registers.line ≤ int64Max := by
  unfold InstructionFits
  rw [apply_line]
  refine and_congr_left fun _ => ?_
  have hregister := registers.address.isLt
  cases hupdate : addressUpdate header instruction with
  | add delta => rfl
  | set value =>
    have hvalue : value < 2 ^ 64 := by
      cases instruction with
      | setAddress address =>
        cases hupdate
        exact (BitVec.ofNat 64 address).isLt
      | endSequence =>
        cases hupdate
        decide
      | _ => cases hupdate
    exact iff_of_true hregister hvalue

/-- The instructions from some values of the registers on. -/
def InstructionsFit (header : Header) : Registers → List Instruction → Prop
  | _, [] => True
  | registers, instruction :: instructions =>
    InstructionFits header registers instruction ∧
      InstructionsFit header (apply header registers instruction).1 instructions

/-- Instructions fit if the exact values do. -/
theorem instructionsFit_iff {instructions : List Instruction} (hmin : int64Min ≤ registers.line)
    (hmax : registers.line ≤ int64Max) : InstructionsFit header registers instructions ↔
    ∀ before, before <+: instructions →
      exact registers.address.toNat (before.map (addressUpdate header)) < 2 ^ 64 ∧
        int64Min ≤ exact registers.line (before.map (lineUpdate header)) ∧
        exact registers.line (before.map (lineUpdate header)) ≤ int64Max := by
  induction instructions generalizing registers with
  | nil =>
    refine iff_of_true trivial fun before hbefore => ?_
    obtain rfl := List.prefix_nil.mp hbefore
    simp only [List.map_nil, exact_nil]
    exact ⟨registers.address.isLt, hmin, hmax⟩
  | cons instruction instructions ih =>
    have hcons (before : List Instruction) (hfits : InstructionFits header registers instruction) :
        exact registers.address.toNat ((instruction :: before).map (addressUpdate header)) =
            exact (apply header registers instruction).1.address.toNat
              (before.map (addressUpdate header)) ∧
          exact registers.line ((instruction :: before).map (lineUpdate header)) =
            exact (apply header registers instruction).1.line
              (before.map (lineUpdate header)) := by
      rw [apply_line, apply_address hfits.1, List.map_cons, exact_cons, List.map_cons, exact_cons]
      exact ⟨rfl, rfl⟩
    constructor
    · rintro ⟨hfits, hrest⟩ before hbefore
      obtain rfl | ⟨before, rfl, hprefix⟩ := List.prefix_cons_iff.mp hbefore
      · simp only [List.map_nil, exact_nil]
        exact ⟨registers.address.isLt, hmin, hmax⟩
      · rw [(hcons before hfits).1, (hcons before hfits).2]
        exact (ih hfits.2.1 hfits.2.2).mp hrest before hprefix
    · intro hall
      have hfits : InstructionFits header registers instruction := by
        have hfirst := hall [instruction]
          (List.prefix_cons_iff.mpr (.inr ⟨[], rfl, List.nil_prefix⟩))
        simp only [List.map_cons, List.map_nil, exact_cons, exact_nil] at hfirst
        exact instructionFits_iff.mpr hfirst
      refine ⟨hfits, (ih hfits.2.1 hfits.2.2).mpr fun before hbefore => ?_⟩
      rw [← (hcons before hfits).1, ← (hcons before hfits).2]
      exact hall (instruction :: before) (List.prefix_cons_iff.mpr (.inr ⟨before, rfl, hbefore⟩))

end Instructions

/-! ## Programs and units -/

section Programs

variable {bytes : List Byte} {header : LineHeader} {fileTableIndex : Nat}

theorem linePassFits_iff {before after : LineMachine} {position next : Nat}
    {instruction : Instruction}
    (hdecode : LineProgram.decode header.described (codeAt bytes header.unitEnd position) =
      some (instruction, codeAt bytes header.unitEnd next))
    (hfollows : FollowsLine header fileTableIndex instruction before after) :
    LinePassFits bytes header (before, position) (after, next) ↔
      InstructionFits header.described before.registers instruction := by
  unfold LinePassFits InstructionFits advanceAt
  rw [hdecode, hfollows.1]
  rfl

/-- The passes of the loop fit if the instructions do. -/
theorem runLineProgram_fits {machine final : LineMachine} {cursor stop : Nat}
    (hfile : header.unitEnd ≤ bytes.length)
    (h : runLineProgram bytes header fileTableIndex machine cursor = .ok (final, stop)) :
    ∃ instructions, Encodes header.described instructions (codeAt bytes header.unitEnd cursor) ∧
      (Loop.Always (Loop.scanRound header.unitEnd (lineOpcode bytes header fileTableIndex))
          (LinePassFits bytes header) (machine, cursor) ↔
        InstructionsFit header.described machine.registers instructions) := by
  refine Loop.scan_induction lineOpcode_next
    (motive := fun machine cursor _ _ => ∃ instructions,
      Encodes header.described instructions (codeAt bytes header.unitEnd cursor) ∧
        (Loop.Always (Loop.scanRound header.unitEnd (lineOpcode bytes header fileTableIndex))
            (LinePassFits bytes header) (machine, cursor) ↔
          InstructionsFit header.described machine.registers instructions)) ?_ ?_ h
  · intro machine cursor hend
    rw [codeAt_eq_nil hend]
    exact ⟨[], .nil, iff_of_true (Loop.always_of_stop (Loop.scanRound_of_not_lt hend)) trivial⟩
  · intro machine cursor after next final stop hlimit hpass hrest
    obtain ⟨instruction, hdecode, hfollows⟩ := lineOpcode_follows hfile hpass
    obtain ⟨instructions, hencodes, hfits⟩ := hrest
    refine ⟨instruction :: instructions, .cons hdecode hencodes, ?_⟩
    rw [Loop.always_iff_of_again (Loop.scanRound_of_ok hlimit hpass), hfits,
      linePassFits_iff hdecode hfollows, InstructionsFit, hfollows.1]

variable {sectionEnd : Nat} {lineStrings : Option (SectionRange bytes)}

/-- The passes over a unit fit if its program is bounded. -/
theorem lineUnitFits_iff (hfile : sectionEnd ≤ bytes.length)
    {tables tables' : List LineFileTable × List LineRange} {cursor next : Nat}
    (h : parseUnit bytes sectionEnd lineStrings tables cursor = .ok (tables', next)) :
    ∃ header program instructions,
      takeUnit (lineStrings.map content) (codeAt bytes sectionEnd cursor) =
        some (header, program, codeAt bytes sectionEnd next) ∧
      Encodes header instructions program ∧
      (LineUnitFits bytes sectionEnd lineStrings (tables, cursor) (tables', next) ↔
        LineUnitProgram.Bounded ⟨header, instructions⟩) := by
  obtain ⟨header, start, hheader, h⟩ := bind_ok h
  obtain ⟨machine, stop, hmachine, hdone⟩ := bind_ok h
  cases hdone
  obtain ⟨_, hlimit, hsection⟩ := readLineHeader_next hheader
  obtain ⟨instructions, hencodes, hfits⟩ := runLineProgram_fits (hsection.trans hfile) hmachine
  obtain rfl := runLineProgram_next hlimit hmachine
  refine ⟨_, _, instructions, takeUnit_of_readLineHeader hfile hheader, hencodes, ?_⟩
  have hbounded : InstructionsFit header.described { files := header.files } instructions ↔
      LineUnitProgram.Bounded ⟨header.described, instructions⟩ :=
    instructionsFit_iff (show int64Min ≤ 1 by decide) (show 1 ≤ int64Max by decide)
  rw [← hbounded]
  refine Iff.trans ?_ hfits
  constructor
  · exact fun hall => hall header start hheader
  · intro hall header' start' hheader'
    rw [hheader] at hheader'
    cases hheader'
    exact hall

theorem parseUnits_fits (hfile : sectionEnd ≤ bytes.length)
    {tables tables' : List LineFileTable × List LineRange} {cursor stop : Nat}
    (h : parseUnits bytes sectionEnd lineStrings tables cursor = .ok (tables', stop)) :
    ∃ units, LineUnits (lineStrings.map content) (codeAt bytes sectionEnd cursor) units ∧
      (Loop.Always (Loop.scanRound sectionEnd (parseUnit bytes sectionEnd lineStrings))
          (LineUnitFits bytes sectionEnd lineStrings) (tables, cursor) ↔
        ∀ unit ∈ units, unit.Bounded) := by
  refine Loop.scan_induction parseUnit_next
    (motive := fun tables cursor _ _ => ∃ units,
      LineUnits (lineStrings.map content) (codeAt bytes sectionEnd cursor) units ∧
        (Loop.Always (Loop.scanRound sectionEnd (parseUnit bytes sectionEnd lineStrings))
            (LineUnitFits bytes sectionEnd lineStrings) (tables, cursor) ↔
          ∀ unit ∈ units, unit.Bounded)) ?_ ?_ h
  · intro tables cursor hend
    rw [codeAt_eq_nil hend]
    exact ⟨[], .done,
      iff_of_true (Loop.always_of_stop (Loop.scanRound_of_not_lt hend)) (by simp)⟩
  · intro tables cursor middle next tables' stop hlimit hpass hrest
    obtain ⟨header, program, instructions, htake, hencodes, hunit⟩ := lineUnitFits_iff hfile hpass
    obtain ⟨units, hunits, hfits⟩ := hrest
    refine ⟨⟨header, instructions⟩ :: units, .unit htake hencodes hunits, ?_⟩
    rw [Loop.always_iff_of_again (Loop.scanRound_of_ok hlimit hpass), hfits, hunit,
      List.forall_mem_cons]

end Programs

/-! ## Files -/

/-- A file with these units that is accepted. -/
theorem parseLineTable_fits {bytes : List Byte} {tables : List LineFileTable × List LineRange}
    (h : parseLineTable bytes = .ok tables) : ∃ units, LineUnitsOf bytes units ∧
      (LineRegistersFit bytes ↔ ∀ unit ∈ units, unit.Bounded) := by
  obtain ⟨section_, hsection, h⟩ := Checks.bind_eq_ok.mp h
  cases section_ with
  | none =>
    refine ⟨[], lineUnitsOf_of_none hsection,
      iff_of_true (fun section_ lineStrings hsome => ?_) (by simp)⟩
    rw [hsection] at hsome
    cases hsome
  | some section_ =>
    obtain ⟨lineStrings, hstrings, h⟩ := Checks.bind_eq_ok.mp h
    obtain ⟨⟨tables, stop⟩, htables, hdone⟩ := Checks.bind_eq_ok.mp h
    obtain ⟨units, hunits, hfits⟩ := parseUnits_fits section_.within htables
    refine ⟨units, lineUnitsOf_of_some hsection hstrings hunits, Iff.trans ?_ hfits⟩
    constructor
    · exact fun hall => hall section_ lineStrings hsection hstrings
    · intro hall section' lineStrings' hsection' hstrings'
      rw [hsection] at hsection'
      cases hsection'
      rw [hstrings] at hstrings'
      cases hstrings'
      exact hall

/-- A file that would overflow a register is rejected. -/
def RejectsOverflow (bytes : List Byte) : Prop :=
  ∀ tables, parseLineTable bytes = .ok tables → LineRegistersFit bytes

/-- The registers of the files that are accepted do not overflow just when the operands of their
programs are bounded. -/
theorem rejectsOverflow_iff (bytes : List Byte) : RejectsOverflow bytes ↔
    ∀ tables, parseLineTable bytes = .ok tables → ∀ units, LineUnitsOf bytes units →
      ∀ unit ∈ units, unit.Bounded := by
  refine forall₂_congr fun tables h => ?_
  obtain ⟨units, hunits, hfits⟩ := parseLineTable_fits h
  rw [hfits]
  constructor
  · intro hall units' hunits'
    rw [← hunits.unique hunits']
    exact hall
  · exact fun hall => hall units hunits

/-- `DW_LNS_advance_line` from line 1 by `2 ^ 63 - 1`. -/
def overflowingFile : List Byte :=
  lineFile (lineUnit [0, 0, 0, 0] (3 :: (List.replicate 9 0xff ++ [0])))

/-- The header of its unit. -/
def overflowingHeader : LineHeader where
  dwarf5 := true
  addressSize := 8
  headerEnd := 239
  unitEnd := 250
  minimumInstructionLength := 1
  lineBase := -5
  lineRange := 14
  opcodeBase := 13
  standardOpcodeLengths := [0, 1, 1, 1, 1, 0, 0, 0, 1, 0, 0, 1]
  directories := []
  files := []

/-- The line register is not checked: the file is accepted. -/
theorem not_rejectsOverflow_advanceLine : ¬RejectsOverflow overflowingFile := by
  intro hrejects
  let machine : LineMachine := { files := [], ranges := [] }
  have hsection : findDebugSection overflowingFile ".debug_line" =
      .ok (some ⟨205, 45, by decide +kernel⟩) := by decide +kernel
  have hstrings : findDebugSection overflowingFile ".debug_line_str" = .ok none := by
    decide +kernel
  have hheader : readLineHeader overflowingFile 250 none 205 = .ok (overflowingHeader, 239) := by
    decide +kernel
  have hopcode : lineOpcode overflowingFile overflowingHeader 0 machine 239 =
      .ok (machine.advanceLine (2 ^ 63 - 1), 250) := by decide +kernel
  have hprogram : runLineProgram overflowingFile overflowingHeader 0 machine 239 =
      .ok (machine.advanceLine (2 ^ 63 - 1), 250) :=
    (Loop.scan_of_ok lineOpcode_next (by decide) hopcode).trans
      (Loop.scan_of_not_lt lineOpcode_next _ (by decide))
  have hunit : parseUnit overflowingFile 250 none ([], []) 205 = .ok (([⟨true, []⟩], []), 250) := by
    rw [parseUnit, bind_of_read hheader, List.length_nil]
    exact bind_of_read hprogram
  have hunits : parseUnits overflowingFile 250 none ([], []) 205 = .ok (([⟨true, []⟩], []), 250) :=
    (Loop.scan_of_ok parseUnit_next (by decide) hunit).trans
      (Loop.scan_of_not_lt parseUnit_next _ (by decide))
  have hparse : parseLineTable overflowingFile = .ok ([⟨true, []⟩], []) := by
    rw [parseLineTable, hsection, Checks.ok_bind]
    dsimp only
    rw [hstrings, Checks.ok_bind]
    exact Checks.bind_eq_ok.mpr ⟨_, hunits, rfl⟩
  have hpasses := hrejects _ hparse _ _ hsection hstrings _ _ (.here _)
    (Loop.scanRound_of_ok (by decide) hunit) _ _ hheader
  have hfits := hpasses _ _ (.here _) (Loop.scanRound_of_ok (by decide) hopcode)
  exact absurd hfits.2.2 (by decide)

end MiniDebugger
