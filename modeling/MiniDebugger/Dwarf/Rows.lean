import MiniDebugger.Dwarf.Entries

/-!
# Rows of call-frame information

`evaluate_frame` first finds the FDE that covers the target and then runs its instructions up to the
row of the target; what follows only uses the row and the registers. `findFde` and `findRow` are these
first two parts.

The row of an address is also that of the address before it exactly when it does not start there and
no earlier FDE ends there.
-/

namespace MiniDebugger

open Std (ExtTreeMap)

/-- An FDE as the loop over the entries leaves it, with the cursor at its instructions. -/
structure Fde where
  entry : Nat
  stop : Nat
  cie : Cie
  initialLocation : Word
  cursor : Nat

/-- The row of an address: the FDE it stands in, its first address and its rules. -/
structure CfiRow where
  fde : Fde
  location : Word
  state : CfiState

/-- `execute`, with the location of the row it ends in. -/
def executeRow (bytes : List Byte) (stop : Nat) (cie : Cie) (initial : Option CfiState)
    (target : Word) (machine : CfiMachine) (cursor : Nat) : Except Exception CfiMachine :=
  if cursor < stop then
    match h : executeOpcode bytes stop cie initial target machine cursor with
    | .error e => .error e
    | .ok (none, _) => .ok machine
    | .ok (some machine, next) =>
      have := executeOpcode_next h
      executeRow bytes stop cie initial target machine next
  else .ok machine
termination_by stop - cursor

/-- The row of the target in an FDE that covers it. -/
def rowOfFde (bytes : List Byte) (target : Word) (fde : Fde) : Except Exception CfiRow := do
  let cieState ← execute bytes fde.cie.instructionsEnd fde.cie none (BitVec.allOnes 64)
    ⟨fde.initialLocation, {}, []⟩ fde.cie.instructionsBegin
  let machine ← executeRow bytes fde.stop fde.cie (some cieState) target
    ⟨fde.initialLocation, cieState, []⟩ fde.cursor
  return ⟨fde, machine.location, machine.state⟩

/-- The frame a row describes. -/
def frameOfRow (readMemory : CfiMemoryReader) (readRegister : Word → Except Exception Word)
    (row : CfiRow) : Except Exception EvaluatedFrame := do
  if !row.state.cfaDefined then throw (.runtimeError "CFI did not define a CFA")
  let cfa ← addSigned (← readRegister row.state.cfaRegister) row.state.cfaOffset "CFI CFA"
  match row.state.rules[row.fde.cie.returnRegister]? with
  | some ⟨.offset, offset⟩ =>
    let slot ← addSigned cfa offset "CFI return slot"
    let returnAddress ← readCfiSlot readMemory slot "CFI return-address slot"
    if returnAddress = 0 then throw (.runtimeError "CFI resolved a zero return address")
    return ⟨row.state, cfa, returnAddress⟩
  | _ => throw (.runtimeError "CFI return-address rule is not a supported memory offset")

/-- The FDE that covers the target: `evaluateFrame` without the evaluation. -/
def findFde (bytes : List Byte) (virtualAddress target : Word) (cies : ExtTreeMap Nat Cie)
    (entry : Nat) : Except Exception (Option Fde) :=
  if entry < bytes.length then do
    let length ← readAt bytes entry 4 ".eh_frame length"
    if length = 0 then return none
    if length = 0xffffffff then throw (.runtimeError "DWARF64 .eh_frame is unsupported")
    let content := entry + 4
    if bytes.length - content < length then
      throw (.runtimeError ".eh_frame entry extends past section boundary")
    let stop := content + length
    let (ciePointer, cursor) ← readScalar bytes stop 4 "CIE pointer" content
    if ciePointer = 0 then
      let (cie, _) ← parseCie bytes stop cursor
      findFde bytes virtualAddress target (cies.insertIfNew entry cie) stop
    else if content < ciePointer then
      throw (.runtimeError "FDE CIE pointer underflows section")
    else
      match cies[content - ciePointer]? with
      | none => throw (.runtimeError "FDE references an unknown CIE")
      | some cie =>
        let ((initialLocation, range), cursor) ← readFdeRange bytes virtualAddress stop cie cursor
        if initialLocation ≤ target ∧ target < initialLocation + range then
          return some ⟨entry, stop, cie, initialLocation, cursor⟩
        else findFde bytes virtualAddress target cies stop
  else return none
termination_by bytes.length - entry

/-- The row of the target in the section. -/
def findRow (bytes : List Byte) (virtualAddress target : Word) :
    Except Exception (Option CfiRow) := do
  match ← findFde bytes virtualAddress target ∅ 0 with
  | none => return none
  | some fde => return some (← rowOfFde bytes target fde)

/-- The ranges of the FDEs before an offset of the section. -/
def fdesBefore (bytes : List Byte) (virtualAddress : Word) (limit : Nat)
    (cies : ExtTreeMap Nat Cie) (entry : Nat) : Except Exception (List (Word × Word)) :=
  if entry < limit then do
    let length ← readAt bytes entry 4 ".eh_frame length"
    let content := entry + 4
    let stop := content + length
    let (ciePointer, cursor) ← readScalar bytes stop 4 "CIE pointer" content
    if ciePointer = 0 then
      let (cie, _) ← parseCie bytes stop cursor
      fdesBefore bytes virtualAddress limit (cies.insertIfNew entry cie) stop
    else
      match cies[content - ciePointer]? with
      | none => throw (.runtimeError "FDE references an unknown CIE")
      | some cie =>
        let (range, _) ← readFdeRange bytes virtualAddress stop cie cursor
        let ranges ← fdesBefore bytes virtualAddress limit cies stop
        return range :: ranges
  else return []
termination_by limit - entry

section Execute

variable {bytes : List Byte} {stop : Nat} {cie : Cie} {initial : Option CfiState}
  {target target' : Word} {machine m : CfiMachine} {cursor next : Nat}

/-! ## The end of the instructions -/

theorem execute_of_end (h : ¬cursor < stop) :
    execute bytes stop cie initial target machine cursor = .ok machine.state := by
  rw [execute, if_neg h]

theorem executeRow_of_end (h : ¬cursor < stop) :
    executeRow bytes stop cie initial target machine cursor = .ok machine := by
  rw [executeRow, if_neg h]

theorem execute_of_error {e : Exception} (h : cursor < stop)
    (hstep : executeOpcode bytes stop cie initial target machine cursor = .error e) :
    execute bytes stop cie initial target machine cursor = .error e := by
  rw [execute, if_pos h]
  split <;> simp_all

theorem executeRow_of_error {e : Exception} (h : cursor < stop)
    (hstep : executeOpcode bytes stop cie initial target machine cursor = .error e) :
    executeRow bytes stop cie initial target machine cursor = .error e := by
  rw [executeRow, if_pos h]
  split <;> simp_all

theorem execute_of_none (h : cursor < stop)
    (hstep : executeOpcode bytes stop cie initial target machine cursor = .ok (none, next)) :
    execute bytes stop cie initial target machine cursor = .ok machine.state := by
  rw [execute, if_pos h]
  split <;> simp_all

theorem executeRow_of_none (h : cursor < stop)
    (hstep : executeOpcode bytes stop cie initial target machine cursor = .ok (none, next)) :
    executeRow bytes stop cie initial target machine cursor = .ok machine := by
  rw [executeRow, if_pos h]
  split <;> simp_all

theorem execute_of_some (h : cursor < stop)
    (hstep : executeOpcode bytes stop cie initial target machine cursor = .ok (some m, next)) :
    execute bytes stop cie initial target machine cursor =
      execute bytes stop cie initial target m next := by
  rw [execute, if_pos h]
  split <;> simp_all

theorem executeRow_of_some (h : cursor < stop)
    (hstep : executeOpcode bytes stop cie initial target machine cursor = .ok (some m, next)) :
    executeRow bytes stop cie initial target machine cursor =
      executeRow bytes stop cie initial target m next := by
  rw [executeRow, if_pos h]
  split <;> simp_all

/-- The state of the row is what `execute` returns. -/
theorem execute_eq (machine : CfiMachine) (cursor : Nat) :
    execute bytes stop cie initial target machine cursor =
      (executeRow bytes stop cie initial target machine cursor).map (·.state) := by
  induction hroom : stop - cursor using Nat.strongRecOn generalizing machine cursor with
  | ind room ih =>
    subst hroom
    by_cases hcursor : cursor < stop
    · cases hstep : executeOpcode bytes stop cie initial target machine cursor with
      | error e =>
        rw [execute_of_error hcursor hstep, executeRow_of_error hcursor hstep]
        rfl
      | ok result =>
        obtain ⟨next, after⟩ := result
        have hafter := executeOpcode_next hstep
        cases next with
        | none =>
          rw [execute_of_none hcursor hstep, executeRow_of_none hcursor hstep]
          rfl
        | some m =>
          rw [execute_of_some hcursor hstep, executeRow_of_some hcursor hstep]
          exact ih (stop - after) (by omega) m after rfl
    · rw [execute_of_end hcursor, executeRow_of_end hcursor]
      rfl

/-! ## Instructions and the target -/

/-- A row that would start behind the target is not begun. -/
def CfiMachine.upTo (target : Word) (machine : Option CfiMachine) : Option CfiMachine :=
  machine.filter fun m => m.location ≤ target

theorem CfiMachine.upTo_some_of_le (h : m.location ≤ target) :
    CfiMachine.upTo target (some m) = some m := by
  simp [CfiMachine.upTo, h]

theorem CfiMachine.upTo_some_of_lt (h : target < m.location) :
    CfiMachine.upTo target (some m) = none := by
  simp [CfiMachine.upTo, h]

/-- An instruction that stays in the row. -/
def Stays (machine : CfiMachine) (p : Parse (Option CfiMachine)) : Prop :=
  ∀ ⦃cursor result next⦄, p cursor = .ok (result, next) →
    ∃ m, result = some m ∧ m.location = machine.location

/-- What `p` does for some target, `q` does for the earlier target `target`, and neither goes
back. -/
def Nearer (machine : CfiMachine) (target : Word) (p q : Parse (Option CfiMachine)) : Prop :=
  ∀ ⦃cursor result next⦄, p cursor = .ok (result, next) →
    q cursor = .ok (CfiMachine.upTo target result, next) ∧
      ∀ m, result = some m → machine.location ≤ m.location

theorem stays_pure (h : m.location = machine.location) : Stays machine (pure (some m)) := by
  intro cursor result next hpure
  cases hpure
  exact ⟨m, rfl, h⟩

theorem stays_throw (e : Exception) : Stays machine (throw e) := by
  intro cursor result next h
  cases h

theorem stays_bind {α : Type} {x : Parse α} {f : α → Parse (Option CfiMachine)}
    (hf : ∀ a, Stays machine (f a)) : Stays machine (x >>= f) := by
  intro cursor result next h
  obtain ⟨a, middle, _, hrest⟩ := bind_ok h
  exact hf a hrest

theorem stays_ite {c : Prop} [Decidable c] {p q : Parse (Option CfiMachine)}
    (hp : Stays machine p) (hq : Stays machine q) : Stays machine (if c then p else q) := by
  split
  · exact hp
  · exact hq

theorem nearer_of_stays {p : Parse (Option CfiMachine)} (hmachine : machine.location ≤ target)
    (hp : Stays machine p) : Nearer machine target p p := by
  intro cursor result next h
  obtain ⟨m, rfl, hm⟩ := hp h
  rw [CfiMachine.upTo_some_of_le (hm ▸ hmachine)]
  refine ⟨h, ?_⟩
  intro m' hm'
  cases hm'
  rw [hm]
  exact BitVec.le_refl _

theorem nearer_bind {α : Type} {x : Parse α} {f g : α → Parse (Option CfiMachine)}
    (hf : ∀ a, Nearer machine target (f a) (g a)) :
    Nearer machine target (x >>= f) (x >>= g) := by
  intro cursor result next h
  obtain ⟨a, middle, hx, hrest⟩ := bind_ok h
  obtain ⟨hnear, hgrows⟩ := hf a hrest
  refine ⟨?_, hgrows⟩
  simpa only [bind, StateT.bind, Except.bind, hx] using hnear

theorem nearer_ite {c : Prop} [Decidable c] {p q p' q' : Parse (Option CfiMachine)}
    (hp : Nearer machine target p p') (hq : Nearer machine target q q') :
    Nearer machine target (if c then p else q) (if c then p' else q') := by
  split
  · exact hp
  · exact hq

theorem advance_upTo (units : Word) (hle : target' ≤ target) :
    advance cie target' units machine =
      (advance cie target units machine).map (CfiMachine.upTo target') := by
  unfold advance
  split
  · rfl
  · dsimp only
    split
    · rfl
    · by_cases hnext' : machine.location + units * cie.codeAlignment ≤ target'
      · have hnear : ¬target' < machine.location + units * cie.codeAlignment := by
          rw [BitVec.lt_def]
          rw [BitVec.le_def] at hnext'
          omega
        have hfar : ¬target < machine.location + units * cie.codeAlignment := by
          rw [BitVec.lt_def]
          rw [BitVec.le_def] at hnext' hle
          omega
        rw [if_neg hnear, if_neg hfar]
        exact congrArg Except.ok (CfiMachine.upTo_some_of_le hnext').symm
      · have hnear : target' < machine.location + units * cie.codeAlignment := by
          rw [BitVec.lt_def]
          rw [BitVec.le_def] at hnext'
          omega
        rw [if_pos hnear]
        split
        · rfl
        · exact congrArg Except.ok (CfiMachine.upTo_some_of_lt hnear).symm

theorem advance_location {units : Word} (h : advance cie target units machine = .ok (some m)) :
    machine.location ≤ m.location := by
  unfold advance at h
  split at h
  case isTrue => cases h
  case isFalse =>
    dsimp only at h
    split at h
    case isTrue => cases h
    case isFalse hroom =>
      split at h
      case isTrue => cases h
      case isFalse =>
        cases h
        rw [BitVec.le_def, BitVec.toNat_add]
        omega

theorem nearer_advance (units : Word) (hle : target' ≤ target) :
    Nearer machine target' (liftM (advance cie target units machine))
      (liftM (advance cie target' units machine)) := by
  intro cursor result next h
  rw [advance_upTo units hle]
  cases hadvance : advance cie target units machine with
  | error e => rw [hadvance] at h; cases h
  | ok m =>
    rw [hadvance] at h
    cases h
    refine ⟨rfl, ?_⟩
    intro m' hm'
    subst hm'
    exact advance_location hadvance

theorem nearer_executeExtended (opcode : Nat) (hmachine : machine.location ≤ target')
    (hle : target' ≤ target) :
    Nearer machine target' (executeExtended bytes stop cie initial target machine opcode)
      (executeExtended bytes stop cie initial target' machine opcode) := by
  unfold executeExtended
  split
  · exact nearer_of_stays hmachine (stays_pure rfl)
  · exact nearer_bind fun _ => nearer_advance _ hle
  · exact nearer_bind fun _ => nearer_advance _ hle
  · exact nearer_bind fun _ => nearer_advance _ hle
  · refine nearer_of_stays hmachine ?_
    exact stays_bind fun _ => stays_bind fun _ => stays_bind fun _ => stays_pure rfl
  · exact nearer_of_stays hmachine (stays_bind fun _ => stays_bind fun _ => stays_pure rfl)
  · exact nearer_of_stays hmachine (stays_bind fun _ => stays_pure rfl)
  · exact nearer_of_stays hmachine (stays_bind fun _ => stays_pure rfl)
  · exact nearer_of_stays hmachine (stays_pure rfl)
  · split
    · exact nearer_of_stays hmachine (stays_throw _)
    · exact nearer_of_stays hmachine (stays_pure rfl)
  · refine nearer_of_stays hmachine ?_
    refine stays_bind fun _ => stays_bind fun _ => ?_
    exact stays_ite (stays_throw _) (stays_pure rfl)
  · refine nearer_of_stays hmachine (stays_ite (stays_throw _) ?_)
    exact stays_bind fun _ => stays_pure rfl
  · refine nearer_of_stays hmachine (stays_ite (stays_throw _) (stays_bind fun _ => ?_))
    exact stays_ite (stays_throw _) (stays_pure rfl)
  · exact nearer_of_stays hmachine (stays_bind fun _ => stays_pure rfl)
  · exact nearer_of_stays hmachine (stays_throw _)

/-- Only `advance` looks at the target. -/
theorem nearer_executeOpcode (hmachine : machine.location ≤ target') (hle : target' ≤ target) :
    Nearer machine target' (executeOpcode bytes stop cie initial target machine)
      (executeOpcode bytes stop cie initial target' machine) := by
  unfold executeOpcode
  refine nearer_bind fun opcode => ?_
  refine nearer_ite (nearer_advance _ hle) (nearer_ite ?_ (nearer_ite ?_ ?_))
  · exact nearer_of_stays hmachine (stays_bind fun _ => stays_bind fun _ => stays_pure rfl)
  · exact nearer_of_stays hmachine (stays_bind fun _ => stays_pure rfl)
  · exact nearer_executeExtended opcode hmachine hle

/-- A row begun for the target starts no later than it. -/
theorem executeOpcode_location (hmachine : machine.location ≤ target)
    (h : executeOpcode bytes stop cie initial target machine cursor = .ok (some m, next)) :
    machine.location ≤ m.location ∧ m.location ≤ target := by
  obtain ⟨hself, hgrows⟩ := nearer_executeOpcode hmachine (BitVec.le_refl target) h
  refine ⟨hgrows m rfl, ?_⟩
  rw [h] at hself
  by_contra hlate
  rw [CfiMachine.upTo_some_of_lt (BitVec.not_le.mp hlate)] at hself
  cases hself

/-! ## Rows of neighbouring addresses -/

theorem executeRow_location (hmachine : machine.location ≤ target)
    (h : executeRow bytes stop cie initial target machine cursor = .ok m) :
    machine.location ≤ m.location ∧ m.location ≤ target := by
  induction hroom : stop - cursor using Nat.strongRecOn generalizing machine cursor with
  | ind room ih =>
    subst hroom
    by_cases hcursor : cursor < stop
    · cases hstep : executeOpcode bytes stop cie initial target machine cursor with
      | error e =>
        rw [executeRow_of_error hcursor hstep] at h
        cases h
      | ok result =>
        obtain ⟨next, after⟩ := result
        have hafter := executeOpcode_next hstep
        cases next with
        | none =>
          rw [executeRow_of_none hcursor hstep] at h
          cases h
          exact ⟨BitVec.le_refl _, hmachine⟩
        | some row =>
          rw [executeRow_of_some hcursor hstep] at h
          obtain ⟨hrow, hrowTarget⟩ := executeOpcode_location hmachine hstep
          obtain ⟨hlocation, htarget⟩ := ih (stop - after) (by omega) hrowTarget h rfl
          exact ⟨BitVec.le_trans hrow hlocation, htarget⟩
    · rw [executeRow_of_end hcursor] at h
      cases h
      exact ⟨BitVec.le_refl _, hmachine⟩

/-- For an earlier target the instructions end in the same row exactly when it has begun there. -/
theorem executeRow_iff_location_le (hmachine : machine.location ≤ target') (hle : target' ≤ target)
    (h : executeRow bytes stop cie initial target machine cursor = .ok m) :
    executeRow bytes stop cie initial target' machine cursor = .ok m ↔ m.location ≤ target' := by
  refine ⟨fun hrow => (executeRow_location hmachine hrow).2, ?_⟩
  intro hm
  induction hroom : stop - cursor using Nat.strongRecOn generalizing machine cursor with
  | ind room ih =>
    subst hroom
    by_cases hcursor : cursor < stop
    · cases hstep : executeOpcode bytes stop cie initial target machine cursor with
      | error e =>
        rw [executeRow_of_error hcursor hstep] at h
        cases h
      | ok result =>
        obtain ⟨next, after⟩ := result
        have hafter := executeOpcode_next hstep
        obtain ⟨hstep', -⟩ := nearer_executeOpcode hmachine hle hstep
        cases next with
        | none =>
          rw [executeRow_of_none hcursor hstep] at h
          rw [executeRow_of_none hcursor hstep']
          exact h
        | some row =>
          rw [executeRow_of_some hcursor hstep] at h
          have hmachine' := BitVec.le_trans hmachine hle
          obtain ⟨-, hrowTarget⟩ := executeOpcode_location hmachine' hstep
          -- the row passed here starts no later than the one the instructions end in
          obtain ⟨hrow, -⟩ := executeRow_location hrowTarget h
          have hrow' := BitVec.le_trans hrow hm
          rw [CfiMachine.upTo_some_of_le hrow'] at hstep'
          rw [executeRow_of_some hcursor hstep']
          exact ih (stop - after) (by omega) hrow' h rfl
    · rw [executeRow_of_end hcursor] at h ⊢
      exact h

end Execute

/-! ## The evaluation in its parts -/

section FindFde

variable {bytes : List Byte} {virtualAddress target : Word} {entry stop ciePointer : Nat}
  {cies : ExtTreeMap Nat Cie} {fde : Fde}

theorem evaluateEntry_eq (readMemory : CfiMemoryReader)
    (readRegister : Word → Except Exception Word) (fde : Fde) :
    evaluateEntry bytes fde.stop fde.cie fde.initialLocation target readMemory readRegister
        fde.cursor = (do
      let row ← rowOfFde bytes target fde
      frameOfRow readMemory readRegister row) := by
  unfold evaluateEntry rowOfFde
  cases execute bytes fde.cie.instructionsEnd fde.cie none (BitVec.allOnes 64)
      ⟨fde.initialLocation, {}, []⟩ fde.cie.instructionsBegin with
  | error e => rfl
  | ok cieState =>
    dsimp only [Bind.bind, Except.bind]
    rw [execute_eq]
    cases executeRow bytes fde.stop fde.cie (some cieState) target
        ⟨fde.initialLocation, cieState, []⟩ fde.cursor with
    | error e => rfl
    | ok machine => rfl

theorem evaluateFrame_eq_findFde (readMemory : CfiMemoryReader)
    (readRegister : Word → Except Exception Word) (cies : ExtTreeMap Nat Cie) (entry : Nat) :
    evaluateFrame bytes virtualAddress target readMemory readRegister cies entry = (do
      match ← findFde bytes virtualAddress target cies entry with
      | none => return none
      | some fde =>
        let frame ← evaluateEntry bytes fde.stop fde.cie fde.initialLocation target readMemory
          readRegister fde.cursor
        return some frame) := by
  induction hroom : bytes.length - entry using Nat.strongRecOn generalizing cies entry with
  | ind room ih =>
    subst hroom
    rw [evaluateFrame, findFde]
    split
    case isFalse => rfl
    case isTrue hinside =>
      cases readAt bytes entry 4 ".eh_frame length" with
      | error e => rfl
      | ok length =>
        dsimp only [Bind.bind, Except.bind]
        split
        case isTrue => rfl
        case isFalse =>
        split
        case isTrue => rfl
        case isFalse =>
        split
        case isTrue => rfl
        case isFalse =>
        cases readScalar bytes (entry + 4 + length) 4 "CIE pointer" (entry + 4) with
        | error e => rfl
        | ok result =>
          obtain ⟨ciePointer, cursor⟩ := result
          dsimp only
          split
          case isTrue =>
            cases parseCie bytes (entry + 4 + length) cursor with
            | error e => rfl
            | ok result => exact ih (bytes.length - (entry + 4 + length)) (by omega) _ _ rfl
          case isFalse =>
            split
            case isTrue => rfl
            case isFalse =>
            cases cies[entry + 4 - ciePointer]? with
            | none => rfl
            | some cie =>
              dsimp only
              cases readFdeRange bytes virtualAddress (entry + 4 + length) cie cursor with
              | error e => rfl
              | ok result =>
                obtain ⟨⟨initialLocation, range⟩, cursor⟩ := result
                dsimp only
                split
                case isTrue => rfl
                case isFalse => exact ih (bytes.length - (entry + 4 + length)) (by omega) _ _ rfl

/-- `evaluate_frame` is the row of the target and the frame it describes. -/
theorem evaluateFrame_eq (readMemory : CfiMemoryReader)
    (readRegister : Word → Except Exception Word) :
    evaluateFrame bytes virtualAddress target readMemory readRegister ∅ 0 = (do
      match ← findRow bytes virtualAddress target with
      | none => return none
      | some row => return some (← frameOfRow readMemory readRegister row)) := by
  rw [evaluateFrame_eq_findFde, findRow]
  cases findFde bytes virtualAddress target ∅ 0 with
  | error e => rfl
  | ok fde =>
    cases fde with
    | none => rfl
    | some fde =>
      dsimp only [Bind.bind, Except.bind]
      rw [evaluateEntry_eq]
      cases rowOfFde bytes target fde with
      | error e => rfl
      | ok row => rfl

/-! ## One round of the search -/

theorem findFde_of_ends (h : Ends bytes entry) :
    findFde bytes virtualAddress target cies entry = .ok none := by
  rw [findFde]
  split
  case isTrue hinside =>
    rw [h.resolve_left (by omega)]
    rfl
  case isFalse => rfl

theorem findFde_of_cie (h : EntryAt bytes entry stop 0) :
    findFde bytes virtualAddress target cies entry = (do
      let (cie, _) ← parseCie bytes stop (entry + 8)
      findFde bytes virtualAddress target (cies.insertIfNew entry cie) stop) := by
  have hstart := h.start
  have hfits := h.fits
  rw [findFde, if_pos h.inside, h.header]
  dsimp only [Bind.bind, Except.bind]
  rw [if_neg (by omega), if_neg h.short, if_neg (by omega),
    show entry + 4 + (stop - (entry + 4)) = stop by omega, h.pointer]
  rfl

theorem findFde_of_fde {cie : Cie} (h : EntryAt bytes entry stop ciePointer)
    (hpointer : ciePointer ≠ 0) (hback : ciePointer ≤ entry + 4)
    (hcie : cies[entry + 4 - ciePointer]? = some cie) :
    findFde bytes virtualAddress target cies entry = (do
      let ((initialLocation, range), cursor) ←
        readFdeRange bytes virtualAddress stop cie (entry + 8)
      if initialLocation ≤ target ∧ target < initialLocation + range then
        return some ⟨entry, stop, cie, initialLocation, cursor⟩
      else findFde bytes virtualAddress target cies stop) := by
  have hstart := h.start
  have hfits := h.fits
  rw [findFde, if_pos h.inside, h.header]
  dsimp only [Bind.bind, Except.bind]
  rw [if_neg (by omega), if_neg h.short, if_neg (by omega),
    show entry + 4 + (stop - (entry + 4)) = stop by omega, h.pointer]
  dsimp only
  rw [if_neg hpointer, if_neg (by omega), hcie]

/-- What stands where the search does not throw. -/
theorem findFde_cases {result : Option Fde}
    (h : findFde bytes virtualAddress target cies entry = .ok result) :
    Ends bytes entry ∨ (∃ stop, EntryAt bytes entry stop 0) ∨
      ∃ stop ciePointer cie, EntryAt bytes entry stop ciePointer ∧ ciePointer ≠ 0 ∧
        ciePointer ≤ entry + 4 ∧ cies[entry + 4 - ciePointer]? = some cie := by
  rw [findFde] at h
  split at h
  case isFalse hinside => exact .inl (.inl (by omega))
  case isTrue hinside =>
    obtain ⟨length, hlength, h⟩ := except_bind_ok h
    have hbound := readAt_bound hlength
    dsimp only at h
    split at h
    case isTrue hzero => exact .inl (.inr (hzero ▸ hlength))
    case isFalse hzero =>
      split at h
      case isTrue => cases h
      case isFalse hshort =>
        split at h
        case isTrue => cases h
        case isFalse hfits =>
          obtain ⟨⟨ciePointer, cursor⟩, hpointer, h⟩ := except_bind_ok h
          have hcursor := readScalar_next hpointer
          subst hcursor
          have hentry : EntryAt bytes entry (entry + 4 + length) ciePointer :=
            ⟨hinside, by rw [hlength, Nat.add_sub_cancel_left], by omega, by omega, by omega,
              hpointer⟩
          dsimp only at h
          split at h
          case isTrue hcie => exact .inr (.inl ⟨_, hcie ▸ hentry⟩)
          case isFalse hcie =>
            split at h
            case isTrue => cases h
            case isFalse hback =>
              split at h
              case h_1 => cases h
              case h_2 cie hfound =>
                exact .inr (.inr ⟨_, _, cie, hentry, hcie, by omega, hfound⟩)

/-- The rounds of a search that finds an FDE: CIEs and FDEs of other ranges, then the FDE. -/
inductive FdeSearch (bytes : List Byte) (virtualAddress target : Word) (fde : Fde) :
    ExtTreeMap Nat Cie → Nat → Prop
  | cie {cies : ExtTreeMap Nat Cie} {entry stop cursor : Nat} {cie : Cie} :
    EntryAt bytes entry stop 0 → parseCie bytes stop (entry + 8) = .ok (cie, cursor) →
    FdeSearch bytes virtualAddress target fde (cies.insertIfNew entry cie) stop →
    FdeSearch bytes virtualAddress target fde cies entry
  | past {cies : ExtTreeMap Nat Cie} {entry stop ciePointer cursor : Nat} {cie : Cie}
      {initialLocation range : Word} :
    EntryAt bytes entry stop ciePointer → ciePointer ≠ 0 → ciePointer ≤ entry + 4 →
    cies[entry + 4 - ciePointer]? = some cie →
    readFdeRange bytes virtualAddress stop cie (entry + 8) =
      .ok ((initialLocation, range), cursor) →
    ¬(initialLocation ≤ target ∧ target < initialLocation + range) →
    FdeSearch bytes virtualAddress target fde cies stop →
    FdeSearch bytes virtualAddress target fde cies entry
  | here {cies : ExtTreeMap Nat Cie} {entry stop ciePointer cursor : Nat} {cie : Cie}
      {initialLocation range : Word} :
    EntryAt bytes entry stop ciePointer → ciePointer ≠ 0 → ciePointer ≤ entry + 4 →
    cies[entry + 4 - ciePointer]? = some cie →
    readFdeRange bytes virtualAddress stop cie (entry + 8) =
      .ok ((initialLocation, range), cursor) →
    (initialLocation ≤ target ∧ target < initialLocation + range) →
    fde = ⟨entry, stop, cie, initialLocation, cursor⟩ →
    FdeSearch bytes virtualAddress target fde cies entry

theorem fdeSearch_of_findFde (h : findFde bytes virtualAddress target cies entry = .ok (some fde)) :
    FdeSearch bytes virtualAddress target fde cies entry := by
  induction hroom : bytes.length - entry using Nat.strongRecOn generalizing cies entry with
  | ind room ih =>
    subst hroom
    obtain hends | ⟨stop, hentry⟩ | ⟨stop, ciePointer, cie, hentry, hpointer, hback, hcie⟩ :=
      findFde_cases h
    · rw [findFde_of_ends hends] at h
      cases h
    · have hstart := hentry.start
      have hfits := hentry.fits
      rw [findFde_of_cie hentry] at h
      obtain ⟨⟨cie, cursor⟩, hparse, h⟩ := except_bind_ok h
      exact .cie hentry hparse (ih (bytes.length - stop) (by omega) h rfl)
    · have hstart := hentry.start
      have hfits := hentry.fits
      rw [findFde_of_fde hentry hpointer hback hcie] at h
      obtain ⟨⟨⟨initialLocation, range⟩, cursor⟩, hrange, h⟩ := except_bind_ok h
      dsimp only at h
      split at h
      case isTrue hcovers =>
        cases h
        exact .here hentry hpointer hback hcie hrange hcovers rfl
      case isFalse hcovers =>
        exact .past hentry hpointer hback hcie hrange hcovers
          (ih (bytes.length - stop) (by omega) h rfl)

theorem FdeSearch.entry_le (h : FdeSearch bytes virtualAddress target fde cies entry) :
    entry ≤ fde.entry := by
  induction h with
  | cie hentry _ _ ih => have := hentry.start; omega
  | past hentry _ _ _ _ _ _ ih => have := hentry.start; omega
  | here _ _ _ _ _ _ hfde => rw [hfde]

theorem FdeSearch.covers (h : FdeSearch bytes virtualAddress target fde cies entry) :
    fde.initialLocation ≤ target := by
  induction h with
  | cie _ _ _ ih => exact ih
  | past _ _ _ _ _ _ _ ih => exact ih
  | here _ _ _ _ _ hcovers hfde => rw [hfde]; exact hcovers.1

/-! ## The address before -/

/-- A range that ends where the address begins: it covers the address before and not this one. -/
def EndsAt (range : Word × Word) (address : Word) : Prop :=
  range.1 < address ∧ range.1 + range.2 = address

instance (range : Word × Word) (address : Word) : Decidable (EndsAt range address) :=
  inferInstanceAs (Decidable (_ ∧ _))

theorem covers_pred_of_covers {start stop : Word} (hpos : target ≠ 0)
    (h : start ≤ target ∧ target < stop) :
    (start ≤ target - 1 ∧ target - 1 < stop) ↔ start < target := by
  have hsub := toNat_sub_one hpos
  have hne : target.toNat ≠ 0 := fun hzero => hpos (BitVec.eq_of_toNat_eq hzero)
  simp only [BitVec.le_def, BitVec.lt_def] at *
  omega

theorem covers_pred_of_not_covers {start range : Word} (hpos : target ≠ 0)
    (h : ¬(start ≤ target ∧ target < start + range)) :
    (start ≤ target - 1 ∧ target - 1 < start + range) ↔ EndsAt (start, range) target := by
  have hsub := toNat_sub_one hpos
  have hne : target.toNat ≠ 0 := fun hzero => hpos (BitVec.eq_of_toNat_eq hzero)
  simp only [EndsAt, BitVec.le_def, BitVec.lt_def, ← BitVec.toNat_inj] at *
  omega

theorem fdesBefore_of_cie {limit : Nat} (hlimit : entry < limit) (h : EntryAt bytes entry stop 0) :
    fdesBefore bytes virtualAddress limit cies entry = (do
      let (cie, _) ← parseCie bytes stop (entry + 8)
      fdesBefore bytes virtualAddress limit (cies.insertIfNew entry cie) stop) := by
  have hstart := h.start
  rw [fdesBefore, if_pos hlimit, h.header]
  dsimp only [Bind.bind, Except.bind]
  rw [show entry + 4 + (stop - (entry + 4)) = stop by omega, h.pointer]
  rfl

theorem fdesBefore_of_fde {limit : Nat} {cie : Cie} (hlimit : entry < limit)
    (h : EntryAt bytes entry stop ciePointer) (hpointer : ciePointer ≠ 0)
    (hcie : cies[entry + 4 - ciePointer]? = some cie) :
    fdesBefore bytes virtualAddress limit cies entry = (do
      let (range, _) ← readFdeRange bytes virtualAddress stop cie (entry + 8)
      let ranges ← fdesBefore bytes virtualAddress limit cies stop
      return range :: ranges) := by
  have hstart := h.start
  rw [fdesBefore, if_pos hlimit, h.header]
  dsimp only [Bind.bind, Except.bind]
  rw [show entry + 4 + (stop - (entry + 4)) = stop by omega, h.pointer]
  dsimp only
  rw [if_neg hpointer, hcie]

/-- The search for the address before finds the same FDE exactly when the FDE covers it and no
earlier one does. -/
theorem FdeSearch.pred_iff (hpos : target ≠ 0)
    (h : FdeSearch bytes virtualAddress target fde cies entry) :
    ∃ ranges, fdesBefore bytes virtualAddress fde.entry cies entry = .ok ranges ∧
      (findFde bytes virtualAddress (target - 1) cies entry = .ok (some fde) ↔
        fde.initialLocation < target ∧ ∀ range ∈ ranges, ¬EndsAt range target) := by
  induction h with
  | @cie cies entry stop cursor cie hentry hparse hsearch ih =>
    have hstart := hentry.start
    have hle := hsearch.entry_le
    obtain ⟨ranges, hranges, hiff⟩ := ih
    refine ⟨ranges, ?_, ?_⟩
    · rw [fdesBefore_of_cie (by omega) hentry, hparse]
      exact hranges
    · rw [findFde_of_cie hentry, hparse]
      exact hiff
  | @past cies entry stop ciePointer cursor cie initialLocation range hentry hpointer hback hcie
      hrange hcovers hsearch ih =>
    have hstart := hentry.start
    have hle := hsearch.entry_le
    obtain ⟨ranges, hranges, hiff⟩ := ih
    refine ⟨(initialLocation, range) :: ranges, ?_, ?_⟩
    · rw [fdesBefore_of_fde (by omega) hentry hpointer hcie, hrange]
      dsimp only [Bind.bind, Except.bind]
      rw [hranges]
      rfl
    · rw [findFde_of_fde hentry hpointer hback hcie, hrange]
      dsimp only [Bind.bind, Except.bind]
      by_cases hends : EndsAt (initialLocation, range) target
      · -- this FDE is found instead
        rw [if_pos ((covers_pred_of_not_covers hpos hcovers).mpr hends)]
        constructor
        · intro hfound
          cases hfound
          dsimp only at hle
          omega
        · intro hnone
          exact absurd hends (hnone.2 (initialLocation, range) (by simp))
      · rw [if_neg (fun hpred => hends ((covers_pred_of_not_covers hpos hcovers).mp hpred)), hiff]
        simp only [List.mem_cons, forall_eq_or_imp]
        rw [and_iff_right hends]
  | @here cies entry stop ciePointer cursor cie initialLocation range hentry hpointer hback hcie
      hrange hcovers hfde =>
    subst hfde
    refine ⟨[], ?_, ?_⟩
    · rw [fdesBefore, if_neg (by simp)]
      rfl
    · rw [findFde_of_fde hentry hpointer hback hcie, hrange]
      dsimp only [Bind.bind, Except.bind]
      by_cases hstarts : initialLocation < target
      · rw [if_pos ((covers_pred_of_covers hpos hcovers).mpr hstarts)]
        simp [hstarts, pure, Except.pure]
      · rw [if_neg (fun hpred => hstarts ((covers_pred_of_covers hpos hcovers).mp hpred))]
        constructor
        · intro hfound
          have hle := (fdeSearch_of_findFde hfound).entry_le
          have hstart := hentry.start
          dsimp only at hle
          omega
        · intro hnone
          exact absurd hnone.1 hstarts

theorem rowOfFde_ok {row : CfiRow} (h : rowOfFde bytes target fde = .ok row) :
    ∃ cieState m, execute bytes fde.cie.instructionsEnd fde.cie none (BitVec.allOnes 64)
        ⟨fde.initialLocation, {}, []⟩ fde.cie.instructionsBegin = .ok cieState ∧
      executeRow bytes fde.stop fde.cie (some cieState) target
        ⟨fde.initialLocation, cieState, []⟩ fde.cursor = .ok m ∧
      row = ⟨fde, m.location, m.state⟩ := by
  obtain ⟨cieState, hcie, h⟩ := except_bind_ok h
  obtain ⟨m, hm, h⟩ := except_bind_ok h
  cases h
  exact ⟨cieState, m, hcie, hm, rfl⟩

theorem findRow_ok {row : CfiRow} (h : findRow bytes virtualAddress target = .ok (some row)) :
    findFde bytes virtualAddress target ∅ 0 = .ok (some row.fde) ∧
      rowOfFde bytes target row.fde = .ok row := by
  obtain ⟨found, hfound, h⟩ := except_bind_ok h
  cases found with
  | none => cases h
  | some fde =>
    obtain ⟨other, hrow, h⟩ := except_bind_ok h
    cases h
    obtain ⟨cieState, m, -, -, rfl⟩ := rowOfFde_ok hrow
    exact ⟨hfound, hrow⟩

theorem findRow_of_findFde {row : CfiRow}
    (hfde : findFde bytes virtualAddress target ∅ 0 = .ok (some fde))
    (hrow : rowOfFde bytes target fde = .ok row) :
    findRow bytes virtualAddress target = .ok (some row) := by
  unfold findRow
  rw [hfde]
  dsimp only [Bind.bind, Except.bind]
  rw [hrow]
  rfl

/-- The row of an address is that of the address before exactly when it starts earlier and no
earlier FDE ends here. -/
theorem findRow_pred_iff {row : CfiRow} (hpos : target ≠ 0)
    (h : findRow bytes virtualAddress target = .ok (some row)) :
    ∃ ranges, fdesBefore bytes virtualAddress row.fde.entry ∅ 0 = .ok ranges ∧
      (findRow bytes virtualAddress (target - 1) = .ok (some row) ↔
        row.location < target ∧ ∀ range ∈ ranges, ¬EndsAt range target) := by
  obtain ⟨hfde, hrow⟩ := findRow_ok h
  have hsearch := fdeSearch_of_findFde hfde
  have hsub := toNat_sub_one hpos
  have hne : target.toNat ≠ 0 := fun hzero => hpos (BitVec.eq_of_toNat_eq hzero)
  have hpred : target - 1 ≤ target := by
    rw [BitVec.le_def]
    omega
  obtain ⟨ranges, hranges, hiff⟩ := hsearch.pred_iff hpos
  refine ⟨ranges, hranges, ?_⟩
  obtain ⟨cieState, m, hcie, hm, hrowEq⟩ := rowOfFde_ok hrow
  have hlocation : row.location = m.location := by rw [hrowEq]
  have hstart : row.fde.initialLocation ≤ target := hsearch.covers
  have hinitial : row.fde.initialLocation ≤ row.location := by
    rw [hlocation]
    exact (executeRow_location hstart hm).1
  constructor
  · intro hfound
    obtain ⟨hfde', hrow'⟩ := findRow_ok hfound
    obtain ⟨hbegins, hnone⟩ := hiff.mp hfde'
    refine ⟨?_, hnone⟩
    obtain ⟨cieState', m', hcie', hm', hrowEq'⟩ := rowOfFde_ok hrow'
    have hlocation' : row.location = m'.location := by rw [hrowEq']
    have hbefore : row.fde.initialLocation ≤ target - 1 := by
      rw [BitVec.lt_def] at hbegins
      rw [BitVec.le_def]
      omega
    have hend := (executeRow_location hbefore hm').2
    rw [← hlocation', BitVec.le_def] at hend
    rw [BitVec.lt_def]
    omega
  · intro hcond
    obtain ⟨hearlier, hnone⟩ := hcond
    have hbegins : row.fde.initialLocation < target := by
      rw [BitVec.lt_def] at hearlier ⊢
      rw [BitVec.le_def] at hinitial
      omega
    have hbefore : row.fde.initialLocation ≤ target - 1 := by
      rw [BitVec.lt_def] at hbegins
      rw [BitVec.le_def]
      omega
    have hm' := (executeRow_iff_location_le hbefore hpred hm).mpr (by
      rw [hlocation, BitVec.lt_def] at hearlier
      rw [BitVec.le_def]
      omega)
    refine findRow_of_findFde (hiff.mpr ⟨hbegins, hnone⟩) ?_
    unfold rowOfFde
    rw [hcie]
    dsimp only [Bind.bind, Except.bind]
    rw [hm']
    exact congrArg Except.ok hrowEq.symm

end FindFde

end MiniDebugger
