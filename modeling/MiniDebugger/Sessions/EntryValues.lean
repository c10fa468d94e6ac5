import MiniDebugger.Dwarf.StackValues
import MiniDebugger.Sessions.Observations

/-!
# Entry values

`DW_OP_entry_value(DW_OP_reg5)` asks for the RDI a function was entered with.
`evaluate_entry_rdi` answers with the snapshot of the last breakpoint hit of the thread at the entry
of the function. A function that is entered again while no breakpoint is set there leaves the
snapshot of the former entry in place.

The calls and returns of a thread are not visible to the debugger. `ThreadCalls` puts them between
the records of a session, so that the call stack at a stop can be compared with the snapshots.
-/

namespace MiniDebugger

open Command

def kDwOpReg5 : Byte := 0x55

/-- `breakpoint_register_snapshot` -/
def Debugger.breakpointRegisterSnapshot (d : Debugger) (tid : Pid) (address : Addr) :
    Option UserRegs :=
  d.breakpointRegisterSnapshots.lookup (tid, address)

/-- The tests of `evaluate_entry_rdi` on the expression behind its first byte. -/
def requireEntryRdi (expression : List Byte) : Parse Unit := do
  let nestedLength ← readDwarfUleb expression expression.length "DW_OP_entry_value length"
  if nestedLength ≠ 1 then
    throw (.runtimeError
      "DW_OP_entry_value only supports the compiler-proven nested DW_OP_reg5 form")
  requireOp expression kDwOpReg5
    "DW_OP_entry_value only supports the compiler-proven nested DW_OP_reg5 form"
  requireOp expression kDwOpStackValue
    "DW_OP_entry_value requires the compiler-proven trailing DW_OP_stack_value"
  requireEnd expression "unsupported trailing operations after DW_OP_entry_value"

/-- Where the function starts in the process. -/
def Die.runtimeEntry (subprogram : Die) (loadBias : Except Exception Word) :
    Except Exception Addr :=
  match subprogram.attribute kDwAtLowPc with
  | some lowPc =>
    if lowPc.form ≠ kDwFormAddr then
      throw (.runtimeError "DW_OP_entry_value requires a subprogram with supported DW_AT_low_pc")
    else do
      let bias ← loadBias
      if BitVec.allOnes 64 - bias < lowPc.number then
        throw (.runtimeError "subprogram entry runtime address overflows")
      return lowPc.number + bias
  | none =>
    throw (.runtimeError "DW_OP_entry_value requires a subprogram with supported DW_AT_low_pc")

/-- `evaluate_entry_rdi`; `loadBias` is what `load_bias` returns for the module. -/
def evaluateEntryRdi (expression : List Byte) (dbg : Debugger) (loadBias : Except Exception Word)
    (subprogram : Die) : Except Exception Word := do
  let _ ← requireEntryRdi expression 1
  let runtimeEntry ← subprogram.runtimeEntry loadBias
  match dbg.breakpointRegisterSnapshot dbg.process.currentTid runtimeEntry with
  | some snapshot => return snapshot.rdi
  | none => throw (.runtimeError
      "DW_OP_entry_value requires an observed function-entry breakpoint snapshot")

/-- A value is the RDI of the snapshot at the entry. -/
theorem exists_of_evaluateEntryRdi {expression : List Byte} {dbg : Debugger}
    {loadBias : Except Exception Word} {subprogram : Die} {value : Word}
    (h : evaluateEntryRdi expression dbg loadBias subprogram = .ok value) :
    ∃ entry regs, subprogram.runtimeEntry loadBias = .ok entry ∧
      dbg.breakpointRegisterSnapshots.lookup (dbg.process.currentTid, entry) = some regs ∧
      value = regs.rdi := by
  obtain ⟨_, _, h⟩ := Checks.bind_eq_ok.mp h
  obtain ⟨entry, hentry, h⟩ := Checks.bind_eq_ok.mp h
  cases hsnapshot : dbg.breakpointRegisterSnapshot dbg.process.currentTid entry with
  | none =>
    rw [hsnapshot] at h
    cases h
  | some regs =>
    rw [hsnapshot] at h
    exact ⟨entry, regs, hentry, hsnapshot, (Except.ok.inj h).symm⟩

/-! ## The calls of a thread -/

/-- A thread enters the function at `entry`, or returns from the one it is in. -/
inductive CallEvent where
  | call (entry : Addr) (rdi : Word)
  | ret
  deriving DecidableEq

/-- A call that has not returned: the function, the RDI it was entered with and how many events
there were before. -/
structure Activation where
  entry : Addr
  rdi : Word
  serial : Nat
  deriving DecidableEq

/-- The call stack after the events (latest first), the innermost activation first. -/
def activations : List CallEvent → List Activation
  | [] => []
  | .call entry rdi :: older => ⟨entry, rdi, older.length⟩ :: activations older
  | .ret :: older => (activations older).tail

/-- An activation was entered by the call that its number points at. -/
theorem exists_call_of_mem_activations {events : List CallEvent} {activation : Activation}
    (h : activation ∈ activations events) : ∃ newer older,
      events = newer ++ .call activation.entry activation.rdi :: older ∧
      activation.serial = older.length := by
  induction events with
  | nil => cases h
  | cons event older ih =>
    cases event with
    | call entry rdi =>
      obtain rfl | hold := List.mem_cons.mp h
      · exact ⟨[], older, rfl, rfl⟩
      · obtain ⟨newer, oldest, hsplit, hserial⟩ := ih hold
        exact ⟨_ :: newer, oldest, by rw [hsplit]; rfl, hserial⟩
    | ret =>
      obtain ⟨newer, oldest, hsplit, hserial⟩ := ih (List.mem_of_mem_tail h)
      exact ⟨_ :: newer, oldest, by rw [hsplit]; rfl, hserial⟩

/-- The debugger waits and has the thread running. -/
def WaitRecord.LetsRun (tid : Pid) : WaitRecord → Prop
  | .waits _ dbg => dbg.process.taskState tid = some .running
  | .takes _ _ _ => False

instance (tid : Pid) : DecidablePred (WaitRecord.LetsRun tid)
  | .waits _ _ => inferInstanceAs (Decidable (_ = _))
  | .takes _ _ _ => .isFalse id

/-- A record and, latest first, what the thread has done since the record before it. -/
abbrev CallStep := List CallEvent × WaitRecord

/-- Before this record the thread has called nothing, or it was free to. -/
def CallStep.Follows (tid : Pid) (later earlier : CallStep) : Prop :=
  later.1 = [] ∨ earlier.2.LetsRun tid

instance (tid : Pid) : DecidableRel (CallStep.Follows tid) :=
  fun _ _ => inferInstanceAs (Decidable (_ ∨ _))

/-- A hit at the entry of a function is the execution of its first instruction. -/
def CallStep.Enters (tid : Pid) (entries : List Addr) : CallStep → Prop
  | (events, .takes dbg world d) => ∀ entry ∈ entries,
      (WaitRecord.takes dbg world d).HitInstalled tid entry → events.head? = some (.call entry d.regs.rdi)
  | (_, .waits _ _) => True

instance (tid : Pid) (entries : List Addr) : DecidablePred (CallStep.Enters tid entries)
  | (events, .takes dbg world d) => List.decidableBAll (fun entry =>
      (WaitRecord.takes dbg world d).HitInstalled tid entry →
        events.head? = some (.call entry d.regs.rdi)) entries
  | (_, .waits _ _) => .isTrue trivial

instance (tid : Pid) (entries : List Addr) (steps : List CallStep) :
    Decidable (∀ step ∈ steps, step.Enters tid entries) :=
  List.decidableBAll (CallStep.Enters tid entries) steps

/-- The calls of a thread in a session, in which functions start at `entries`. -/
structure ThreadCalls (tid : Pid) (entries : List Addr) (s : Session) where
  /-- What the thread did before the session. -/
  earlier : List CallEvent
  steps : List CallStep
  records : steps.map Prod.snd = s.history
  free : steps.IsChain (CallStep.Follows tid)
  entered : ∀ step ∈ steps, step.Enters tid entries

namespace ThreadCalls

variable {tid : Pid} {entries : List Addr} {s : Session}

def events (calls : ThreadCalls tid entries s) : List CallEvent :=
  calls.steps.flatMap Prod.fst ++ calls.earlier

/-- The currently executing activation. -/
def current (calls : ThreadCalls tid entries s) : Option Activation := (activations calls.events).head?

/-- The activation began with the hit that the newest record of `u` is about. -/
def EnteredAt (calls : ThreadCalls tid entries s) (activation : Activation) (u : Session) : Prop :=
  ∃ newer step older, calls.steps = newer ++ step :: older ∧
    u.history = step.2 :: older.map Prod.snd ∧ step.2.HitInstalled tid activation.entry ∧
    activation.serial + 1 = ((step :: older).flatMap Prod.fst ++ calls.earlier).length

/-- Then the thread was stopped with the RDI of the activation. -/
theorem rdi_of_enteredAt (calls : ThreadCalls tid entries s) {activation : Activation}
    {u : Session} (hcurrent : calls.current = some activation)
    (hentry : activation.entry ∈ entries) (henters : calls.EnteredAt activation u) :
    ∃ dbg world d older, u.history = .takes dbg world d :: older ∧
      d.regs.rdi = activation.rdi := by
  obtain ⟨newer, step, older, hsteps, hhistory, hhit, hserial⟩ := henters
  obtain ⟨events, record⟩ := step
  have hin : (events, record) ∈ calls.steps := by simp [hsteps]
  cases record with
  | waits call dbg => exact hhit.elim
  | takes dbg world d =>
    refine ⟨dbg, world, d, _, hhistory, ?_⟩
    have hhead : events.head? = some (.call activation.entry d.regs.rdi) :=
      calls.entered _ hin activation.entry hentry hhit
    obtain ⟨before, hevents⟩ := List.head?_eq_some_iff.mp hhead
    -- the call the activation is numbered by is the one that was hit
    obtain ⟨newer', older', hsplit, hnumber⟩ :=
      exists_call_of_mem_activations (List.mem_of_mem_head? hcurrent)
    have hsplit' : calls.events = newer.flatMap Prod.fst ++
        .call activation.entry d.regs.rdi ::
          (before ++ older.flatMap Prod.fst ++ calls.earlier) := by
      unfold ThreadCalls.events
      rw [hsteps, hevents]
      simp
    have hlength : older'.length =
        (before ++ older.flatMap Prod.fst ++ calls.earlier).length := by
      rw [hevents] at hserial
      simp only [List.flatMap_cons, List.cons_append, List.length_cons, List.append_assoc] at hserial
      rw [← hnumber, List.append_assoc]
      omega
    have hsame := (List.append_inj' (hsplit.symm.trans hsplit') (by simp [hlength])).2
    have hcall := (List.cons.inj hsame).1
    exact (CallEvent.call.inj hcall).2.symm

end ThreadCalls

/-! ## Entry values and activations -/

/-- A value is the RDI of the current activation. -/
def EntryValuesCurrent (tracees : Tracees) : Prop :=
  ∀ (log : List Result) (s : Session), Run tracees (fun _ _ => True) log s →
    ∀ (entries : List Addr) (calls : ThreadCalls s.dbg.process.currentTid entries s)
      (activation : Activation) (expression : List Byte) (loadBias : Except Exception Word)
      (subprogram : Die) (value : Word),
      calls.current = some activation → activation.entry ∈ entries →
      subprogram.runtimeEntry loadBias = .ok activation.entry →
      evaluateEntryRdi expression s.dbg loadBias subprogram = .ok value → value = activation.rdi

/-- What the debugger has instead. -/
structure EntryValues (tracees : Tracees) : Prop where
  /-- A value is the RDI of the selected thread at a breakpoint it has hit at the entry. -/
  observed : ∀ {allowed : Operation → Reply → Prop} {log : List Result} {s : Session},
    Run tracees allowed log s →
    ∀ {expression : List Byte} {loadBias : Except Exception Word} {subprogram : Die} {value : Word},
      evaluateEntryRdi expression s.dbg loadBias subprogram = .ok value →
      ∃ entry, subprogram.runtimeEntry loadBias = .ok entry ∧ ∃ record ∈ s.history, ∃ regs,
        record.Observes ((s.dbg.process.currentTid, entry), regs) ∧ value = regs.rdi
  /-- It is the RDI of the current activation if that began with a breakpoint stop of the thread,
  it has hit no breakpoint there since, and no other process had a snapshot under that key. -/
  current : ∀ {s u t : Session} {op : Operation} {script : List Wakeup} {faults : List (Option Nat)}
    {info : StopInfo}, op.run tracees (s.facing script faults) = .returned (.stop info) u →
    Later tracees u t → t.dbg.process.currentTid = info.tid →
    ∀ {entries : List Addr} (calls : ThreadCalls info.tid entries t) {activation : Activation},
      calls.current = some activation → activation.entry ∈ entries →
      info.reason = .breakpoint → info.breakpointAddress = some activation.entry →
      calls.EnteredAt activation u →
      (t.Since u.history fun record => ∀ regs,
        ¬record.Observes ((info.tid, activation.entry), regs)) →
      (∀ (pid : Pid) (domain : RetainedProcessDomain), u.dbg.retainedProcesses[pid]? = some domain →
        domain.breakpointRegisterSnapshots.lookup (info.tid, activation.entry) = none) →
      ∀ {expression : List Byte} {loadBias : Except Exception Word} {subprogram : Die}
        {value : Word}, subprogram.runtimeEntry loadBias = .ok activation.entry →
        evaluateEntryRdi expression t.dbg loadBias subprogram = .ok value → value = activation.rdi

/-- A snapshot that was there at a breakpoint stop of the thread holds the registers of the stop. -/
theorem Session.Fresh.rdi_eq {u : Session} {info : StopInfo} {entry : Addr} {regs : UserRegs}
    {dbg : Debugger} {world : World} {d : Delivery} {older : List WaitRecord} (h : u.Fresh info)
    (haddress : info.breakpointAddress = some entry)
    (hsnapshot : u.dbg.breakpointRegisterSnapshots.lookup (info.tid, entry) = some regs)
    (hhistory : u.history = .takes dbg world d :: older) : regs.rdi = d.regs.rdi := by
  obtain ⟨address, dbg', world', d', older', haddress', hlookup, hhistory', _, hregs⟩ := h
  cases haddress.symm.trans haddress'
  cases hhistory.symm.trans hhistory'
  have hsame : regs = u.world.regs info.tid := Option.some.inj (hsnapshot.symm.trans hlookup)
  rw [hsame, hregs]

/-- Entry values are those of the last breakpoint hit at the entry, in every run. -/
theorem entryValues (tracees : Tracees) : EntryValues tracees where
  observed := by
    intro allowed log s hrun expression loadBias subprogram value hvalue
    obtain ⟨entry, regs, hentry, hsnapshot, hrdi⟩ := exists_of_evaluateEntryRdi hvalue
    obtain ⟨new, hhistory, hall⟩ := hrun.recorded
    obtain hfalse | ⟨record, hrecord, hobserves⟩ := hall (_, regs) (.inl hsnapshot)
    · exact hfalse.elim
    · exact ⟨entry, hentry, record, by simpa [hhistory] using hrecord, regs, hobserves, hrdi⟩
  current := by
    intro s u t op script faults info hrun hlater htid entries calls activation hcurrent hentry
      hreason haddress henters hsince hother expression loadBias subprogram value hruntime hvalue
    have hfresh : u.Fresh info :=
      (wp_returned (watched_run op (s.facing script faults).recorded_refl) hrun).2 info rfl hreason
    obtain ⟨dbg, world, d, older, hstop, hrdi⟩ :=
      calls.rdi_of_enteredAt hcurrent hentry henters
    obtain ⟨entry, regs, hruntime', hsnapshot, hregs⟩ := exists_of_evaluateEntryRdi hvalue
    cases hruntime.symm.trans hruntime'
    rw [htid] at hsnapshot
    obtain ⟨new, hhistory, hall⟩ := hlater.recorded
    obtain hbefore | ⟨record, hrecord, hobserves⟩ := hall (_, regs) (.inl hsnapshot)
    · obtain hactive | ⟨pid, domain, hdomain, hheld⟩ := hbefore
      · rw [hregs, hfresh.rdi_eq haddress hactive hstop, hrdi]
      · cases (hother pid domain hdomain).symm.trans hheld
    · -- no newer record is an observation of the entry
      obtain ⟨new', hhistory', hnone⟩ := hsince
      have hnew : new = new' := List.append_cancel_right (hhistory.symm.trans hhistory')
      exact absurd hobserves (hnone record (hnew ▸ hrecord) regs)

/-! A function at `0x1000` is entered with 1 in RDI and stops at its breakpoint. The breakpoint is
removed, the function returns and is entered again with 2, and stops at `0x1010`. -/

/-- `DW_OP_entry_value(DW_OP_reg5); DW_OP_stack_value` -/
def entryRdiExpression : List Byte := [0xa3, 1, kDwOpReg5, kDwOpStackValue]

/-- The function at `0x1000`. -/
def functionAt1000 : Die where
  offset := 0
  tag := kDwTagSubprogram
  attributes := [{ name := kDwAtLowPc, form := kDwFormAddr, number := 0x1000 }]

def hitWith (address : Addr) (rdi : Word) : Delivery where
  tid := 10
  status := .stopped sigtrap .none
  cause := .int3 address
  regs := { rip := address + 1, rdi }

/-- The first stop at the entry. -/
def Session.enteredOnce : Session :=
  ((Session.launch 10 (fun _ => some 0x90) {}).after anyTracees (.addBreakpoint 0x1000) []).after
    anyTracees (.continueExecution .suppress) [.report (hitWith 0x1000 1)]

def enteredStop : StopInfo where
  reason := .breakpoint
  value := sigtrap
  breakpointAddress := some 0x1000
  tid := 10
  sequence := 1

/-- The stop in the second call. -/
def Session.enteredTwice : Session :=
  ((Session.enteredOnce.after anyTracees (.removeBreakpoint 1) []).after anyTracees
    (.addBreakpoint 0x1010) []).after anyTracees (.continueExecution .suppress)
      [.report (hitWith 0x1010 2)]

theorem enteredOnce_run :
    Run anyTracees (fun _ _ => True) [.stop enteredStop, .breakpoint 1]
      Session.enteredOnce :=
  ((Run.start (started_launch (by decide) _ _)).after (.addBreakpoint 0x1000) [] rfl trivial).after
    (.continueExecution .suppress) [.report (hitWith 0x1000 1)] (by decide +kernel) trivial

theorem enteredTwice_run : ∃ log, Run anyTracees (fun _ _ => True) log Session.enteredTwice :=
  ⟨_, ((enteredOnce_run.after (.removeBreakpoint 1) [] (r := .found true) (by decide +kernel)
    trivial).after (.addBreakpoint 0x1010) [] (r := .breakpoint 2) (by decide +kernel) trivial).after
    (.continueExecution .suppress) [.report (hitWith 0x1010 2)]
    (r := .stop Session.enteredTwice.dbg.stopInfo) (by decide +kernel) trivial⟩

/-- The thread calls the function with 1 after the first wait began. -/
def callsOnce : ThreadCalls 10 [0x1000] Session.enteredOnce where
  earlier := []
  steps := [[.call 0x1000 1], []].zip Session.enteredOnce.history
  records := List.map_snd_zip (by decide +kernel)
  free := by decide +kernel
  entered := by decide +kernel

/-- It returns and calls the function with 2 after the second wait began. -/
def callsTwice : ThreadCalls 10 [0x1000] Session.enteredTwice where
  earlier := []
  steps := [[.call 0x1000 2, .ret], [], [.call 0x1000 1], []].zip Session.enteredTwice.history
  records := List.map_snd_zip (by decide +kernel)
  free := by decide +kernel
  entered := by decide +kernel

/-- At the first stop the value is that of the call. -/
theorem entryValues_enteredOnce :
    evaluateEntryRdi entryRdiExpression Session.enteredOnce.dbg (.ok 0) functionAt1000 =
      .ok 1 := by
  suffices h : ∀ value, evaluateEntryRdi entryRdiExpression Session.enteredOnce.dbg (.ok 0)
      functionAt1000 = .ok value → value = 1 by
    have hok : (evaluateEntryRdi entryRdiExpression Session.enteredOnce.dbg (.ok 0)
        functionAt1000).toBool = true := by decide +kernel
    cases hvalue : evaluateEntryRdi entryRdiExpression Session.enteredOnce.dbg (.ok 0)
        functionAt1000 with
    | ok value => rw [h value hvalue]
    | error e =>
      rw [hvalue] at hok
      cases hok
  intro value h
  obtain ⟨hit, wait, hhistory⟩ := List.length_eq_two.mp
    (show Session.enteredOnce.history.length = 2 by decide +kernel)
  have hhit : ∀ record ∈ Session.enteredOnce.history.head?, record.HitInstalled 10 0x1000 := by
    decide +kernel
  have hrun : Operation.run anyTracees (.continueExecution .suppress)
      (((Session.launch 10 (fun _ => some 0x90) {}).after anyTracees (.addBreakpoint 0x1000)
        []).facing [.report (hitWith 0x1000 1)] []) =
      .returned (.stop enteredStop) Session.enteredOnce :=
    Outcome.eq_returned_of_value? (by decide +kernel)
  have hempty : Session.enteredOnce.dbg.retainedProcesses.isEmpty = true := by decide +kernel
  have hcurrent : callsOnce.current = some ⟨0x1000, 1, 0⟩ := by decide +kernel
  refine (entryValues anyTracees).current hrun .refl (by decide +kernel) callsOnce hcurrent
    (by decide) rfl rfl ?_ Session.since_refl
    (fun pid domain hdomain => ?_) (by decide) h
  · refine ⟨[], ([.call 0x1000 1], hit), [([], wait)], ?_, hhistory, ?_, rfl⟩
    · show List.zip _ Session.enteredOnce.history = _
      rw [hhistory]
      rfl
    · exact hhit hit (by rw [hhistory]; rfl)
  · rw [Std.ExtTreeMap.isEmpty_iff.mp hempty] at hdomain
    cases hdomain

/-- In the second call the value is still the RDI of the first one. -/
theorem not_entryValuesCurrent : ¬EntryValuesCurrent anyTracees := by
  intro h
  obtain ⟨log, hrun⟩ := enteredTwice_run
  have htid : Session.enteredTwice.dbg.process.currentTid = 10 := by decide +kernel
  have hcurrent := h log _ hrun [0x1000]
  rw [htid] at hcurrent
  have hvalue := hcurrent callsTwice ⟨0x1000, 2, 2⟩ entryRdiExpression (.ok 0) functionAt1000 1
    (by decide +kernel) (by decide) (by decide) (by decide +kernel)
  exact absurd hvalue (by decide)

end MiniDebugger
