import MiniDebugger.Debugger.Execution

/-!
# Runs of the debugger

A run starts with `launch` or `attach` and goes on with any operations. Each operation meets an
arbitrary script of reports and arbitrary ptrace failures, and the run continues from the state it
leaves, whether it returned or threw. `allowed` singles out the operations and results a theorem
is about.
-/

namespace MiniDebugger

open Command

/-- How an operation came back. -/
abbrev Reply := Except Exception Result

/-- A session right after `launch` or `attach`. -/
inductive Started : Session → Prop
  | launch (pid : Pid) (path : String) (s : Session) (hpos : 0 < pid)
      (hdbg : s.dbg = launched pid path s.sequence)
      (htasks : s.world.tasks = eachTask [pid] pid)
      (hstopped : ∀ tid, s.world.mode tid = none) (hknown : ∀ tid, s.world.starting tid = false)
      (hhistory : s.history = []) : Started s
  | attach (pid : Pid) (tids : List Pid) (path : String) (s : Session) (hpos : 0 < pid)
      (htids : ∀ tid ∈ tids, 0 < tid)
      (hdbg : s.dbg = attached pid tids path s.sequence)
      (htasks : s.world.tasks = eachTask (pid :: tids) pid)
      (hstopped : ∀ tid, s.world.mode tid = none) (hknown : ∀ tid, s.world.starting tid = false)
      (hhistory : s.history = []) : Started s

/-- A session that has just launched a process with this memory and these registers. -/
def Session.launch (pid : Pid) (memory : Memory) (regs : UserRegs) : Session where
  dbg := launched pid "" 0
  world := {
    memory := fun _ => memory
    tasks := eachTask [pid] pid
    regs := fun _ => regs
    debug := fun _ _ => 0
    mode := fun _ => none
    starting := fun _ => false
    message := fun _ => 0
    exe := fun _ => ""
    transient := []
    childStatus := .stopped sigstop .none
    requests := [] }

theorem started_launch {pid : Pid} (hpos : 0 < pid) (memory : Memory) (regs : UserRegs) :
    Started (Session.launch pid memory regs) :=
  .launch pid "" _ hpos rfl rfl (fun _ => rfl) (fun _ => rfl) rfl

/-- A session that has just attached to a process of two threads. -/
def Session.attachedPair : Session :=
  { Session.launch 10 (fun _ => some 0x90) { rip := 0x1000 } with
    dbg := attached 10 [11] "" 0
    world := { (Session.launch 10 (fun _ => some 0x90) { rip := 0x1000 }).world with
      tasks := eachTask [10, 11] 10 } }

theorem started_attachedPair : Started Session.attachedPair :=
  .attach 10 [11] "" _ (by decide) (by decide) rfl rfl (fun _ => rfl) (fun _ => rfl) rfl

/-- The session an operation meets: any reports and any ptrace results may be to come. -/
def Session.facing (s : Session) (script : List Wakeup) (faults : List (Option Nat)) : Session :=
  { s with script, faults }

/-- A session reached by a run, with the results of its operations, latest first. -/
inductive Run (tracees : Tracees) (allowed : Operation → Reply → Prop) :
    List Result → Session → Prop
  | start {s : Session} (h : Started s) : Run tracees allowed [] s
  | returned {log : List Result} {s t : Session} {op : Operation} {script : List Wakeup}
      {faults : List (Option Nat)} {r : Result} (h : Run tracees allowed log s)
      (hrun : op.run tracees (s.facing script faults) = .returned r t)
      (hallowed : allowed op (.ok r)) : Run tracees allowed (r :: log) t
  | raised {log : List Result} {s t : Session} {op : Operation} {script : List Wakeup}
      {faults : List (Option Nat)} {e : Exception} (h : Run tracees allowed log s)
      (hrun : op.run tracees (s.facing script faults) = .raised e t)
      (hallowed : allowed op (.error e)) : Run tracees allowed log t

/-- The session after an operation. -/
def Session.after (s : Session) (tracees : Tracees) (op : Operation) (script : List Wakeup) :
    Session :=
  ((op.run tracees) (s.facing script [])).state

theorem Session.run_of_value {tracees : Tracees} {s : Session} {op : Operation} {script : List Wakeup}
    {r : Result} (h : (op.run tracees (s.facing script [])).value? = some r) :
    op.run tracees (s.facing script []) = .returned r (s.after tracees op script) :=
  Outcome.eq_returned_of_value? h

theorem Run.after {tracees : Tracees} {allowed : Operation → Reply → Prop} {log : List Result}
    {s : Session} {r : Result} (h : Run tracees allowed log s) (op : Operation)
    (script : List Wakeup)
    (hrun : ((op.run tracees) (s.facing script [])).value? = some r)
    (hallowed : allowed op (.ok r)) : Run tracees allowed (r :: log) (s.after tracees op script) :=
  h.returned (Session.run_of_value hrun) hallowed

/-- The session after an operation that met these ptrace results and threw. -/
theorem Run.failed {tracees : Tracees} {allowed : Operation → Reply → Prop} {log : List Result}
    {s : Session} {e : Exception} (h : Run tracees allowed log s) (op : Operation)
    (script : List Wakeup) (faults : List (Option Nat))
    (hrun : ((op.run tracees) (s.facing script faults)).error? = some e)
    (hallowed : allowed op (.error e)) :
    Run tracees allowed log ((op.run tracees) (s.facing script faults)).state :=
  h.raised (Outcome.eq_raised_of_error? hrun) hallowed

/-- The smallest session with a retained domain: a launched process that forked under policy
`Both`. -/
def Session.forked (tracees : Tracees) : Session :=
  ((Session.launch 10 (fun _ => some 0) {}).after tracees (.setForkFollowPolicy .both) []).after
    tracees (.continueExecution .suppress)
    [.report { tid := 10, status := .stopped sigtrap .fork, message := 11 }]

/-- The stop reported for that fork. -/
def forkedStop : StopInfo := processEventInfo .fork 10 10 11 true 2

theorem forked_run {tracees : Tracees} {allowed : Operation → Reply → Prop}
    (hfork : ((Operation.run tracees (.continueExecution .suppress))
      (((Session.launch 10 (fun _ => some 0) {}).after tracees (.setForkFollowPolicy .both)
        []).facing [.report { tid := 10, status := .stopped sigtrap .fork, message := 11 }]
          [])).value? = some (.stop forkedStop))
    (hpolicy : allowed (.setForkFollowPolicy .both) (.ok .done))
    (hstop : allowed (.continueExecution .suppress) (.ok (.stop forkedStop))) :
    Run tracees allowed [.stop forkedStop, .done] (Session.forked tracees) :=
  ((Run.start (started_launch (by decide) _ _)).after _ _ rfl hpolicy).after _ _ hfork hstop

/-- What holds at the start and survives every operation holds throughout a run. -/
theorem Run.invariant {tracees : Tracees} {allowed : Operation → Reply → Prop}
    {I : List Result → Session → Prop} (start : ∀ s, Started s → I [] s)
    (step : ∀ log s op script faults, I log s → wp (op.run tracees)
      ⟨fun r t => allowed op (.ok r) → I (r :: log) t,
        fun e t => allowed op (.error e) → I log t, fun _ _ => True⟩ (s.facing script faults))
    {log : List Result} {s : Session} (h : Run tracees allowed log s) : I log s := by
  induction h with
  | start h => exact start _ h
  | returned _ hrun hallowed ih => exact wp_returned (step _ _ _ _ _ ih) hrun hallowed
  | raised _ hrun hallowed ih => exact wp_raised (step _ _ _ _ _ ih) hrun hallowed

end MiniDebugger
