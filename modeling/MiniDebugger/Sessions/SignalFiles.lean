import Mathlib.Data.Finset.Card
import MiniDebugger.Debugger.Runs
import MiniDebugger.Sessions.Numbering

/-!
# Signals on file

A signal that stops a thread is taken out of its way: it is filed in `pendingSignals`, of the
active process or of a retained one, and put back by the request that resumes or detaches the
thread, if it is put back at all. The counts here are for one thread and one signal: the requests
that inject it, the files it is in, and the stops reported for it.

`Silent` says of a command that it neither injects the signal nor touches a file.
-/

namespace MiniDebugger

open Command
open Std (ExtTreeMap)

/-- Does the request pass `signal` to `tid`? -/
def Request.injects (tid : Pid) (signal : Nat) : Request → Bool
  | .resume _ receiver sent | .detach receiver sent => receiver = tid ∧ sent = signal
  | .kill _ => false

/-- `WSTOPSIG(status) == signal` -/
def WaitStatus.stopsWith (signal : Nat) : WaitStatus → Bool
  | .stopped reported _ => reported = signal
  | _ => false

/-- `PTRACE_EVENT_VFORK` -/
def WaitStatus.isVfork : WaitStatus → Bool
  | .stopped _ .vfork => true
  | _ => false

/-- The stops of `tid` by `signal` in a report; the report of a `vfork` is followed by those of
its child. -/
def Delivery.brings (tid : Pid) (signal : Nat) (d : Delivery) : Nat :=
  (if d.tid = tid ∧ d.status.stopsWith signal = true then 1 else 0) +
    if d.status.isVfork = true ∧ World.child d = tid then
      d.transient.countP (·.stopsWith signal) else 0

/-- Is the signal on file for the thread? -/
def filed (signals : ExtTreeMap Pid Nat) (tid : Pid) (signal : Nat) : Bool :=
  signals[tid]? = some signal

/-- The retained processes that have the signal on file. -/
def filedIn (retained : ExtTreeMap Pid RetainedProcessDomain) (tid : Pid) (signal : Nat) :
    Finset Pid :=
  retained.keys.toFinset.filter fun pid =>
    (retained[pid]?).any fun domain => filed domain.pendingSignals tid signal

/-- How often a request has passed the signal to the thread. -/
def Session.injected (s : Session) (tid : Pid) (signal : Nat) : Nat :=
  s.world.requests.countP (·.injects tid signal)

/-- How often the signal is on file for the thread. -/
def Session.onFile (s : Session) (tid : Pid) (signal : Nat) : Nat :=
  (filed s.dbg.pendingSignals tid signal).toNat +
    (filedIn s.dbg.retainedProcesses tid signal).card

/-- How often the thread has been reported as stopped by the signal. -/
def Session.stopped (s : Session) (tid : Pid) (signal : Nat) : Nat :=
  (s.reports.map fun report => report.2.brings tid signal).sum

/-! ## Records -/

section Records

variable {signals : ExtTreeMap Pid Nat} {retained : ExtTreeMap Pid RetainedProcessDomain}
  {tid other pid : Pid} {signal value : Nat} {domain : RetainedProcessDomain}

theorem mem_filedIn : pid ∈ filedIn retained tid signal ↔
    ∃ domain, retained[pid]? = some domain ∧ filed domain.pendingSignals tid signal = true := by
  simp only [filedIn, Finset.mem_filter, List.mem_toFinset, ExtTreeMap.mem_keys]
  constructor
  · rintro ⟨_, hany⟩
    simpa [Option.any_eq_true] using hany
  · rintro ⟨domain, hdomain, hfiled⟩
    refine ⟨?_, by simpa [hdomain] using hfiled⟩
    rw [ExtTreeMap.mem_iff_isSome_getElem?, hdomain]
    rfl

@[simp] theorem filed_empty : filed ∅ tid signal = false := by simp [filed]

@[simp] theorem filedIn_empty : filedIn ∅ tid signal = ∅ := by
  ext pid
  simp [mem_filedIn]

theorem filed_insert_le : (filed (signals.insert other value) tid signal).toNat ≤
    (filed signals tid signal).toNat + if other = tid ∧ value = signal then 1 else 0 := by
  unfold filed
  rw [ExtTreeMap.getElem?_insert]
  by_cases hother : other = tid
  · subst hother
    by_cases hvalue : value = signal <;> simp [hvalue]
  · simp [hother]

theorem filed_erase_le :
    (filed (signals.erase other) tid signal).toNat ≤ (filed signals tid signal).toNat := by
  unfold filed
  rw [ExtTreeMap.getElem?_erase]
  by_cases hother : other = tid <;> simp [hother]

theorem filed_erase_self : filed (signals.erase tid) tid signal = false := by
  simp [filed]

/-- A retained process that leaves takes its file along. -/
theorem card_filedIn_erase (h : retained[pid]? = some domain) :
    (filedIn (retained.erase pid) tid signal).card +
      (filed domain.pendingSignals tid signal).toNat = (filedIn retained tid signal).card := by
  have herase : filedIn (retained.erase pid) tid signal =
      (filedIn retained tid signal).erase pid := by
    ext q
    simp only [mem_filedIn, Finset.mem_erase, ExtTreeMap.getElem?_erase]
    by_cases hq : pid = q
    · simp [hq]
    · simp [hq, Ne.symm hq]
  rw [herase]
  by_cases hfiled : filed domain.pendingSignals tid signal = true
  · rw [hfiled, Bool.toNat_true]
    exact Finset.card_erase_add_one (mem_filedIn.mpr ⟨domain, h, hfiled⟩)
  · have hnot : pid ∉ filedIn retained tid signal := by
      intro hmem
      obtain ⟨domain', hdomain', hfiled'⟩ := mem_filedIn.mp hmem
      rw [h] at hdomain'
      cases hdomain'
      exact hfiled hfiled'
    rw [Finset.erase_eq_of_notMem hnot, Bool.eq_false_iff.mpr hfiled]
    rfl

/-- A process that is retained brings its file, and replaces that of one of its name. -/
theorem card_filedIn_insert_le : (filedIn (retained.insert pid domain) tid signal).card ≤
    (filedIn retained tid signal).card + (filed domain.pendingSignals tid signal).toNat := by
  have hsub : filedIn (retained.insert pid domain) tid signal ⊆
      filedIn retained tid signal ∪
        if filed domain.pendingSignals tid signal = true then {pid} else ∅ := by
    intro q hq
    obtain ⟨kept, hkept, hfiled⟩ := mem_filedIn.mp hq
    rw [ExtTreeMap.getElem?_insert] at hkept
    split at hkept
    · rename_i heq
      cases hkept
      have heq : pid = q := by simpa using heq
      simp [hfiled, heq]
    · exact Finset.mem_union_left _ (mem_filedIn.mpr ⟨kept, hkept, hfiled⟩)
  refine (Finset.card_le_card hsub).trans ((Finset.card_union_le _ _).trans ?_)
  cases filed domain.pendingSignals tid signal <;> simp

end Records

/-! ## Commands that pass no signal -/

/-- What a session has on record about signals. -/
structure SignalRecord where
  held : ExtTreeMap Pid Nat
  retained : ExtTreeMap Pid RetainedProcessDomain
  reports : List (World × Delivery)
  issued : Nat

/-- The session has this record, and has injected the signal no more often than it says. -/
def SignalRecord.Covers (R : SignalRecord) (tid : Pid) (signal : Nat) (s : Session) : Prop :=
  s.dbg.pendingSignals = R.held ∧ s.dbg.retainedProcesses = R.retained ∧ s.reports = R.reports ∧
    s.injected tid signal ≤ R.issued

/-- The command injects nothing and leaves the record alone. -/
abbrev Silent {α : Type} (tid : Pid) (signal : Nat) (x : Act α) : Prop :=
  ∀ R : SignalRecord, Preserves (R.Covers tid signal) x

section Silent

variable {α β : Type} {tid other child : Pid} {signal : Nat}

theorem Silent.pure (a : α) : Silent tid signal (Pure.pure a : Act α) :=
  fun _ => Preserves.pure a

theorem Silent.raise (e : Exception) : Silent tid signal (Command.raise e : Act α) :=
  fun _ => Preserves.raise e

theorem Silent.read (f : Session → α) : Silent tid signal (Command.read f : Act α) :=
  fun _ => Preserves.read f

theorem Silent.view (f : Debugger → α) : Silent tid signal (MiniDebugger.view f) :=
  Silent.read _

theorem Silent.bind {x : Act α} {f : α → Act β} (hx : Silent tid signal x)
    (hf : ∀ a, Silent tid signal (f a)) : Silent tid signal (x >>= f) :=
  fun R => (hx R).bind fun a => hf a R

theorem Silent.handle {x : Act α} {h : Exception → Act α} (hx : Silent tid signal x)
    (hh : ∀ e, Silent tid signal (h e)) : Silent tid signal (Command.handle x h) :=
  fun R => (hx R).handle fun e => hh e R

theorem Silent.ite {c : Prop} [Decidable c] {x y : Act α} (hx : Silent tid signal x)
    (hy : Silent tid signal y) : Silent tid signal (if c then x else y) :=
  fun R => Preserves.ite (hx R) (hy R)

theorem Silent.check {c : Prop} [Decidable c] {e : Exception} {f : β → Act α} {x : Act α}
    (hx : Silent tid signal x) : Silent tid signal (if c then Command.raise e >>= f else x) :=
  fun R => Preserves.check (hx R)

theorem Silent.when {c : Bool} {x : Act Unit} (hx : Silent tid signal x) :
    Silent tid signal (Command.when c x) := by
  cases c with
  | true => exact hx
  | false => exact Silent.pure ()

theorem Silent.forEach {f : β → Act Unit} (hf : ∀ b, Silent tid signal (f b)) (bs : List β) :
    Silent tid signal (Command.forEach f bs) :=
  fun R => Preserves.forEach (fun b => hf b R) bs

theorem Silent.of_quiet {x : Act α} (hx : Quiet x) : Silent tid signal x := by
  intro R s h
  refine hx.wp (fun a t ht => ?_) (fun e t ht _ => ?_) <;> obtain ⟨_, _, _, rfl⟩ := ht <;> exact h

/-- A change that neither the records nor the requests have a part in. -/
theorem Silent.update {f : Session → Session}
    (hheld : ∀ s, (f s).dbg.pendingSignals = s.dbg.pendingSignals)
    (hretained : ∀ s, (f s).dbg.retainedProcesses = s.dbg.retainedProcesses)
    (hreports : ∀ s, (f s).reports = s.reports)
    (hissued : ∀ s, (f s).injected tid signal = s.injected tid signal) :
    Silent tid signal (Command.update f) :=
  fun _ => Preserves.update fun s h => ⟨(hheld s).trans h.1, (hretained s).trans h.2.1,
    (hreports s).trans h.2.2.1, (hissued s).le.trans h.2.2.2⟩

theorem silent_modifyDebugger {f : Debugger → Debugger}
    (hheld : ∀ d, (f d).pendingSignals = d.pendingSignals)
    (hretained : ∀ d, (f d).retainedProcesses = d.retainedProcesses) :
    Silent tid signal (modifyDebugger f) :=
  Silent.update (fun s => hheld s.dbg) (fun s => hretained s.dbg) (fun _ => rfl) fun _ => rfl

theorem silent_modifyProcess (f : Process → Process) : Silent tid signal (modifyProcess f) :=
  silent_modifyDebugger (fun _ => rfl) fun _ => rfl

theorem silent_tryProcess (f : Process → Except Exception Process) :
    Silent tid signal (tryProcess f) :=
  fun _ _ h => wp_tryProcess (fun _ _ => h) fun _ _ => h

theorem silent_modifyWorld {f : World → World} (hf : ∀ w, (f w).requests = w.requests) :
    Silent tid signal (Lowlevel.modifyWorld f) :=
  Silent.update (fun _ => rfl) (fun _ => rfl) (fun _ => rfl) fun s => by
    simp only [Session.injected, hf]

/-- Add a request that does not pass the signal. -/
theorem silent_request {r : Request} {f : World → World}
    (hf : ∀ w, (f w).requests = r :: w.requests) (hr : r.injects tid signal = false) :
    Silent tid signal (Lowlevel.modifyWorld f) :=
  Silent.update (fun _ => rfl) (fun _ => rfl) (fun _ => rfl) fun s => by
    simp [Session.injected, hf, hr]

/-! ### Requests -/

theorem silent_attempt (operation : String) : Silent tid signal (Lowlevel.attempt operation) :=
  Silent.of_quiet (Lowlevel.quiet_attempt _)

theorem silent_detach {sent : Nat} (h : other ≠ tid ∨ sent ≠ signal) :
    Silent tid signal (Lowlevel.detach other sent) :=
  (silent_attempt _).bind fun _ => silent_request (fun _ => rfl) <| by
    simp only [Request.injects, decide_eq_false_iff_not]
    tauto

theorem silent_kill (pid : Pid) : Silent tid signal (Lowlevel.kill pid) :=
  silent_request (fun _ => rfl) rfl

theorem silent_resume {kind : ResumeKind} {operation : String} {sent : Nat}
    (h : other ≠ tid ∨ sent ≠ signal) :
    Silent tid signal (Lowlevel.resume kind operation other sent) :=
  (silent_attempt _).bind fun _ => silent_request (fun _ => rfl) <| by
    simp only [Request.injects, decide_eq_false_iff_not]
    tauto

theorem silent_getEventMessage (other : Pid) :
    Silent tid signal (Lowlevel.getEventMessage other) :=
  (silent_attempt _).bind fun _ => Silent.read _

theorem silent_getRegisters (other : Pid) : Silent tid signal (Lowlevel.getRegisters other) :=
  (silent_attempt _).bind fun _ => Silent.read _

theorem silent_setRegisters (other : Pid) (regs : UserRegs) :
    Silent tid signal (Lowlevel.setRegisters other regs) :=
  (silent_attempt _).bind fun _ => silent_modifyWorld fun _ => rfl

theorem silent_writeByte (other : Pid) (address : Addr) (value : Byte) :
    Silent tid signal (Lowlevel.writeByte other address value) :=
  fun _ _ h => Lowlevel.wp_writeByte (fun _ _ => h) fun _ _ _ => h

/-! ### Breakpoints and the watchpoint -/

theorem silent_stoppedTid : Silent tid signal stoppedTid :=
  fun _ _ h => wp_stoppedTid (fun _ _ _ => h) fun _ _ => h

theorem silent_prepareBreakpointHit (address : Addr) (regs : UserRegs) (other : Pid) :
    Silent tid signal (prepareBreakpointHit address regs other) := by
  refine (Silent.view _).bind fun table => ?_
  cases table[address]? with
  | none => exact Silent.raise _
  | some bp =>
    refine Silent.check ?_
    refine Silent.bind (silent_modifyDebugger (fun _ => rfl) fun _ => rfl) fun _ => ?_
    exact (silent_setRegisters _ _).bind fun _ => (silent_writeByte _ _ _).bind fun _ =>
      silent_modifyDebugger (fun _ => rfl) fun _ => rfl

theorem silent_restoreWatchpointRegisters : Silent tid signal restoreWatchpointRegisters :=
  fun _ _ h => wp_restoreWatchpointRegisters
    (fun _ ht => by obtain ⟨_, _, _, rfl⟩ := ht; exact h)
    (fun _ _ ht _ => by obtain ⟨_, _, _, rfl⟩ := ht; exact h) fun _ _ _ _ => h

theorem silent_clearWatchpoint : Silent tid signal clearWatchpoint :=
  silent_modifyDebugger (fun _ => rfl) fun _ => rfl

theorem silent_writeOriginalBytes (other : Pid) : Silent tid signal (writeOriginalBytes other) :=
  (Silent.view _).bind fun _ => Silent.forEach
    (fun _ => Silent.ite (silent_writeByte _ _ _) (Silent.pure _)) _

theorem silent_restoreAllBreakpoints : Silent tid signal restoreAllBreakpoints := by
  refine silent_stoppedTid.bind fun _ => (Silent.view _).bind fun _ => ?_
  refine Silent.bind (Silent.forEach (fun entry => ?_) _) fun _ =>
    silent_modifyDebugger (fun _ => rfl) fun _ => rfl
  refine Silent.ite ((silent_writeByte _ _ _).bind fun _ => ?_) (Silent.pure _)
  exact silent_modifyDebugger (fun _ => rfl) fun _ => rfl

/-! ### Stops -/

theorem silent_report (info : StopInfo) : Silent tid signal (report info) :=
  Silent.bind (silent_modifyDebugger (fun _ => rfl) fun _ => rfl) fun _ => Silent.pure _

theorem silent_makeStop (reason : StopReason) (value : Nat) (other : Pid) :
    Silent tid signal (makeStop reason value other) := fun _ _ h => h

theorem silent_processEventStop (kind : ProcessEventKind) (other parent child : Pid)
    (retainsChild : Bool) :
    Silent tid signal (processEventStop kind other parent child retainsChild) :=
  (silent_makeStop _ _ _).bind fun _ => silent_report _

theorem silent_classifyTrap (other : Pid) : Silent tid signal (classifyTrap other) := by
  refine (silent_getRegisters _).bind fun _ => (Silent.view _).bind fun _ => Silent.ite ?_ ?_
  · exact (silent_prepareBreakpointHit _ _ _).bind fun _ => (silent_makeStop _ _ _).bind fun _ =>
      silent_report _
  · exact (silent_makeStop _ _ _).bind fun _ => silent_report _

theorem silent_classifyClone (event : WaitEvent) : Silent tid signal (classifyClone event) := by
  unfold classifyClone
  cases event.newTid with
  | none => exact Silent.raise _
  | some newTid =>
    refine (Silent.view _).bind fun _ => Silent.check ?_
    exact silent_modifyDebugger (fun _ => rfl) fun _ => rfl

theorem silent_finishDisplacedStep (pending : PendingBreakpointStep) (exposeSingleStep : Bool)
    (info : StopInfo) : Silent tid signal (finishDisplacedStep pending exposeSingleStep info) :=
  fun _ _ h => wp_finishDisplacedStep (fun _ _ _ _ _ _ _ _ => h) (fun _ _ => h) fun _ _ _ => h

/-! ### Operations -/

theorem silent_addBreakpoint (address : Addr) : Silent tid signal (addBreakpoint address) :=
  fun _ _ h => wp_addBreakpoint (fun _ _ _ _ _ _ _ _ => h) fun _ _ => h

theorem Debugger.pendingSignals_clearPendingStep (d : Debugger) (address : Addr) :
    (d.clearPendingStep address).pendingSignals = d.pendingSignals := by
  unfold Debugger.clearPendingStep
  split <;> rfl

theorem Debugger.retainedProcesses_clearPendingStep (d : Debugger) (address : Addr) :
    (d.clearPendingStep address).retainedProcesses = d.retainedProcesses := by
  unfold Debugger.clearPendingStep
  split <;> rfl

theorem silent_removeBreakpoint (id : Nat) : Silent tid signal (removeBreakpoint id) := by
  refine (Silent.view _).bind fun ids => ?_
  cases ids[id]? with
  | none => exact Silent.pure _
  | some address =>
    refine (Silent.view _).bind fun table => (Silent.view _).bind fun _ => ?_
    have forget : Silent tid signal (do
        modifyDebugger fun d => (d.clearPendingStep address).eraseBreakpoint id address
        return true) :=
      Silent.bind (silent_modifyDebugger
        (fun d => d.pendingSignals_clearPendingStep address)
        fun d => d.retainedProcesses_clearPendingStep address) fun _ => Silent.pure _
    cases table[address]? with
    | none => exact forget
    | some bp =>
      exact Silent.ite (silent_stoppedTid.bind fun _ => (silent_writeByte _ _ _).bind
        fun _ => forget) forget

theorem silent_addWriteWatchpoint (address : Addr) (length : Nat) :
    Silent tid signal (addWriteWatchpoint address length) := by
  refine silent_stoppedTid.bind fun owner => (Silent.view _).bind fun _ => Silent.check ?_
  cases watchpointLengthEncoding length with
  | none => exact Silent.raise _
  | some encoding =>
    have slot : ∀ disabled dr0 dr6 dr7,
        Silent tid signal (writeDebugSlot owner disabled dr0 dr6 dr7) :=
      fun _ _ _ _ => Silent.of_quiet (quiet_writeDebugSlot _ _ _ _ _)
    have get : ∀ index, Silent tid signal (Lowlevel.getDebugRegister owner index) :=
      fun _ => Silent.of_quiet (Lowlevel.quiet_getDebugRegister _ _)
    refine Silent.check ((get 0).bind fun dr0 => (get 6).bind fun dr6 =>
      (get 7).bind fun dr7 => Silent.check ?_)
    refine ((slot _ _ _ _).handle fun e => ((slot _ _ _ _).handle fun _ => Silent.pure _).bind
      fun _ => Silent.raise e).bind fun _ => (Silent.view _).bind fun id => ?_
    exact Silent.bind (silent_modifyDebugger (fun _ => rfl) fun _ => rfl) fun _ => Silent.pure _

theorem silent_removeWatchpoint (id : Nat) : Silent tid signal (removeWatchpoint id) :=
  (Silent.view _).bind fun _ => Silent.ite (Silent.pure _)
    ((Silent.view _).bind fun _ => Silent.check
      (silent_restoreWatchpointRegisters.bind fun _ =>
        silent_clearWatchpoint.bind fun _ => Silent.pure _))

theorem silent_writeMemory (address : Addr) (bytes : List Byte) :
    Silent tid signal (writeMemory address bytes) := by
  refine silent_stoppedTid.bind fun _ => Silent.check (Silent.check (Silent.check
    ((Silent.view _).bind fun _ => Silent.check ((Silent.view _).bind fun _ =>
      Silent.check ?_))))
  refine Silent.bind (Silent.forEach (fun cell => ?_) _) fun _ =>
    Silent.forEach (fun cell => ?_) _
  · exact (Silent.view _).bind fun _ => Silent.ite (silent_writeByte _ _ _) (Silent.pure _)
  · exact silent_modifyDebugger (fun _ => rfl) fun _ => rfl

theorem silent_selectThread (other : Pid) : Silent tid signal (selectThread other) :=
  fun _ _ h => wp_selectThread (fun _ => h) fun _ => h

theorem silent_setForkFollowPolicy (policy : ForkFollowPolicy) :
    Silent tid signal (setForkFollowPolicy policy) :=
  fun _ _ h => wp_setForkFollowPolicy (fun _ => h) fun _ => h

end Silent

end MiniDebugger
