import MiniDebugger.Debugger.ExecutionRules

/-!
# The breakpoint table of a lone process

Under the fork policy `Parent` the debugger has one process and one breakpoint table. Waiting for the
process changes the marks of the entries, and an `exec` drops them all; it neither adds an entry nor
gives one another id. `Session.Confined` says so: every entry has the id that `held` has for its
address, and no id has been issued.
-/

namespace MiniDebugger

open Command
open Std (ExtTreeMap)

/-- A lone process, with no entries in its table but those in `held`, after ids below `next`. -/
structure Session.Confined (held : Addr → Option Nat) (next : Nat) (s : Session) : Prop where
  policy : s.dbg.forkFollowPolicy = .parent
  alone : s.dbg.retainedProcesses = ∅
  entries : ∀ (a : Addr) (bp : Breakpoint), s.dbg.breakpointsByAddress[a]? = some bp →
    held a = some bp.id
  next : s.dbg.nextBreakpointId = next

/-- However a command ends, no entry has been added. -/
def confining (held : Addr → Option Nat) (next : Nat) {α : Type} :
    Post WaitCall Exception Session α where
  returned _ t := t.Confined held next
  raised _ t := t.Confined held next
  blocked _ _ := True

/-- The ids in the table. -/
def Debugger.heldIds (d : Debugger) (a : Addr) : Option Nat := d.breakpointsByAddress[a]?.map (·.id)

section Rules

variable {held : Addr → Option Nat} {next : Nat} {tracees : Tracees} {s t : Session} {tid : Pid}

theorem Session.confined (hpolicy : s.dbg.forkFollowPolicy = .parent)
    (halone : s.dbg.retainedProcesses = ∅) :
    s.Confined s.dbg.heldIds s.dbg.nextBreakpointId :=
  ⟨hpolicy, halone, fun a bp hbp => by rw [Debugger.heldIds, hbp]; rfl, rfl⟩

/-- Marking an entry as lifted or planted. -/
theorem Session.Confined.setInstalled (h : s.Confined held next) (address : Addr)
    (installed : Bool) : ∀ (a : Addr) (bp : Breakpoint),
      (s.dbg.setInstalled address installed).breakpointsByAddress[a]? = some bp →
        held a = some bp.id := by
  intro a bp hbp
  simp only [Debugger.setInstalled, ExtTreeMap.getElem?_modify] at hbp
  split at hbp
  · rename_i heq
    obtain ⟨old, hold, rfl⟩ := Option.map_eq_some_iff.mp hbp
    have heq : address = a := by simpa using heq
    exact h.entries a old (heq ▸ hold)
  · exact h.entries a bp hbp

theorem Session.Confined.alike (h : s.Confined held next) (ht : s.Alike t) :
    t.Confined held next := by
  obtain ⟨_, _, _, rfl⟩ := ht
  exact ⟨h.policy, h.alone, h.entries, h.next⟩

theorem Session.Confined.childRan (h : s.Confined held next) {child : Pid}
    (ht : s.ChildRan child t) : t.Confined held next := by
  obtain ⟨_, _, _, _, _, _, rfl, -, -⟩ := ht
  exact ⟨h.policy, h.alone, h.entries, h.next⟩

/-! ## Waiting -/

theorem confining_waitFor {call : WaitCall} {requested : Pid} (h : s.Confined held next) :
    wp (waitFor tracees call requested) (confining held next) s := by
  refine wp_waitFor ?_ ?_ ?_ ?_ ?_ ?_ trivial
  · exact fun _ => ⟨h.policy, h.alone, h.entries, h.next⟩
  · exact fun _ _ _ _ _ => ⟨h.policy, h.alone, h.entries, h.next⟩
  · exact fun _ _ _ _ _ _ _ _ _ _ => ⟨h.policy, h.alone, h.entries, h.next⟩
  · exact fun _ _ _ _ _ _ _ _ => ⟨h.policy, h.alone, h.entries, h.next⟩
  · exact fun _ _ _ _ _ _ _ _ _ => ⟨h.policy, h.alone, h.entries, h.next⟩
  · exact fun _ _ _ _ _ _ _ _ _ => ⟨h.policy, h.alone, h.entries, h.next⟩

theorem confining_classifySignalStop {expectedSingleStep : Bool} {event : WaitEvent}
    (h : s.Confined held next) :
    wp (classifySignalStop expectedSingleStep event) (confining held next) s := by
  refine wp_classifySignalStop ?_ ?_ ?_ ?_ ?_ ?_
  · exact fun info _ _ _ _ => ⟨h.policy, h.alone, h.entries, h.next⟩
  · exact fun info _ _ _ _ _ => ⟨h.policy, h.alone, h.entries, h.next⟩
  · rintro t info - - - - ⟨_, _, _, rfl⟩ - -
    exact ⟨h.policy, h.alone, h.entries, h.next⟩
  · rintro t info - - - - ⟨_, _, _, rfl⟩ - -
    exact ⟨h.policy, h.alone, h.entries, h.next⟩
  · rintro t - - - ⟨_, _, _, rfl⟩
    refine wp_classifyTrap ?_ ?_ ?_
    · intro bp faults info _ _ _ _ _ _
      have := h.setInstalled ((s.world.regs event.tid).rip - 1) false
      exact ⟨h.policy, h.alone, this, h.next⟩
    · exact fun faults info _ _ _ => ⟨h.policy, h.alone, h.entries, h.next⟩
    · exact fun faults regs snapshots e _ => ⟨h.policy, h.alone, h.entries, h.next⟩
  · exact fun t e ht _ => h.alike ht

theorem confining_classifyEnded {event : WaitEvent}
    {processReason finalReason threadReason : StopReason} (h : s.Confined held next) :
    wp (classifyEnded event processReason finalReason threadReason) (confining held next) s := by
  have hnone : ∀ (survivor : Pid) (domain : RetainedProcessDomain),
      s.dbg.retainedProcesses[survivor]? = some domain → False := by
    intro survivor domain hdomain
    rw [h.alone] at hdomain
    simp at hdomain
  refine wp_classifyEnded ?_ ?_ ?_ ?_ ?_
  · exact fun survivor domain e _ hdomain _ => (hnone survivor domain hdomain).elim
  · exact fun survivor domain _ hdomain _ => (hnone survivor domain hdomain).elim
  · exact fun _ _ => ⟨h.policy, h.alone, h.entries, h.next⟩
  · exact fun _ _ => ⟨h.policy, h.alone, h.entries, h.next⟩
  · exact fun _ _ => ⟨h.policy, h.alone, h.entries, h.next⟩

theorem confining_classifyFork (h : s.Confined held next) :
    wp (classifyFork tid) (confining held next) s := by
  have hparent : ∀ {policy}, s.dbg.forkFollowPolicy = policy → policy = .parent :=
    fun hpolicy => hpolicy.symm.trans h.policy
  refine wp_classifyFork ?_ ?_ ?_ ?_ ?_ ?_
  · exact fun faults e => ⟨h.policy, h.alone, h.entries, h.next⟩
  · exact fun t child childStop inherited info _ _ hpolicy => by cases hparent hpolicy
  · exact fun child faults sequence debug memory requests info _ _ hpolicy => by
      cases hparent hpolicy
  · rintro child t info - - ⟨_, _, _, _, _, _, rfl, -, -⟩ -
    exact ⟨h.policy, h.alone, h.entries, h.next⟩
  · rintro child t e - ⟨_, _, _, _, _, _, rfl, -, -⟩
    exact ⟨h.policy, h.alone, h.entries, h.next⟩
  · exact fun child t e _ hpolicy => by cases hparent hpolicy

theorem confining_classifyVfork (h : s.Confined held next) :
    wp (classifyVfork tracees tid) (confining held next) s := by
  refine wp_classifyVfork (fun t e ht => h.childRan ht) (fun _ _ => trivial) ?_
  rintro t faults requests ⟨_, _, _, _, _, _, rfl, -, -⟩
  simp only [awaitVforkDone, wait, wp_bind]
  generalize hu : Session.mk _ _ _ _ _ _ = u
  have hconfined : u.Confined held next := by
    subst hu
    exact ⟨h.policy, h.alone, h.entries, h.next⟩
  refine wp_mono (confining_waitFor hconfined) ?_ (fun _ _ h => h) (fun _ _ _ => trivial)
  intro done t ht
  simp only [wp_ite, wp_raise, wp_bind]
  split
  · exact ht
  · refine Lowlevel.wp_getEventMessage (fun faults => ?_) (fun faults e _ => ?_)
    · dsimp only
      split <;> exact ⟨ht.policy, ht.alone, ht.entries, ht.next⟩
    · exact ⟨ht.policy, ht.alone, ht.entries, ht.next⟩

/-- An `exec` drops every entry. -/
theorem confining_classifyExec (h : s.Confined held next) :
    wp (classifyExec tid) (confining held next) s := by
  simp only [classifyExec, wp_bind]
  refine Lowlevel.wp_getEventMessage (fun faults => ?_)
    (fun faults e _ => ⟨h.policy, h.alone, h.entries, h.next⟩)
  simp only [wp_ite]
  split
  · exact ⟨h.policy, h.alone, h.entries, h.next⟩
  have hempty : ∀ (a : Addr) (bp : Breakpoint),
      (∅ : ExtTreeMap Addr Breakpoint)[a]? = some bp → held a = some bp.id := by simp
  simp only [wp_bind]
  refine wp_tryProcess (fun p _ => ?_) (fun _ _ => ⟨h.policy, h.alone, h.entries, h.next⟩)
  simp only [wp_modifyDebugger, Lowlevel.setOptions]
  exact Lowlevel.wp_attempt (fun faults => ⟨h.policy, h.alone, hempty, h.next⟩)
    fun faults errno => ⟨h.policy, h.alone, hempty, h.next⟩

theorem confining_classifyClone {event : WaitEvent} (h : s.Confined held next) :
    wp (classifyClone event) (confining held next) s := by
  unfold classifyClone
  cases event.newTid with
  | none => exact h
  | some newTid =>
    simp only [wp_bind, wp_view, wp_ite, wp_raise]
    split
    · exact h
    · exact ⟨h.policy, h.alone, h.entries, h.next⟩

theorem confining_waitPass {expectedSingleStep : Bool} (h : s.Confined held next) :
    wp (waitPass tracees expectedSingleStep) (confining held next) s := by
  simp only [waitPass, wp_bind]
  refine wp_waitActiveProcess (fun e => h) ?_
  refine wp_mono (confining_waitFor h) (fun event t ht => ?_) (fun _ _ ht => ht)
    (fun _ _ _ => trivial)
  show wp (classifyEvent tracees expectedSingleStep event) (confining held next) t
  unfold classifyEvent
  cases event.kind with
  | exited => exact confining_classifyEnded ht
  | signaled => exact confining_classifyEnded ht
  | stopped =>
    cases event.ptraceEvent with
    | exec => rw [wp_map]; exact confining_classifyExec ht
    | vfork => rw [wp_map]; exact confining_classifyVfork ht
    | vforkDone => exact ht
    | fork => rw [wp_map]; exact confining_classifyFork ht
    | clone =>
      rw [wp_bind]
      exact confining_classifyClone ht
    | none => rw [wp_map]; exact confining_classifySignalStop ht
    | other => rw [wp_map]; exact confining_classifySignalStop ht

theorem confining_waitAndClassify {expectedSingleStep : Bool} (h : s.Confined held next) :
    wp (waitAndClassify tracees expectedSingleStep) (confining held next) s := by
  refine wp_waitAndClassify (I := Session.Confined held next) (fun u hu => ?_) (fun _ _ => trivial) h
  refine wp_mono (confining_waitPass hu) (fun r t ht => ?_) (fun _ _ ht => ht)
    (fun _ _ _ => trivial)
  cases r with
  | none => exact ht
  | some info => exact ht

/-! ## Resuming -/

theorem confining_resumeAndWait (h : s.Confined held next) {kind : ResumeKind}
    {policy : SignalPolicy} : wp (resumeAndWait tracees kind policy) (confining held next) s :=
  wp_resumeAndWait (fun _ _ => ⟨h.policy, h.alone, h.entries, h.next⟩)
    fun _ _ _ _ _ => confining_waitAndClassify ⟨h.policy, h.alone, h.entries, h.next⟩

theorem confining_finishDisplacedStep {pending : PendingBreakpointStep} {exposeSingleStep : Bool}
    {info : StopInfo} (h : s.Confined held next) :
    wp (finishDisplacedStep pending exposeSingleStep info) (confining held next) s := by
  refine wp_finishDisplacedStep ?_ ?_ ?_
  · exact fun tid bp faults stopInfo _ _ _ _ =>
      ⟨h.policy, h.alone, h.setInstalled pending.address true, h.next⟩
  · exact fun stopInfo _ => ⟨h.policy, h.alone, h.entries, h.next⟩
  · exact fun faults e _ => ⟨h.policy, h.alone, h.entries, h.next⟩

theorem confining_stepOver {pending : PendingBreakpointStep} {exposeSingleStep : Bool}
    (h : s.Confined held next) :
    wp (stepOverPendingBreakpoint tracees pending exposeSingleStep) (confining held next) s := by
  refine wp_stepOverPendingBreakpoint (fun faults e => ⟨h.policy, h.alone, h.entries, h.next⟩) ?_
  intro faults
  have hresumed : (s.resumed .step pending.tid 0 s.dbg.pendingSignals faults).Confined held next :=
    ⟨h.policy, h.alone, h.entries, h.next⟩
  refine wp_mono (confining_waitAndClassify hresumed) (fun info t ht => ?_) (fun _ _ ht => ht)
    (fun _ _ _ => trivial)
  dsimp only
  split
  · exact ht
  · exact confining_finishDisplacedStep ht

theorem confining_continueExecution (h : s.Confined held next) {policy : SignalPolicy} :
    wp (continueExecution tracees policy) (confining held next) s := by
  refine wp_continueExecution (fun e => h) (fun _ => confining_resumeAndWait h) ?_
  intro pending _ _ _ _
  refine wp_mono (confining_stepOver h) (fun info t ht => ?_) (fun _ _ ht => ht)
    (fun _ _ _ => trivial)
  dsimp only
  split
  · exact ht
  · exact confining_resumeAndWait ht

theorem confining_singleStep (h : s.Confined held next) {policy : SignalPolicy} :
    wp (singleStep tracees policy) (confining held next) s :=
  wp_singleStep (fun _ => h) (fun _ => confining_resumeAndWait h)
    fun _ _ _ _ _ => confining_stepOver h

/-! ## The other operations -/

theorem quiet_peekWord (tid : Pid) (address : Addr) : Quiet (Lowlevel.peekWord tid address) := by
  refine (Lowlevel.quiet_attempt _).bind fun _ => (Within.read _).bind fun memory s => ?_
  rw [wp_ite]
  split
  · exact refl_of Session.Alike s
  · exact ⟨refl_of Session.Alike s, rfl⟩

/-- Reading memory changes nothing that matters. -/
theorem within_readMemory (address : Addr) (length : Nat) :
    Within Session.Alike (fun _ => True) (readMemory address length) := by
  have hwords : ∀ tid n offset,
      Quiet (Lowlevel.readMemory.words tid address length n offset) := by
    intro tid n
    induction n with
    | zero => exact fun _ => Within.pure _
    | succ n ih =>
      exact fun _ => (quiet_peekWord _ _).bind fun _ => (ih _).bind fun _ => Within.pure _
  intro s
  rw [readMemory, wp_bind]
  refine wp_stoppedTid (fun _ _ _ => ?_) fun _ _ => ⟨refl_of Session.Alike s, trivial⟩
  exact (hwords _ _ _).wp (fun _ _ ht => ht) fun _ _ ht _ => ⟨ht, trivial⟩

theorem confining_addWriteWatchpoint {address : Addr} {length : Nat} (h : s.Confined held next) :
    wp (addWriteWatchpoint address length) (confining held next) s := by
  refine wp_addWriteWatchpoint ?_ (fun t e ht => h.alike ht)
  rintro t snapshot ⟨_, _, _, rfl⟩ - -
  exact ⟨h.policy, h.alone, h.entries, h.next⟩

theorem confining_removeWatchpoint {id : Nat} (h : s.Confined held next) :
    wp (removeWatchpoint id) (confining held next) s := by
  refine wp_removeWatchpoint h ?_ (fun t e ht => h.alike ht)
  rintro t ⟨_, _, _, rfl⟩
  exact ⟨h.policy, h.alone, h.entries, h.next⟩

theorem confining_selectThread (h : s.Confined held next) :
    wp (selectThread tid) (confining held next) s :=
  wp_selectThread (fun _ => ⟨h.policy, h.alone, h.entries, h.next⟩) fun _ => h

end Rules

end MiniDebugger
