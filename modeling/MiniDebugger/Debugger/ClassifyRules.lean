import MiniDebugger.Debugger.Classify

/-!
# What one pass of `wait_and_classify` does

For each branch, the states in which it can end. `wp_waitAndClassify` is the rule for the loop:
what one pass preserves holds at every pass.
-/

namespace MiniDebugger

open Command
open Function (update)
open Std (ExtTreeMap)

section Rules

variable {s : Session} {tid : Pid}

/-- The stop `makeStop` builds. -/
def Session.stopInfo (s : Session) (reason : StopReason) (value : Nat) (tid : Pid) : StopInfo :=
  { reason, value, tid, sequence := s.sequence + 1 }

/-- Number a stop and record it. -/
def Session.stopWith (s : Session) (info : StopInfo) : Session :=
  { s with sequence := s.sequence + 1, dbg := { s.dbg with stopInfo := info } }

theorem wp_makeStop_report {reason : StopReason} {value : Nat}
    {Q : Post WaitCall Exception Session StopInfo}
    (h : Q.returned (s.stopInfo reason value tid) (s.stopWith (s.stopInfo reason value tid))) :
    wp (makeStop reason value tid >>= report) Q s := h

/-! ## Exits -/

/-- The debugger once a retained domain has taken the place of the active process. -/
def Debugger.promoted (d : Debugger) (survivor : Pid) (domain : RetainedProcessDomain)
    (terminal : StopInfo) : Debugger :=
  { d.activate domain with
    retainedProcesses := d.retainedProcesses.erase survivor
    stopInfo := terminal }

theorem erase_insert_of_not_mem {V : Type} {m : ExtTreeMap Pid V} {p : Pid} {v : V}
    (h : p ∉ m) : (m.insert p v).erase p = m := by
  apply ExtTreeMap.ext_getElem?
  intro k
  have hp : m[p]? = none := by simpa using h
  grind

theorem wp_promoteSurvivor {survivor : Pid} {domain : RetainedProcessDomain}
    {reason : StopReason} {event : WaitEvent} {Q : Post WaitCall Exception Session StopInfo}
    (hdomain : s.dbg.retainedProcesses[survivor]? = some domain)
    (collided : ∀ e, s.dbg.process.pid ∈ s.dbg.retainedProcesses → Q.raised e { s with
      sequence := s.sequence + 1
      dbg := { s.dbg.activate domain with
        retainedProcesses := s.dbg.retainedProcesses.erase survivor } })
    (returned : Q.returned (s.stopInfo reason event.value event.tid) { s with
      sequence := s.sequence + 1
      dbg := s.dbg.promoted survivor domain (s.stopInfo reason event.value event.tid) }) :
    wp (promoteSurvivor survivor reason event) Q s := by
  simp only [promoteSurvivor, wp_bind, wp_view, wp_makeStop, wp_modifyDebugger]
  refine wp_swapActiveProcess hdomain collided fun hfree => ?_
  simp only [wp_report, Debugger.swapped, Debugger.activate, erase_insert_of_not_mem hfree]
  exact returned

theorem firstStoppedRetainedProcess_some {d : Debugger} {survivor : Pid}
    (h : d.firstStoppedRetainedProcess = some survivor) :
    ∃ domain, d.retainedProcesses[survivor]? = some domain ∧ domain.process.state = .stopped := by
  simp only [Debugger.firstStoppedRetainedProcess, Option.map_eq_some_iff] at h
  obtain ⟨entry, hfind, rfl⟩ := h
  refine ⟨entry.2, ?_, by simpa using List.find?_some hfind⟩
  exact ExtTreeMap.mem_toList_iff_getElem?_eq_some.mp (List.mem_of_find?_eq_some hfind)

theorem firstStoppedRetainedProcess_none {d : Debugger}
    (h : d.firstStoppedRetainedProcess = none) {pid : Pid} {domain : RetainedProcessDomain}
    (hdomain : d.retainedProcesses[pid]? = some domain) : domain.process.state ≠ .stopped := by
  simp only [Debugger.firstStoppedRetainedProcess, Option.map_eq_none_iff,
    List.find?_eq_none] at h
  simpa using h _ (ExtTreeMap.mem_toList_iff_getElem?_eq_some.mpr hdomain)

theorem wp_classifyEnded {event : WaitEvent} {processReason finalReason threadReason : StopReason}
    {Q : Post WaitCall Exception Session (Option StopInfo)}
    (collided : ∀ survivor domain e, s.dbg.process.taskStates.isEmpty = true →
      s.dbg.retainedProcesses[survivor]? = some domain →
      s.dbg.process.pid ∈ s.dbg.retainedProcesses → Q.raised e { s with
        sequence := s.sequence + 1
        dbg := { (s.dbg.forgetTask event.tid).activate domain with
          retainedProcesses := s.dbg.retainedProcesses.erase survivor } })
    (promoted : ∀ survivor domain, s.dbg.process.taskStates.isEmpty = true →
      s.dbg.retainedProcesses[survivor]? = some domain → domain.process.state = .stopped →
      Q.returned (some (s.stopInfo processReason event.value event.tid)) { s with
        sequence := s.sequence + 1
        dbg := (s.dbg.forgetTask event.tid).promoted survivor domain
          (s.stopInfo processReason event.value event.tid) })
    (final : s.dbg.process.taskStates.isEmpty = true →
      (∀ (pid : Pid) (domain : RetainedProcessDomain),
        s.dbg.retainedProcesses[pid]? = some domain → domain.process.state ≠ .stopped) →
      Q.returned (some (s.stopInfo finalReason event.value event.tid))
        ({ s with dbg := s.dbg.forgetTask event.tid }.stopWith
          (s.stopInfo finalReason event.value event.tid)))
    (running : s.dbg.process.taskStates.isEmpty = false → s.dbg.process.state ≠ .stopped →
      Q.returned none { s with dbg := s.dbg.forgetTask event.tid })
    (thread : s.dbg.process.taskStates.isEmpty = false → s.dbg.process.state = .stopped →
      Q.returned (some (s.stopInfo threadReason event.value event.tid))
        ({ s with dbg := s.dbg.forgetTask event.tid }.stopWith
          (s.stopInfo threadReason event.value event.tid))) :
    wp (classifyEnded event processReason finalReason threadReason) Q s := by
  simp only [classifyEnded, wp_bind, wp_modifyDebugger, wp_view, wp_ite, id]
  split
  · rename_i hempty
    rcases hfirst : (s.dbg.forgetTask event.tid).firstStoppedRetainedProcess with _ | survivor
    · exact final hempty fun pid domain h => firstStoppedRetainedProcess_none hfirst h
    · obtain ⟨domain, hdomain, hstopped⟩ := firstStoppedRetainedProcess_some hfirst
      rw [wp_bind]
      exact wp_promoteSurvivor hdomain (fun e h => collided survivor domain e hempty hdomain h)
        (promoted survivor domain hempty hdomain hstopped)
  · rename_i hempty
    have hempty : s.dbg.process.taskStates.isEmpty = false := Bool.eq_false_iff.mpr hempty
    split
    · exact running hempty ‹_›
    · exact thread hempty (not_not.mp ‹_›)

/-! ## Stops -/

theorem wp_classifyExec {Q : Post WaitCall Exception Session StopInfo} (hpos : 0 < tid)
    (hmessage : s.world.message tid ≤ pidMax)
    (replaced : ∀ faults info sequence path,
      info.reason = .exec → info.tid = tid →
      Q.returned info { s with
        faults, sequence
        dbg := { (s.dbg.discardImageState) with
          process := s.dbg.process.singleTask tid, executablePath := path, stopInfo := info } })
    (lost : s.nextFails = true → ∀ faults e, e.isPtraceError = true → Q.raised e { s with faults })
    (raised : ∀ faults e, e.isPtraceError = true → Q.raised e { s with
      faults
      dbg := { s.dbg.discardImageState with process := s.dbg.process.singleTask tid } }) :
    wp (classifyExec tid) Q s := by
  simp only [classifyExec, wp_bind]
  refine Lowlevel.wp_getEventMessage_tail (fun _ => ?_) (fun hfails e he => lost hfails _ e he)
  simp only [if_neg (not_lt.mpr hmessage), wp_bind]
  refine wp_tryProcess (fun p hp => ?_) (fun e he => ?_)
  · rw [Process.collapseAfterExec, if_neg (not_le.mpr hpos)] at hp
    cases hp
    simp only [wp_modifyDebugger, Lowlevel.setOptions]
    refine Lowlevel.wp_attempt (fun faults => ?_) (fun faults errno => raised faults _ rfl)
    exact replaced faults _ (s.sequence + 1) _ rfl rfl
  · rw [Process.collapseAfterExec, if_neg (not_le.mpr hpos)] at he
    cases he

theorem wp_classifyClone {event : WaitEvent} {newTid : Pid}
    {Q : Post WaitCall Exception Session Unit} (hnew : event.newTid = some newTid)
    (announced : s.dbg.watchpoint = none → Q.returned () { s with
      dbg := { s.dbg with
        pendingThreadStarts := s.dbg.pendingThreadStarts.insert newTid } })
    (raised : ∀ e, s.dbg.watchpoint ≠ none → Q.raised e s) : wp (classifyClone event) Q s := by
  simp only [classifyClone, hnew, wp_bind, wp_view, wp_ite, wp_raise]
  split
  · rename_i h
    exact raised _ (by simpa [Option.ne_none_iff_isSome] using h)
  · rename_i h
    exact announced (by simpa using h)

theorem wp_classifyTrap {Q : Post WaitCall Exception Session StopInfo}
    (hit : ∀ bp faults info,
      s.dbg.breakpointsByAddress[(s.world.regs tid).rip - 1]? = some bp → bp.installed = true →
      (s.world.regs tid).rip ≠ 0 → info.reason = .breakpoint → info.tid = tid →
      info.breakpointAddress = some ((s.world.regs tid).rip - 1) →
      Q.returned info { (s.hit tid ((s.world.regs tid).rip - 1) bp
        { s.world.regs tid with rip := (s.world.regs tid).rip - 1 }).stopWith info with faults })
    (trap : ∀ faults info,
      ¬((s.world.regs tid).rip ≠ 0 ∧ hasEntry s.dbg ((s.world.regs tid).rip - 1) true = true) →
      info.reason = .trap → info.tid = tid →
      Q.returned info { s.stopWith info with faults })
    (raised : ∀ faults regs snapshots e, e.isPtraceError = true → Q.raised e { s with
      faults
      world := { s.world with regs }
      dbg := { s.dbg with breakpointRegisterSnapshots := snapshots } }) :
    wp (classifyTrap tid) Q s := by
  simp only [classifyTrap, wp_bind]
  refine Lowlevel.wp_getRegisters (fun faults => ?_) (fun faults e he => raised faults _ _ e he)
  simp only [wp_view, wp_ite]
  split
  · rename_i h
    obtain ⟨hrip, hentry⟩ := h
    simp only [hasEntry, Option.any_eq_true, beq_iff_eq] at hentry
    obtain ⟨bp, hbp, hin⟩ := hentry
    simp only [wp_bind]
    refine wp_prepareBreakpointHit hbp hin (fun faults => ?_)
      (fun faults regs snapshots e he => raised faults regs snapshots e he)
    exact hit bp faults _ hbp hin hrip rfl rfl rfl
  · exact trap faults _ ‹_› rfl rfl

theorem wp_classifySignalStop {expectedSingleStep : Bool} {event : WaitEvent}
    {Q : Post WaitCall Exception Session StopInfo}
    (created : ∀ info, event.tid ∈ s.dbg.pendingThreadStarts →
      info.reason = .threadCreated → info.tid = event.tid → info.value = event.value →
      Q.returned info ({ s with dbg := { s.dbg with
        pendingThreadStarts := s.dbg.pendingThreadStarts.erase event.tid } }.stopWith info))
    (signal : ∀ info, event.tid ∉ s.dbg.pendingThreadStarts → event.value ≠ sigtrap →
      info.reason = .signal → info.tid = event.tid → info.value = event.value →
      Q.returned info ({ s with dbg := { s.dbg with
        pendingSignals := s.dbg.pendingSignals.insert event.tid event.value } }.stopWith info))
    (watchpoint : ∀ t info, event.tid ∉ s.dbg.pendingThreadStarts → event.value = sigtrap →
      (s.dbg.ownedWatchpoint event.tid).isSome = true →
      s.world.debug event.tid 6 &&& dr6Breakpoint0 ≠ 0 → s.Alike t →
      info.reason = .watchpoint → info.tid = event.tid →
      Q.returned info { t with dbg := { s.dbg with stopInfo := info } })
    (stepped : ∀ t info, event.tid ∉ s.dbg.pendingThreadStarts → event.value = sigtrap →
      ((s.dbg.ownedWatchpoint event.tid).isSome = true →
        s.world.debug event.tid 6 &&& dr6Breakpoint0 = 0) →
      expectedSingleStep = true → s.Alike t → info.reason = .singleStep → info.tid = event.tid →
      Q.returned info { t with dbg := { s.dbg with stopInfo := info } })
    (trapped : ∀ t, event.tid ∉ s.dbg.pendingThreadStarts → event.value = sigtrap →
      expectedSingleStep = false → s.Alike t → wp (classifyTrap event.tid) Q t)
    (raised : ∀ t e, s.Alike t → e.isPtraceError = true → Q.raised e t) :
    wp (classifySignalStop expectedSingleStep event) Q s := by
  simp only [classifySignalStop, wp_bind, wp_view, wp_ite]
  split
  · rename_i hnew
    exact created _ (by simpa using hnew) rfl rfl rfl
  rename_i hnew
  have hnew : event.tid ∉ s.dbg.pendingThreadStarts := by simpa using hnew
  split
  · exact signal _ hnew ‹_› rfl rfl rfl
  rename_i hsig
  have hsig : event.value = sigtrap := not_not.mp hsig
  refine wp_classifyWatchpointStop (fun t h hquiet => ?_) (fun t info h howned hdr hreason htid => ?_)
    raised
  · simp only [wp_ite]
    split
    · obtain ⟨faults, sequence, debug, rfl⟩ := h
      exact stepped { s with faults, sequence := sequence + 1, world := { s.world with debug } } _
        hnew hsig hquiet ‹_› ⟨_, _, _, rfl⟩ rfl rfl
    · exact trapped t hnew hsig (Bool.eq_false_iff.mpr ‹_›) h
  · obtain ⟨faults, sequence, debug, rfl⟩ := h
    exact watchpoint { s with faults, sequence, world := { s.world with debug } } info hnew hsig
      howned hdr ⟨_, _, _, rfl⟩ hreason htid

/-! ## The loop -/

/-- The task `wait_active_process` waits for. -/
def Debugger.waitTarget (d : Debugger) : Pid :=
  if d.retainedProcesses.isEmpty then -1 else d.process.currentTid

theorem wp_waitActiveProcess {tracees : Tracees} {Q : Post WaitCall Exception Session WaitEvent}
    (idle : ∀ e, Q.raised e s)
    (waits : wp (waitFor tracees (.active s.dbg.waitTarget) s.dbg.waitTarget) Q s) :
    wp (waitActiveProcess tracees) Q s := by
  simp only [waitActiveProcess, waitCurrent, wait, wp_bind, wp_view, wp_ite, wp_raise]
  unfold Debugger.waitTarget at waits
  by_cases h : s.dbg.retainedProcesses.isEmpty = true
  · simpa [h] using waits
  · rw [if_neg h] at waits
    rw [if_pos (by simpa using h)]
    split
    · exact idle _
    · exact waits

theorem wp_waitLoop {tracees : Tracees} {expectedSingleStep : Bool} {I : Session → Prop}
    {Q : Post WaitCall Exception Session StopInfo}
    (pass : ∀ s, I s → wp (waitPass tracees expectedSingleStep)
      ⟨fun r t => match r with
        | some info => Q.returned info t
        | none => I t, Q.raised, Q.blocked⟩ s)
    (spent : ∀ s, I s → Q.blocked s.dbg.waitCall s) :
    ∀ fuel s, I s → wp (waitLoop tracees expectedSingleStep fuel) Q s := by
  intro fuel
  induction fuel with
  | zero => exact spent
  | succ fuel ih =>
    intro s hs
    rw [waitLoop, wp_bind]
    refine wp_mono (pass s hs) ?_ (fun _ _ h => h) (fun _ _ h => h)
    rintro (_ | info) t ht
    · exact ih t ht
    · exact ht

/-- What holds before every wait gives what holds at the reported stop. -/
theorem wp_waitAndClassify {tracees : Tracees} {expectedSingleStep : Bool} {I : Session → Prop}
    {Q : Post WaitCall Exception Session StopInfo}
    (pass : ∀ s, I s → wp (waitPass tracees expectedSingleStep)
      ⟨fun r t => match r with
        | some info => Q.returned info t
        | none => I t, Q.raised, Q.blocked⟩ s)
    (spent : ∀ s, I s → Q.blocked s.dbg.waitCall s) (hs : I s) :
    wp (waitAndClassify tracees expectedSingleStep) Q s :=
  wp_waitLoop pass spent _ s hs

end Rules

end MiniDebugger
