import MiniDebugger.Sessions.Operations

/-!
# The process domains of a session

The registry invariant over whole runs: what holds of every retained domain, that a process which
ends gives way to a survivor, and that selecting another process and coming back changes nothing
but stop sequence numbers.
-/

namespace MiniDebugger

open Command
open Std (ExtTreeMap)

/-- Tracees that do anything the kernel allows, except that a `vfork` is finished before anything
else is reported. -/
def calm : Tracees := fun s d =>
  !s.awaitsVforkDone || (d.status.isVforkDone && s.dbg.process.taskStates.contains d.tid)

theorem tame_calm : Tame false calm := by
  refine ⟨fun s d h hwait => ?_, by rintro ⟨⟩, by rintro ⟨⟩⟩
  simpa [calm, hwait] using h

/-- Every operation but `detach`, whether it returns or throws. -/
def undetached : Operation → Reply → Prop := fun op _ => op.detaches = false

theorem Run.tables {log : List Result} {s : Session} (h : Run calm undetached log s) :
    s.core.Tables (issuedIds log) :=
  (h.good tame_calm fun _ _ hop => ⟨hop, by rintro ⟨⟩⟩).tables

/-- Only resuming reports a stop, and what it reports is in order. -/
theorem reported_stop {s t : Session} {issued : List Nat} (h : s.core.Good false issued)
    {op : Operation} {info : StopInfo}
    (hrun : op.run calm s = .returned (.stop info) t) :
    t.Reported false issued none s.dbg.retainedProcesses info := by
  have hop : wp (op.run calm)
      ⟨fun r t => ∀ info, r = .stop info →
        t.Reported false issued none s.dbg.retainedProcesses info, fun _ _ => True,
        fun _ _ => True⟩ s := by
    cases op with
    | continueExecution policy =>
      simp only [Operation.run, wp_map]
      refine wp_mono (reported_continueExecution tame_calm h) ?_ (fun _ _ _ => trivial)
        (fun _ _ _ => trivial)
      rintro info t ht _ ⟨⟩
      exact ht
    | singleStep policy =>
      simp only [Operation.run, wp_map]
      refine wp_mono (reported_singleStep tame_calm h) ?_ (fun _ _ _ => trivial)
        (fun _ _ _ => trivial)
      rintro info t ht _ ⟨⟩
      exact ht
    | _ =>
      simp only [Operation.run, wp_map, reduceCtorEq, false_implies, implies_true]
      exact wp_trivial _ _
  exact wp_returned hop hrun info rfl

/-- A selection the debugger accepts. -/
theorem selectProcess_eq (s : Session) (pid : Pid) (domain : RetainedProcessDomain)
    (hpid : pid ≠ s.dbg.process.pid) (hdomain : s.dbg.retainedProcesses[pid]? = some domain)
    (hstate : s.dbg.process.state = .stopped) (hstopped : domain.process.state = .stopped)
    (hidle : s.dbg.pendingBreakpointStep = none)
    (hfree : s.dbg.process.pid ∉ s.dbg.retainedProcesses) :
    selectProcess pid s = .returned () { s with
      sequence := s.sequence + 1
      dbg := { s.dbg.swapped pid domain with
        stopInfo := { domain.stopInfo with sequence := s.sequence + 1 } } } := by
  have hfree : ¬(s.dbg.retainedProcesses.erase pid).contains s.dbg.process.pid = true := by
    rw [ExtTreeMap.contains_iff_mem]
    exact fun hin => hfree (ExtTreeMap.mem_erase.mp hin).2
  obtain ⟨_, t, hrun, rfl⟩ := returned_of_wp (x := selectProcess pid) (s := s)
    (Q := fun _ t => t = { s with
      sequence := s.sequence + 1
      dbg := { s.dbg.swapped pid domain with
        stopInfo := { domain.stopInfo with sequence := s.sequence + 1 } } }) (by
    simp only [selectProcess, swapActiveProcess, wp_bind, wp_view, wp_ite, wp_pure, id,
      if_neg hpid, hdomain, hstate, hstopped, hidle, Option.isSome_none, ne_eq, not_true_eq_false,
      Bool.false_eq_true, if_false, wp_modifyDebugger, Debugger.activate, if_neg hfree]
    rfl)
  exact hrun

/-- Selecting a retained process and then the former one again. -/
theorem selectProcess_roundTrip {s t : Session} {issued : List Nat} (h : s.core.Tables issued)
    {pid : Pid} {domain : RetainedProcessDomain}
    (hdomain : s.dbg.retainedProcesses[pid]? = some domain)
    (hselect : selectProcess pid s = .returned () t) :
    selectProcess s.dbg.process.pid t = .returned () { s with
      sequence := s.sequence + 2
      dbg := { s.dbg with
        stopInfo := { s.dbg.stopInfo with sequence := s.sequence + 2 }
        retainedProcesses := s.dbg.retainedProcesses.insert pid { domain with
          stopInfo := { domain.stopInfo with sequence := s.sequence + 1 } } } } := by
  have hk := h.kept pid domain hdomain
  have hkey : domain.process.pid = pid := hk.key
  have hfree : s.dbg.process.pid ∉ s.dbg.retainedProcesses := h.free
  have hmem : pid ∈ s.dbg.retainedProcesses :=
    ExtTreeMap.mem_iff_isSome_getElem?.mpr (Option.isSome_of_eq_some hdomain)
  have hne : pid ≠ s.dbg.process.pid := by
    rintro rfl
    exact hfree hmem
  obtain ⟨hstate, rfl⟩ : s.dbg.process.state = .stopped ∧ t = { s with
      sequence := s.sequence + 1
      dbg := { s.dbg.swapped pid domain with
        stopInfo := { domain.stopInfo with sequence := s.sequence + 1 } } } := by
    have hwp : wp (selectProcess pid) ⟨fun _ t => s.dbg.process.state = .stopped ∧ t = { s with
        sequence := s.sequence + 1
        dbg := { s.dbg.swapped pid domain with
          stopInfo := { domain.stopInfo with sequence := s.sequence + 1 } } },
        fun _ _ => True, fun _ _ => True⟩ s := by
      refine wp_selectProcess (fun heq => absurd heq hne) (fun domain' hdomain' hstate _ _ => ?_)
        (fun _ _ _ _ => trivial) (fun _ => trivial)
      cases hdomain.symm.trans hdomain'
      exact ⟨hstate, rfl⟩
    exact wp_returned hwp hselect
  have hback := selectProcess_eq { s with
      sequence := s.sequence + 1
      dbg := { s.dbg.swapped pid domain with
        stopInfo := { domain.stopInfo with sequence := s.sequence + 1 } } }
    s.dbg.process.pid s.dbg.parked (fun heq => hne (hkey.symm.trans heq.symm))
    ExtTreeMap.getElem?_insert_self hk.resting.stopped hstate hk.resting.settled ?_
  · refine hback.trans ?_
    have hregistry : (((s.dbg.retainedProcesses.erase pid).insert s.dbg.process.pid
        s.dbg.parked).erase s.dbg.process.pid).insert domain.process.pid { domain with
          stopInfo := { domain.stopInfo with sequence := s.sequence + 1 } } =
        s.dbg.retainedProcesses.insert pid { domain with
          stopInfo := { domain.stopInfo with sequence := s.sequence + 1 } } := by
      rw [hkey]
      apply ExtTreeMap.ext_getElem?
      intro q
      have : s.dbg.retainedProcesses[s.dbg.process.pid]? = none := by simpa using hfree
      grind
    exact congrArg (fun retained => Outcome.returned () { s with
      sequence := s.sequence + 2
      dbg := { s.dbg with
        stopInfo := { s.dbg.stopInfo with sequence := s.sequence + 2 }
        retainedProcesses := retained } }) hregistry
  · show domain.process.pid ∉ (s.dbg.retainedProcesses.erase pid).insert _ _
    rw [hkey, ExtTreeMap.mem_insert]
    rintro (heq | hin)
    · have heq : s.dbg.process.pid = pid := by simpa using heq
      exact hne heq.symm
    · exact (ExtTreeMap.mem_erase.mp hin).1 (by simp)

/-- What holds of a retained domain beside the active process `active`. -/
structure RetainedProcessDomain.InOrder (active pid : Pid) (domain : RetainedProcessDomain) :
    Prop where
  stopped : domain.process.state = .stopped
  settled : domain.pendingBreakpointStep = none
  installed : ∀ (a : Addr) (bp : Breakpoint), domain.breakpointsByAddress[a]? = some bp →
    bp.installed = true
  key : domain.process.pid = pid
  other : pid ≠ active
  owned : ∀ snapshot, domain.watchpointRegisterSnapshot = some snapshot →
    snapshot.tid ∈ domain.process.taskStates

/-- The registry of process domains is in order. -/
structure Debugger.DomainsInOrder (d : Debugger) : Prop where
  retained : ∀ (pid : Pid) (domain : RetainedProcessDomain),
    d.retainedProcesses[pid]? = some domain → domain.InOrder d.process.pid pid
  owned : ∀ snapshot, d.watchpointRegisterSnapshot = some snapshot →
    snapshot.tid ∈ d.process.taskStates
  room : 1 + d.retainedProcesses.size ≤ maxProcessDomains
  /-- No id of a retained domain is in use in the active one. -/
  apart : ∀ (pid : Pid) (domain : RetainedProcessDomain) (i : Nat),
    d.retainedProcesses[pid]? = some domain → i ∈ domain.breakpointIds → i ∉ d.breakpointIds
  disjoint : ∀ (p q : Pid) (P Q : RetainedProcessDomain) (i : Nat),
    d.retainedProcesses[p]? = some P → d.retainedProcesses[q]? = some Q → i ∈ P.breakpointIds →
    i ∈ Q.breakpointIds → p = q
  /-- A process that ended does not stay active beside survivors. -/
  live : d.retainedProcesses ≠ ∅ → d.process.live

theorem domainsInOrder {s : Session} {issued : List Nat} (h : s.core.Tables issued) :
    s.dbg.DomainsInOrder := by
  refine ⟨fun pid domain hdomain => ?_, fun snapshot hsnapshot => ?_, ?_, ?_, ?_, h.live⟩
  · have hk := h.kept pid domain hdomain
    refine ⟨hk.resting.stopped, hk.resting.settled, hk.resting.installed, hk.key, ?_,
      fun snapshot hsnapshot => hk.owned snapshot.tid ?_⟩
    · rintro rfl
      exact h.free (ExtTreeMap.mem_iff_isSome_getElem?.mpr (Option.isSome_of_eq_some hdomain))
    · simp [RetainedProcessDomain.domain, hsnapshot]
  · exact h.owned snapshot.tid (by simp [Session.core, Debugger.domain, hsnapshot])
  · have hroom : s.dbg.retainedProcesses.size ≤ 2 := h.room
    unfold maxProcessDomains
    omega
  · intro pid domain i hdomain hi hactive
    obtain ⟨a, ha⟩ := Option.isSome_iff_exists.mp (ExtTreeMap.isSome_getElem?_iff_mem.mpr hi)
    have hnone : s.dbg.breakpointIds[i]? = none := h.apart pid domain i a hdomain ha
    simp [ExtTreeMap.mem_iff_isSome_getElem?, hnone] at hactive
  · intro p q P Q i hP hQ hi hj
    obtain ⟨a, ha⟩ := Option.isSome_iff_exists.mp (ExtTreeMap.isSome_getElem?_iff_mem.mpr hi)
    obtain ⟨c, hc⟩ := Option.isSome_iff_exists.mp (ExtTreeMap.isSome_getElem?_iff_mem.mpr hj)
    exact h.disjoint p q P Q i a c hP hQ ha hc

/-- In every state of a run the process domains are in order; the end of the active process
promotes a stopped survivor and removes exactly the domain that ended; and selecting a retained
process and then the former one restores every per-process field but the stop sequence number. -/
theorem process_domains_in_order {log : List Result} {s : Session}
    (h : Run calm undetached log s) :
    s.dbg.DomainsInOrder ∧
    (∀ (op : Operation) (script : List Wakeup) (faults : List (Option Nat)) (info : StopInfo)
      (t : Session), op.run calm (s.facing script faults) = .returned (.stop info) t →
      (info.reason = .processExited ∨ info.reason = .processSignaled →
        ∃ (survivor : Pid) (domain : RetainedProcessDomain),
          s.dbg.retainedProcesses[survivor]? = some domain ∧ domain.process.state = .stopped ∧
          t.dbg.parked = { domain with stopInfo := t.dbg.stopInfo } ∧
          t.dbg.retainedProcesses = s.dbg.retainedProcesses.erase survivor) ∧
      (info.reason = .exited ∨ info.reason = .signaled → s.dbg.retainedProcesses = ∅)) ∧
    ∀ (pid : Pid) (domain : RetainedProcessDomain) (t : Session),
      s.dbg.retainedProcesses[pid]? = some domain → selectProcess pid s = .returned () t →
      ∃ u, selectProcess s.dbg.process.pid t = .returned () u ∧
        u.dbg.parked = { s.dbg.parked with
          stopInfo := { s.dbg.stopInfo with sequence := u.dbg.stopInfo.sequence } } ∧
        ∃ sequence, u.dbg.retainedProcesses = s.dbg.retainedProcesses.insert pid { domain with
          stopInfo := { domain.stopInfo with sequence } } := by
  refine ⟨domainsInOrder h.tables, fun op script faults info t hrun => ?_, ?_⟩
  · have hgood : (s.facing script faults).core.Good false (issuedIds log) :=
      ⟨h.tables, by rintro ⟨⟩⟩
    have hreported := reported_stop hgood hrun
    refine ⟨fun hreason => ?_, hreported.last⟩
    obtain ⟨survivor, domain, hdomain, hrest, hparked, herase⟩ := hreported.promoted hreason
    exact ⟨survivor, domain, hdomain, hrest.stopped, hparked, herase⟩
  · intro pid domain t hdomain hselect
    exact ⟨_, selectProcess_roundTrip h.tables hdomain hselect, rfl, _, rfl⟩

/-- It speaks of a session with a retained child. -/
theorem process_domains_in_order_forked :
    (Session.forked calm).dbg.DomainsInOrder ∧
      (Session.forked calm).dbg.retainedProcesses.contains 11 = true :=
  ⟨(process_domains_in_order (forked_run (by decide +kernel) rfl rfl)).1, by decide +kernel⟩

end MiniDebugger
