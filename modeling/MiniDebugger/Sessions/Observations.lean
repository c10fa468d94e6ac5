import MiniDebugger.Sessions.Attribution
import MiniDebugger.Sessions.Ownership

/-!
# Observed registers

A breakpoint hit leaves the registers of the thread in `breakpoint_register_snapshots`, where they
stay until the next hit of the same breakpoint by the same thread. `Session.Recorded` is the invariant
behind this: every snapshot of every process domain has been there at an earlier moment, or one of
the reports taken since is the hit it comes from.
-/

namespace MiniDebugger

open Command
open Function (update update_self)
open Std (ExtTreeMap)

/-- The registers of a thread at a breakpoint. -/
abbrev SnapshotEntry := (Pid × Addr) × UserRegs

/-- The report of a trap right behind an installed breakpoint, with the registers that the snapshot
keeps of it. -/
def WaitRecord.Observes (entry : SnapshotEntry) : WaitRecord → Prop
  | .takes dbg _ d => d.tid = entry.1.1 ∧ d.status.isTrap = true ∧
    hasEntry dbg entry.1.2 true = true ∧ d.regs.rip = entry.1.2 + 1 ∧
    entry.2 = { d.regs with rip := entry.1.2 }
  | .waits _ _ => False

/-- Dropping the snapshots of some keys does not uncover others. -/
theorem RegisterSnapshots.lookup_of_filter {snapshots : RegisterSnapshots} {p : Pid × Addr → Bool}
    {key : Pid × Addr} {regs : UserRegs}
    (h : List.lookup key (snapshots.filter fun entry => p entry.1) = some regs) :
    snapshots.lookup key = some regs := by
  induction snapshots with
  | nil => cases h
  | cons entry rest ih =>
    rw [List.filter_cons] at h
    rw [List.lookup_cons]
    by_cases hp : p entry.1 = true
    · rw [if_pos hp, List.lookup_cons] at h
      split at h
      · exact h
      · exact ih h
    · rw [if_neg hp] at h
      split
      · next hkey =>
        -- a dropped entry of the key would leave none of it
        have hkey : key = entry.1 := by simpa using hkey
        obtain ⟨before, after, hsplit, _⟩ := List.lookup_eq_some_iff.mp h
        have hmem : (key, regs) ∈ rest.filter fun entry => p entry.1 := by simp [hsplit]
        exact absurd (hkey ▸ (List.mem_filter.mp hmem).2) hp
      · exact ih h

/-- A snapshot of the active process or of a retained one. -/
def Session.Holds (s : Session) (entry : SnapshotEntry) : Prop :=
  s.dbg.breakpointRegisterSnapshots.lookup entry.1 = some entry.2 ∨
    ∃ (key : Pid) (domain : RetainedProcessDomain), s.dbg.retainedProcesses[key]? = some domain ∧
      domain.breakpointRegisterSnapshots.lookup entry.1 = some entry.2

/-- Every snapshot was there before, or a record since `old` is the hit it comes from. -/
def Session.Recorded (before : SnapshotEntry → Prop) (old : List WaitRecord) (s : Session) :
    Prop :=
  ∃ new, s.history = new ++ old ∧ ∀ entry, s.Holds entry →
    before entry ∨ ∃ record ∈ new, record.Observes entry

/-- The newest record is the report the stop was made of, and the snapshot of the thread has the
registers of the stop. -/
def Session.Fresh (s : Session) (info : StopInfo) : Prop :=
  ∃ address dbg world d older, info.breakpointAddress = some address ∧
    s.dbg.breakpointRegisterSnapshots.lookup (info.tid, address) = some (s.world.regs info.tid) ∧
    s.history = .takes dbg world d :: older ∧ d.tid = info.tid ∧
    s.world.regs info.tid = { d.regs with rip := address }

section Steps

variable {before : SnapshotEntry → Prop} {old : List WaitRecord} {tracees : Tracees}
  {s t : Session} {tid : Pid}

theorem Session.recorded_refl (s : Session) : s.Recorded s.Holds s.history :=
  ⟨[], rfl, fun _ h => .inl h⟩

/-- Snapshots may be dropped and records added. -/
theorem Session.Recorded.mono (h : s.Recorded before old)
    (hholds : ∀ entry, t.Holds entry → s.Holds entry)
    (hhistory : ∃ new, t.history = new ++ s.history) : t.Recorded before old := by
  obtain ⟨new, hnew, hall⟩ := h
  obtain ⟨more, hmore⟩ := hhistory
  refine ⟨more ++ new, by rw [hmore, hnew, List.append_assoc], ?_⟩
  intro entry hentry
  obtain hbefore | ⟨record, hrecord, hobserves⟩ := hall entry (hholds entry hentry)
  · exact .inl hbefore
  · exact .inr ⟨record, List.mem_append_right _ hrecord, hobserves⟩

theorem Session.Holds.of_eq {entry : SnapshotEntry} (h : t.Holds entry)
    (hsnapshots : t.dbg.breakpointRegisterSnapshots = s.dbg.breakpointRegisterSnapshots)
    (hretained : t.dbg.retainedProcesses = s.dbg.retainedProcesses) : s.Holds entry := by
  unfold Session.Holds at h ⊢
  rwa [hsnapshots, hretained] at h

/-- Other fields than the snapshots and the registry do not matter. -/
theorem Session.Recorded.of_eq (h : s.Recorded before old)
    (hsnapshots : t.dbg.breakpointRegisterSnapshots = s.dbg.breakpointRegisterSnapshots)
    (hretained : t.dbg.retainedProcesses = s.dbg.retainedProcesses)
    (hhistory : t.history = s.history) : t.Recorded before old :=
  h.mono (fun _ hentry => hentry.of_eq hsnapshots hretained) ⟨[], hhistory⟩

/-- The snapshots of the active process are gone. -/
theorem Session.Recorded.cleared (h : s.Recorded before old)
    (hsnapshots : t.dbg.breakpointRegisterSnapshots = [])
    (hretained : t.dbg.retainedProcesses = s.dbg.retainedProcesses)
    (hhistory : t.history = s.history) : t.Recorded before old := by
  refine h.mono ?_ ⟨[], hhistory⟩
  rintro entry (hactive | ⟨key, domain, hdomain, hentry⟩)
  · rw [hsnapshots] at hactive
    cases hactive
  · exact .inr ⟨key, domain, hretained ▸ hdomain, hentry⟩

/-- A retained domain takes the place of the active process. -/
theorem Session.Recorded.activate (h : s.Recorded before old) {pid : Pid}
    {domain : RetainedProcessDomain} (hdomain : s.dbg.retainedProcesses[pid]? = some domain)
    (hsnapshots : t.dbg.breakpointRegisterSnapshots = domain.breakpointRegisterSnapshots)
    (hretained : t.dbg.retainedProcesses = s.dbg.retainedProcesses.erase pid)
    (hhistory : t.history = s.history) : t.Recorded before old := by
  refine h.mono ?_ ⟨[], hhistory⟩
  rintro entry (hactive | ⟨key, other, hother, hentry⟩)
  · rw [hsnapshots] at hactive
    exact .inr ⟨pid, domain, hdomain, hactive⟩
  · rw [hretained, ExtTreeMap.getElem?_erase] at hother
    split at hother
    · cases hother
    · exact .inr ⟨key, other, hother, hentry⟩

/-- A snapshot of a hit that the newest record reports. -/
theorem Session.Recorded.save {entry : SnapshotEntry} {record : WaitRecord}
    {new : List WaitRecord} (h : s.Recorded before old) (hhistory : s.history = record :: new ++ old)
    (hobserves : record.Observes entry) (hsame : t.history = s.history)
    (hholds : ∀ other, t.Holds other → s.Holds other ∨ other = entry) :
    t.Recorded before old := by
  obtain ⟨new', hnew', hall⟩ := h
  refine ⟨new', hsame.trans hnew', ?_⟩
  intro other hother
  obtain hheld | rfl := hholds other hother
  · exact hall other hheld
  · have hnew : record :: new = new' := List.append_cancel_right (hhistory.symm.trans hnew')
    exact .inr ⟨record, hnew ▸ List.mem_cons_self, hobserves⟩

/-! ## The hit of a breakpoint -/

/-- The newest record is the report of `d`, taken since `old`, and the thread is as reported. -/
structure Session.Reporting (before : SnapshotEntry → Prop) (old : List WaitRecord)
    (d : Delivery) (s : Session) : Prop where
  recorded : s.Recorded before old
  newest : ∃ dbg world new, s.history = .takes dbg world d :: new ++ old ∧
    dbg.breakpointsByAddress = s.dbg.breakpointsByAddress
  regs : s.world.regs d.tid = d.regs

/-- How a command that reports a stop leaves the snapshots. -/
def observed (before : SnapshotEntry → Prop) (old : List WaitRecord) :
    Post WaitCall Exception Session StopInfo where
  returned info t := t.Recorded before old ∧ (info.reason = .breakpoint → t.Fresh info)
  raised _ t := t.Recorded before old
  blocked _ _ := True

theorem observed_classifyTrap {d : Delivery} (h : s.Reporting before old d)
    (htrap : d.status.isTrap = true) : wp (classifyTrap d.tid) (observed before old) s := by
  obtain ⟨dbg, world, new, hhistory, htable⟩ := h.newest
  simp only [classifyTrap, wp_bind]
  refine Lowlevel.wp_getRegisters (fun faults => ?_)
    (fun faults e _ => h.recorded.of_eq rfl rfl rfl)
  simp only [wp_view, wp_ite]
  rw [h.regs]
  split
  · next hhit =>
    obtain ⟨hrip, hentry⟩ := hhit
    generalize haddress : d.regs.rip - 1 = address at hentry
    have hentry' := hentry
    simp only [hasEntry, Option.any_eq_true, beq_iff_eq] at hentry'
    obtain ⟨bp, hbp, hin⟩ := hentry'
    have hobserves : (WaitRecord.takes dbg world d).Observes
        ((d.tid, address), { d.regs with rip := address }) := by
      refine ⟨rfl, htrap, ?_, ?_, rfl⟩
      · unfold hasEntry at hentry ⊢
        rw [htable]
        exact hentry
      · rw [← haddress]
        simp
    have hsaved : ∀ u : Session,
        u.dbg.breakpointRegisterSnapshots = (s.dbg.saveRegisterSnapshot d.tid address
          { d.regs with rip := address }).breakpointRegisterSnapshots →
        u.dbg.retainedProcesses = s.dbg.retainedProcesses →
        u.history = s.history → u.Recorded before old := by
      intro u hsnapshots hretained hsame
      refine h.recorded.save hhistory hobserves hsame ?_
      rintro other (hactive | ⟨key, domain, hdomain, hheld⟩)
      · rw [hsnapshots, Debugger.saveRegisterSnapshot, List.lookup_cons] at hactive
        split at hactive
        · next hkey =>
          have hkey : other.1 = (d.tid, address) := by simpa using hkey
          exact .inr (Prod.ext hkey (Option.some.inj hactive).symm)
        · exact .inl (.inl
            (RegisterSnapshots.lookup_of_filter (p := (· ≠ (d.tid, address))) hactive))
      · exact .inl (.inr ⟨key, domain, hretained ▸ hdomain, hheld⟩)
    simp only [prepareBreakpointHit, wp_bind, wp_view, hbp, hin, Bool.not_true, Bool.false_eq_true,
      if_false, wp_modifyDebugger]
    refine Lowlevel.wp_setRegisters (fun faults => ?_)
      (fun faults e _ => hsaved _ rfl rfl rfl)
    dsimp only
    refine Lowlevel.wp_writeByte (fun faults _ => ?_) (fun faults e _ => hsaved _ rfl rfl rfl)
    refine ⟨hsaved _ rfl rfl rfl, fun _ => ?_⟩
    have hregs : (update s.world.regs d.tid { d.regs with rip := address }) d.tid =
        { d.regs with rip := address } := update_self _ _ _
    refine ⟨address, dbg, world, d, new ++ old, rfl, ?_, hhistory, rfl, hregs⟩
    refine Eq.trans ?_ (congrArg some hregs.symm)
    unfold Debugger.setInstalled Debugger.saveRegisterSnapshot
    exact List.lookup_cons_self
  · exact ⟨h.recorded.of_eq rfl rfl rfl, fun hreason => by cases hreason⟩

theorem observed_classifySignalStop {expectedSingleStep : Bool} {d : Delivery} {signal : Nat}
    {event : PtraceEvent} (h : s.Reporting before old d) (hst : d.status = .stopped signal event)
    (hevent : event = .none ∨ event = .other) :
    wp (classifySignalStop expectedSingleStep
        { kind := .stopped, value := signal, tid := d.tid, ptraceEvent := event })
      (observed before old) s := by
  refine wp_classifySignalStop ?_ ?_ ?_ ?_ ?_ ?_
  · intro info _ hreason _ _
    exact ⟨h.recorded.of_eq rfl rfl rfl, fun hr => by cases hreason.symm.trans hr⟩
  · intro info _ _ hreason _ _
    exact ⟨h.recorded.of_eq rfl rfl rfl, fun hr => by cases hreason.symm.trans hr⟩
  · intro t info _ _ _ _ ⟨_, _, _, halike⟩ hreason _
    subst halike
    exact ⟨h.recorded.of_eq rfl rfl rfl, fun hr => by cases hreason.symm.trans hr⟩
  · intro t info _ _ _ _ ⟨_, _, _, halike⟩ hreason _
    subst halike
    exact ⟨h.recorded.of_eq rfl rfl rfl, fun hr => by cases hreason.symm.trans hr⟩
  · intro t _ hsignal _ ⟨_, _, _, halike⟩
    subst halike
    have hsignal : signal = sigtrap := hsignal
    refine observed_classifyTrap ⟨h.recorded.of_eq rfl rfl rfl, h.newest, h.regs⟩ ?_
    rw [hst, hsignal]
    obtain rfl | rfl := hevent
    · rfl
    · rfl
  · intro t e ⟨_, _, _, halike⟩ _
    subst halike
    exact h.recorded.of_eq rfl rfl rfl

/-! ## Other events -/

theorem observed_classifyEnded (h : s.Recorded before old) {event : WaitEvent}
    {processReason finalReason threadReason : StopReason} (hprocess : processReason ≠ .breakpoint)
    (hfinal : finalReason ≠ .breakpoint) (hthread : threadReason ≠ .breakpoint) :
    wp (classifyEnded event processReason finalReason threadReason)
      ⟨fun r t => match r with
        | some info => (observed before old).returned info t
        | none => t.Recorded before old, (observed before old).raised, fun _ _ => True⟩ s := by
  have hforgotten : { s with dbg := s.dbg.forgetTask event.tid }.Recorded before old := by
    refine h.mono ?_ ⟨[], rfl⟩
    rintro entry (hactive | hheld)
    · exact .inl (RegisterSnapshots.lookup_of_filter (p := (·.1 ≠ event.tid)) hactive)
    · exact .inr hheld
  refine wp_classifyEnded ?_ ?_ ?_ ?_ ?_
  · intro survivor domain e _ hdomain _
    exact h.activate hdomain rfl rfl rfl
  · intro survivor domain _ hdomain _
    exact ⟨h.activate hdomain rfl rfl rfl, fun hr => absurd hr hprocess⟩
  · intro _ _
    exact ⟨hforgotten.of_eq rfl rfl rfl, fun hr => absurd hr hfinal⟩
  · intro _ _
    exact hforgotten
  · intro _ _
    exact ⟨hforgotten.of_eq rfl rfl rfl, fun hr => absurd hr hthread⟩

theorem observed_classifyFork (h : s.Recorded before old) :
    wp (classifyFork tid) (observed before old) s := by
  have hplain : ∀ {info : StopInfo} {kind : ProcessEventKind} {owner parent child : Pid}
      {retainsChild : Bool} {sequence : Nat},
      info = processEventInfo kind owner parent child retainsChild sequence →
      info.reason ≠ .breakpoint := by
    intro info kind owner parent child retainsChild sequence hinfo hreason
    rw [hinfo] at hreason
    cases hreason
  refine wp_classifyFork ?_ ?_ ?_ ?_ ?_ ?_
  · intro faults e
    exact h.of_eq rfl rfl rfl
  · intro t child childStop inherited info _ _ _ ⟨_, _, _, halike⟩ _ _ _ hinfo
    subst halike
    refine ⟨h.mono ?_ ⟨[], rfl⟩, fun hr => absurd hr (hplain hinfo)⟩
    rintro entry (hactive | ⟨key, domain, hdomain, hentry⟩)
    · exact .inl hactive
    · rw [ExtTreeMap.getElem?_insert] at hdomain
      split at hdomain
      · cases hdomain
        cases hentry
      · exact .inr ⟨key, domain, hdomain, hentry⟩
  · intro child faults sequence debug memory requests info _ _ _ _ _ hinfo
    exact ⟨h.cleared rfl rfl rfl, fun hr => absurd hr (hplain hinfo)⟩
  · intro child t info _ _ ⟨_, _, _, _, _, _, hafter, _, _⟩ hinfo
    subst hafter
    exact ⟨h.of_eq rfl rfl rfl, fun hr => absurd hr (hplain hinfo)⟩
  · intro child t e _ ⟨_, _, _, _, _, _, hafter, _, _⟩
    subst hafter
    exact h.of_eq rfl rfl rfl
  · intro child t e _ _ _ ⟨_, _, _, _, _, _, hafter, _, _⟩ _
    subst hafter
    exact h.of_eq rfl rfl rfl

theorem Session.Recorded.waiting (h : s.Recorded before old) (call : WaitCall) :
    (s.waiting call).Recorded before old :=
  h.mono (fun _ hentry => hentry) ⟨[.waits call s.dbg], rfl⟩

theorem Session.Recorded.deliver (h : s.Recorded before old) (d : Delivery) (rest : List Wakeup) :
    (s.deliver d rest).Recorded before old :=
  h.mono (fun _ hentry => hentry.of_eq rfl rfl) ⟨[.takes s.dbg s.world d], rfl⟩

/-! ## Waiting -/

theorem observed_classifyVfork (h : s.Recorded before old) :
    wp (classifyVfork tracees tid) (observed before old) s := by
  refine wp_classifyVfork ?_ ?_ ?_
  · intro t e ⟨_, _, _, _, _, _, hran, _, _⟩
    subst hran
    exact h.of_eq rfl rfl rfl
  · exact fun _ _ => trivial
  · intro t faults requests ⟨_, _, _, _, _, _, hran, _, _⟩
    subst hran
    generalize hu : Session.mk _ _ _ _ _ _ = u
    have hrecorded : u.Recorded before old := by
      subst hu
      exact h.of_eq rfl rfl rfl
    have hw := hrecorded.waiting .vforkDone
    refine wp_awaitVforkDone ?_ ?_ ?_ ?_ trivial
    · intro rest
      exact hw.of_eq rfl rfl rfl
    · intro d rest t e hd _ ⟨p, _, hdbg⟩ hhistory
      exact (hw.deliver d rest).of_eq (by rw [hdbg]; rfl) (by rw [hdbg]; rfl) hhistory
    · intro d rest signal faults e _ _ _
      exact (hw.deliver d rest).of_eq rfl rfl rfl
    · intro d rest signal faults _ _ _ _
      exact ⟨(hw.deliver d rest).of_eq rfl rfl rfl, fun hr => by cases hr⟩

theorem observed_waitPass {expectedSingleStep : Bool}
    (h : s.Recorded before old) :
    wp (waitPass tracees expectedSingleStep)
      ⟨fun r t => match r with
        | some info => (observed before old).returned info t
        | none => t.Recorded before old, (observed before old).raised, fun _ _ => True⟩ s := by
  simp only [waitPass, wp_bind]
  refine wp_waitActiveProcess (fun e => h) ?_
  have hw := h.waiting (.active s.dbg.waitTarget)
  refine wp_waitFor ?_ ?_ ?_ ?_ ?_ ?_ trivial
  · intro rest
    exact hw.of_eq rfl rfl rfl
  · intro d rest _ _ _
    exact hw.deliver d rest
  · intro d rest event p _ _ _ hkind _ _
    have hafter : (((s.waiting (.active s.dbg.waitTarget)).deliver d rest).withProcess p).Recorded
        before old := hw.deliver d rest
    cases hk : event.kind with
    | stopped => exact absurd hk hkind
    | exited =>
      simp only [classifyEvent, hk]
      exact observed_classifyEnded hafter (by decide) (by decide) (by decide)
    | signaled =>
      simp only [classifyEvent, hk]
      exact observed_classifyEnded hafter (by decide) (by decide) (by decide)
  · intro d rest signal event hd _ hst hne
    have hafter := hw.deliver d rest
    have hreporting : s.world.deliver d = s.world.stop d →
        (((s.waiting (.active s.dbg.waitTarget)).deliver d rest).withProcess
          ((s.dbg.process.reportedBy d.tid).taskStopped d.tid)).Reporting before old d := by
      intro hdeliver
      obtain ⟨new, hnew, _⟩ := hw
      refine ⟨hafter, ⟨s.dbg, s.world, new, ?_, rfl⟩, ?_⟩
      · exact congrArg (WaitRecord.takes s.dbg s.world d :: ·) hnew
      · have hregs : (s.world.deliver d).regs d.tid = d.regs := by
          rw [hdeliver]
          exact update_self _ _ _
        exact hregs
    cases event with
    | clone => exact absurd rfl hne
    | exec =>
      simp only [classifyEvent, wp_map]
      have hexec := World.exec_leader hd.possible hst
      refine wp_classifyExec (World.pos_of_possible hd.possible) ?_ ?_ ?_ ?_
      · exact (World.deliver_message hst).trans_le hexec.2
      · intro faults info sequence path hreason _
        exact ⟨hafter.cleared rfl rfl rfl, fun hr => by cases hreason.symm.trans hr⟩
      · intro _ faults e _
        exact hafter.of_eq rfl rfl rfl
      · intro faults e _
        exact hafter.cleared rfl rfl rfl
    | fork =>
      simp only [classifyEvent, wp_map]
      exact observed_classifyFork hafter
    | vfork =>
      simp only [classifyEvent, wp_map]
      exact observed_classifyVfork hafter
    | vforkDone => exact hafter
    | none =>
      simp only [classifyEvent, wp_map]
      exact observed_classifySignalStop (hreporting (by simp [World.deliver, hst])) hst (.inl rfl)
    | other =>
      simp only [classifyEvent, wp_map]
      exact observed_classifySignalStop (hreporting (by simp [World.deliver, hst])) hst (.inr rfl)
  · intro d rest signal faults _ _ _ _ _
    have hafter := hw.deliver d rest
    simp only [classifyEvent, wp_bind]
    exact wp_classifyClone rfl (fun _ => hafter.of_eq rfl rfl rfl)
      (fun e _ => hafter.of_eq rfl rfl rfl)
  · intro d rest signal faults e _ _ _ _
    exact (hw.deliver d rest).of_eq rfl rfl rfl

theorem observed_waitAndClassify {expectedSingleStep : Bool}
    (h : s.Recorded before old) :
    wp (waitAndClassify tracees expectedSingleStep) (observed before old) s := by
  refine wp_waitAndClassify (I := Session.Recorded before old) (fun u hu => ?_)
    (fun _ _ => trivial) h
  exact wp_mono (observed_waitPass hu) (fun r t ht => by cases r <;> exact ht)
    (fun _ _ ht => ht) (fun _ _ ht => ht)

/-! ## Operations -/

theorem observed_resumeAndWait {kind : ResumeKind}
    {policy : SignalPolicy} (h : s.Recorded before old) :
    wp (resumeAndWait tracees kind policy) (observed before old) s := by
  refine wp_resumeAndWait (fun faults e => h.of_eq rfl rfl rfl) ?_
  intro faults signal _ _ _
  exact observed_waitAndClassify (h.of_eq rfl rfl rfl)

/-- Putting a displaced breakpoint back leaves the registers and the snapshots as they are. -/
theorem observed_stepOver {pending : PendingBreakpointStep}
    {exposeSingleStep : Bool} (h : s.Recorded before old) :
    wp (stepOverPendingBreakpoint tracees pending exposeSingleStep) (observed before old) s := by
  refine wp_stepOverPendingBreakpoint (fun faults e => h.of_eq rfl rfl rfl) (fun faults => ?_)
  have hresumed := h.of_eq (t := s.resumed .step pending.tid 0 s.dbg.pendingSignals faults)
    rfl rfl rfl
  refine wp_mono (observed_waitAndClassify hresumed) (fun info t ht => ?_)
    (fun _ _ ht => ht) (fun _ _ ht => ht)
  obtain ⟨hrecorded, hfresh⟩ := ht
  dsimp only
  split
  · exact ⟨hrecorded, hfresh⟩
  · refine wp_finishDisplacedStep ?_ ?_ ?_
    · intro tid bp faults stopInfo _ _ _ _
      exact ⟨hrecorded.of_eq rfl rfl rfl, hfresh⟩
    · intro stopInfo _
      exact ⟨hrecorded.of_eq rfl rfl rfl, hfresh⟩
    · intro faults e _
      exact hrecorded.of_eq rfl rfl rfl

theorem observed_continueExecution {policy : SignalPolicy}
    (h : s.Recorded before old) :
    wp (continueExecution tracees policy) (observed before old) s := by
  refine wp_continueExecution (fun e => h) (fun _ => observed_resumeAndWait h) ?_
  intro pending _ _ _ _
  refine wp_mono (observed_stepOver h) (fun info t ht => ?_) (fun _ _ ht => ht)
    (fun _ _ ht => ht)
  dsimp only
  split
  · exact ht
  · exact observed_resumeAndWait ht.1

theorem observed_singleStep {policy : SignalPolicy}
    (h : s.Recorded before old) :
    wp (singleStep tracees policy) (observed before old) s :=
  wp_singleStep (fun _ => h) (fun _ => observed_resumeAndWait h)
    (fun _ _ _ _ _ => observed_stepOver h)

theorem Session.Alike.recorded (halike : s.Alike t) (h : s.Recorded before old) :
    t.Recorded before old := by
  obtain ⟨_, _, _, hsame⟩ := halike
  subst hsame
  exact h.of_eq rfl rfl rfl

/-- Two processes change places. -/
theorem Session.Recorded.swapped (h : s.Recorded before old) {pid : Pid}
    {domain : RetainedProcessDomain} (hdomain : s.dbg.retainedProcesses[pid]? = some domain)
    {info : StopInfo} {sequence : Nat} :
    { s with sequence, dbg := { s.dbg.swapped pid domain with stopInfo := info } }.Recorded before
      old := by
  refine h.mono ?_ ⟨[], rfl⟩
  rintro entry (hactive | ⟨key, other, hother, hentry⟩)
  · exact .inr ⟨pid, domain, hdomain, hactive⟩
  · simp only [Debugger.swapped, ExtTreeMap.getElem?_insert, ExtTreeMap.getElem?_erase] at hother
    split at hother
    · cases hother
      exact .inl hentry
    · split at hother
      · cases hother
      · exact .inr ⟨key, other, hother, hentry⟩

/-! ## Whole operations -/

/-- What an operation reports about a breakpoint and leaves of the snapshots. -/
def watched (before : SnapshotEntry → Prop) (old : List WaitRecord) :
    Post WaitCall Exception Session Result where
  returned r t := t.Recorded before old ∧
    ∀ info, r = .stop info → info.reason = .breakpoint → t.Fresh info
  raised _ t := t.Recorded before old
  blocked _ _ := True

/-- Every operation keeps the record of the snapshots. -/
theorem watched_run (op : Operation) (h : s.Recorded before old) : wp (op.run tracees) (watched before old) s := by
  have plain : ∀ {r : Result} {t : Session}, (∀ info, r ≠ .stop info) → t.Recorded before old →
      (watched before old).returned r t := fun hr ht =>
    ⟨ht, fun info heq => absurd heq (hr info)⟩
  cases op with
  | addBreakpoint address =>
    simp only [Operation.run, wp_map]
    exact wp_addBreakpoint
      (fun faults original _ _ _ _ _ _ => plain (by simp) (h.of_eq rfl rfl rfl))
      (fun faults e => h.of_eq rfl rfl rfl)
  | removeBreakpoint id =>
    have cleared : ∀ address world faults, { s with
        world, faults, dbg := (s.dbg.clearPendingStep address).eraseBreakpoint id address }.Recorded
          before old := by
      intro address world faults
      have hsame : ((s.dbg.clearPendingStep address).eraseBreakpoint id
            address).breakpointRegisterSnapshots = s.dbg.breakpointRegisterSnapshots ∧
          ((s.dbg.clearPendingStep address).eraseBreakpoint id
            address).retainedProcesses = s.dbg.retainedProcesses := by
        unfold Debugger.clearPendingStep
        split <;> exact ⟨rfl, rfl⟩
      exact h.of_eq hsame.1 hsame.2 rfl
    simp only [Operation.run, wp_map]
    exact wp_removeBreakpoint (fun _ => plain (by simp) h)
      (fun address bp faults _ _ _ _ _ => plain (by simp) (cleared address _ faults))
      (fun address _ _ => plain (by simp) (cleared address _ _))
      (fun faults e => h.of_eq rfl rfl rfl)
  | addWriteWatchpoint address length =>
    simp only [Operation.run, wp_map]
    exact wp_addWriteWatchpoint
      (fun t snapshot halike _ _ => plain (by simp) (h.of_eq rfl rfl halike.detaching.history))
      (fun t e halike => halike.recorded h)
  | removeWatchpoint id =>
    simp only [Operation.run, wp_map]
    exact wp_removeWatchpoint (plain (by simp) h)
      (fun t halike => plain (by simp) (h.of_eq rfl rfl halike.detaching.history))
      (fun t e halike => halike.recorded h)
  | writeMemory address bytes =>
    simp only [Operation.run, wp_map]
    exact wp_writeMemory
      (fun faults memory table _ _ _ _ => plain (by simp) (h.of_eq rfl rfl rfl))
      (fun faults memory e _ _ _ => h.of_eq rfl rfl rfl)
  | continueExecution policy =>
    simp only [Operation.run, wp_map]
    refine wp_mono (observed_continueExecution h) (fun info t ht => ⟨ht.1, ?_⟩)
      (fun _ _ ht => ht) (fun _ _ _ => trivial)
    intro other heq
    cases heq
    exact ht.2
  | singleStep policy =>
    simp only [Operation.run, wp_map]
    refine wp_mono (observed_singleStep h) (fun info t ht => ⟨ht.1, ?_⟩)
      (fun _ _ ht => ht) (fun _ _ _ => trivial)
    intro other heq
    cases heq
    exact ht.2
  | selectThread tid =>
    simp only [Operation.run, wp_map]
    exact wp_selectThread (fun _ => plain (by simp) (h.of_eq rfl rfl rfl)) (fun e => h)
  | selectProcess pid =>
    simp only [Operation.run, wp_map]
    exact wp_selectProcess (fun _ => plain (by simp) h)
      (fun domain hdomain _ _ _ => plain (by simp) (h.swapped hdomain))
      (fun domain e hdomain _ => h.activate hdomain rfl rfl rfl) (fun e => h)
  | setForkFollowPolicy policy =>
    simp only [Operation.run, wp_map]
    exact wp_setForkFollowPolicy (fun _ => plain (by simp) (h.of_eq rfl rfl rfl)) (fun e => h)
  | detach policy =>
    simp only [Operation.run, wp_map]
    have released : ∀ t, s.Detaching t → t.Recorded before old := fun t ht =>
      h.of_eq ht.snapshots ht.retained ht.history
    exact wp_detachOperation
      (fun t ht _ _ => plain (by simp) ((released t ht).cleared rfl rfl rfl)) fun t _ => released t

/-! ## Runs -/

theorem recorded_started (h : Started s) : s.Recorded (fun _ => False) [] := by
  have hstart : s.history = [] ∧ s.dbg.breakpointRegisterSnapshots = [] ∧
      s.dbg.retainedProcesses = ∅ := by
    cases h with
    | launch pid path _ _ hdbg _ _ _ hhistory =>
      exact ⟨hhistory, by rw [hdbg]; rfl, by rw [hdbg]; rfl⟩
    | attach pid tids path _ _ _ hdbg _ _ _ hhistory =>
      exact ⟨hhistory, by rw [hdbg]; rfl, by rw [hdbg]; rfl⟩
  obtain ⟨hhistory, hsnapshots, hretained⟩ := hstart
  refine ⟨[], hhistory, ?_⟩
  rintro entry (hactive | ⟨key, domain, hdomain, _⟩)
  · rw [hsnapshots] at hactive
    cases hactive
  · simp [hretained] at hdomain

/-- Every snapshot comes from a hit that has been reported in the run. -/
theorem Run.recorded {allowed : Operation → Reply → Prop} {log : List Result}
    (h : Run tracees allowed log s) : s.Recorded (fun _ => False) [] := by
  refine Run.invariant (I := fun _ s => s.Recorded (fun _ => False) [])
    (fun s => recorded_started) (fun log s op script faults hs => ?_) h
  exact wp_mono (watched_run op (s := s.facing script faults) (hs.of_eq rfl rfl rfl))
    (fun _ _ ht _ => ht.1) (fun _ _ ht _ => ht) (fun _ _ _ => trivial)

/-- A session that a run reaches from `s` on. -/
inductive Later (tracees : Tracees) (s : Session) : Session → Prop
  | refl : Later tracees s s
  | returned {t u : Session} {op : Operation} {script : List Wakeup} {faults : List (Option Nat)}
      {r : Result} (h : Later tracees s t)
      (hrun : op.run tracees (t.facing script faults) = .returned r u) : Later tracees s u
  | raised {t u : Session} {op : Operation} {script : List Wakeup} {faults : List (Option Nat)}
      {e : Exception} (h : Later tracees s t)
      (hrun : op.run tracees (t.facing script faults) = .raised e u) : Later tracees s u

/-- Every later snapshot was there before or comes from a hit that has been reported since. -/
theorem Later.recorded (h : Later tracees s t) : t.Recorded s.Holds s.history := by
  induction h with
  | refl => exact s.recorded_refl
  | @returned t u op script faults r _ hrun ih =>
    have hfacing : (t.facing script faults).Recorded s.Holds s.history := ih.of_eq rfl rfl rfl
    exact (wp_returned (watched_run op hfacing) hrun).1
  | @raised t u op script faults e _ hrun ih =>
    have hfacing : (t.facing script faults).Recorded s.Holds s.history := ih.of_eq rfl rfl rfl
    exact wp_raised (watched_run op hfacing) hrun

end Steps

end MiniDebugger
