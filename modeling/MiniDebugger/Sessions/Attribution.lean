import MiniDebugger.Sessions.ThreadStarts

/-!
# Whose trap is it?

A `SIGTRAP` is classified by a flag that says whether a single step is awaited, not by the thread
it is for. An `INT3` that is executed while a step is awaited is therefore reported as the end of
that step, with the thread left behind the breakpoint. A trap that waits its turn while another
thread's hit lifts the breakpoint, or while it is removed, is not known for a hit any more. The
first stop after a thread has been announced is taken for its start, whatever it is. `attributable`
rules such traps out, and then every hit of a breakpoint is reported as what it is.
-/

namespace MiniDebugger

open Command
open Std (ExtTreeMap)

/-! ## What a stretch of a run has seen -/

/-- The records since `old` all satisfy `P`. -/
def Session.Since (old : List WaitRecord) (P : WaitRecord → Prop) (t : Session) : Prop :=
  ∃ new, t.history = new ++ old ∧ ∀ record ∈ new, P record

section Since

variable {old : List WaitRecord} {P P' : WaitRecord → Prop} {s t : Session}

theorem Session.since_refl : s.Since s.history P := ⟨[], rfl, by simp⟩

theorem Session.Since.mono (h : t.Since old P) (hP : ∀ record, P record → P' record) :
    t.Since old P' := by
  obtain ⟨new, hnew, hall⟩ := h
  exact ⟨new, hnew, fun record hrecord => hP record (hall record hrecord)⟩

theorem Session.Since.of_eq (h : s.Since old P) (hhistory : t.history = s.history) :
    t.Since old P := by
  obtain ⟨new, hnew, hall⟩ := h
  exact ⟨new, hhistory.trans hnew, hall⟩

theorem Session.Since.cons (h : s.Since old P) {record : WaitRecord}
    (hhistory : t.history = record :: s.history) (hrecord : P record) : t.Since old P := by
  obtain ⟨new, hnew, hall⟩ := h
  refine ⟨record :: new, by rw [hhistory, hnew]; rfl, fun other hother => ?_⟩
  rcases List.mem_cons.mp hother with rfl | hmem
  · exact hrecord
  · exact hall other hmem

theorem Session.Since.trans (h : s.Since old P) (h' : t.Since s.history P) : t.Since old P := by
  obtain ⟨new, hnew, hall⟩ := h
  obtain ⟨new', hnew', hall'⟩ := h'
  refine ⟨new' ++ new, by rw [hnew', hnew, List.append_assoc], fun record hrecord => ?_⟩
  exact (List.mem_append.mp hrecord).elim (hall' record) (hall record)

theorem Session.Since.mem (h : t.Since old P) {record : WaitRecord} (hrecord : record ∈ t.history) :
    record ∈ old ∨ P record := by
  obtain ⟨new, hnew, hall⟩ := h
  rw [hnew] at hrecord
  exact (List.mem_append.mp hrecord).elim (fun h => .inr (hall record h)) .inl

end Since

/-! ## Hits -/

/-- The report of a thread of the active process that has run into a breakpoint. -/
def WaitRecord.Hit (tid : Pid) (address : Addr) : WaitRecord → Prop
  | .takes dbg world d => d.tid = tid ∧ d.cause = .int3 address ∧
    world.groupOf d = dbg.process.pid
  | .waits _ _ => False

/-- A hit of a breakpoint that is still installed when it is reported. -/
def WaitRecord.HitInstalled (tid : Pid) (address : Addr) : WaitRecord → Prop
  | .takes dbg world d => (WaitRecord.takes dbg world d).Hit tid address ∧
    hasEntry dbg address true = true
  | .waits _ _ => False

instance (tid : Pid) (address : Addr) : DecidablePred (WaitRecord.HitInstalled tid address)
  | .takes dbg world d => inferInstanceAs (Decidable
      ((d.tid = tid ∧ d.cause = .int3 address ∧ world.groupOf d = dbg.process.pid) ∧
        hasEntry dbg address true = true))
  | .waits _ _ => .isFalse id

theorem WaitRecord.HitInstalled.hit {record : WaitRecord} {tid : Pid} {address : Addr}
    (h : record.HitInstalled tid address) : record.Hit tid address := by
  cases record with
  | takes dbg world d => exact h.1
  | waits call dbg => exact h.elim

/-- The stop says what happened and the thread is back on the breakpoint. -/
def StopInfo.Reports (info : StopInfo) (t : Session) (tid : Pid) (address : Addr) : Prop :=
  info.reason = .breakpoint ∧ info.tid = tid ∧ info.breakpointAddress = some address ∧
    (t.world.regs tid).rip = address

/-- The thread owns the watchpoint and its debug status register shows a hit. -/
def watchpointFired (dbg : Debugger) (d : Delivery) : Bool :=
  (dbg.ownedWatchpoint d.tid).isSome && d.debug 6 &&& dr6Breakpoint0 != 0

/-- A hit is reported while the breakpoint is still installed, the process runs freely and nothing
but its next stop is awaited. The thread has been stopped since its clone event was reported, and
its watchpoint has not been hit at the same time. -/
def hitsApart (s : Session) (d : Delivery) : Bool :=
  match d.cause with
  | .int3 address =>
    s.world.groupOf d != s.dbg.process.pid ||
      (hasEntry s.dbg address true && (s.world.lastResume).any (·.1 == .cont) &&
        !awaitsStart d.tid s.history && !watchpointFired s.dbg d && !s.awaitsVforkDone)
  | _ => true

def WaitStatus.isTrap : WaitStatus → Bool
  | .stopped signal .none | .stopped signal .other => signal == sigtrap
  | _ => false

/-- While a thread is stepped, no other one traps, unless its watchpoint has been hit. -/
def stepsApart (s : Session) (d : Delivery) : Bool :=
  match s.world.lastResume with
  | some (.step, tid) => !d.status.isTrap || d.tid == tid || watchpointFired s.dbg d
  | _ => true

/-- Tracees whose traps the debugger can tell apart. -/
def attributable : Tracees := fun s d => hitsApart s d && stepsApart s d

section Attribution

variable {old : List WaitRecord} {resume : ResumeKind × Pid} {s t : Session} {tracees : Tracees}
  (hsub : ∀ s d, tracees s d = true → attributable s d = true)

/-- Nothing was hit since `old`, and the last resume request was `resume`. -/
structure Session.Unhit (old : List WaitRecord) (resume : ResumeKind × Pid) (s : Session) :
    Prop where
  resumed : s.world.lastResume = some resume
  unhit : s.Since old fun record => ∀ tid address, ¬record.Hit tid address

/-- Hits are reported, unless a ptrace request failed, and steps are reported for the thread that
was stepped. -/
def attributed (old : List WaitRecord) (resume : ResumeKind × Pid) :
    Post WaitCall Exception Session StopInfo where
  returned info t :=
    (t.Since old fun record => ∀ tid address, record.Hit tid address →
      resume.1 = .cont ∧ info.Reports t tid address) ∧
    (info.reason = .singleStep → t.world.lastResume = some (.step, info.tid))
  raised e t := t.Since old fun record => ∀ tid address, record.Hit tid address →
    e.isPtraceError = true
  blocked _ t := t.Since old fun record => ∀ tid address, ¬record.Hit tid address

theorem Session.Since.none_hit {P : Pid → Addr → Prop}
    (h : t.Since old fun record => ∀ tid address, ¬record.Hit tid address) :
    t.Since old fun record => ∀ tid address, record.Hit tid address → P tid address :=
  h.mono fun _ hrecord tid address hhit => absurd hhit (hrecord tid address)

/-- A stop that is neither a hit nor a step. -/
theorem attributed_of_unhit {info : StopInfo}
    (h : t.Since old fun record => ∀ tid address, ¬record.Hit tid address)
    (hreason : info.reason ≠ .singleStep) : (attributed old resume).returned info t :=
  ⟨h.none_hit, fun hr => absurd hr hreason⟩

/-- What a report of `attributable` tracees says. -/
theorem hit_of_attributable {d : Delivery} {address : Addr} {call : WaitCall}
    (h : attributable (s.waiting call) d = true) (hannounced : s.Announced)
    (hcause : d.cause = .int3 address) (hgroup : s.world.groupOf d = s.dbg.process.pid) :
    hasEntry s.dbg address true = true ∧ (∃ tid, s.world.lastResume = some (.cont, tid)) ∧
      d.tid ∉ s.dbg.pendingThreadStarts ∧ watchpointFired s.dbg d = false ∧
      (s.waiting call).awaitsVforkDone = false := by
  have h := (Bool.and_eq_true_iff.mp h).1
  have hgroup' : (s.waiting call).world.groupOf d = (s.waiting call).dbg.process.pid := hgroup
  simp only [hitsApart, hcause, hgroup', bne_self_eq_false, Bool.false_or, Bool.and_eq_true,
    Bool.not_eq_true'] at h
  obtain ⟨⟨⟨⟨hentry, hresume⟩, hstarted⟩, hfired⟩, hwait⟩ := h
  obtain ⟨⟨kind, tid⟩, hlast, hkind⟩ := (Option.any_eq_true _ _).mp hresume
  have hkind : kind = .cont := by simpa using hkind
  subst hkind
  refine ⟨hentry, ⟨tid, hlast⟩, fun hin => ?_, hfired, hwait⟩
  have hawaits : awaitsStart d.tid (s.waiting call).history = true := hannounced d.tid (.inl hin)
  cases hawaits.symm.trans hstarted

theorem stepped_of_attributable {d : Delivery} {tid : Pid} {call : WaitCall}
    (h : attributable (s.waiting call) d = true) (hlast : s.world.lastResume = some (.step, tid))
    (htrap : d.status.isTrap = true)
    (hquiet : (s.dbg.ownedWatchpoint d.tid).isSome = true → d.debug 6 &&& dr6Breakpoint0 = 0) :
    d.tid = tid := by
  have h := (Bool.and_eq_true_iff.mp h).2
  have hfired : watchpointFired s.dbg d = false := by
    rcases howned : (s.dbg.ownedWatchpoint d.tid).isSome with _ | _
    · simp [watchpointFired, howned]
    · simp [watchpointFired, hquiet howned]
  simpa [stepsApart, Session.waiting, hlast, htrap, hfired] using h

theorem not_hit {d : Delivery} {tid : Pid} {address : Addr} (hpossible : s.world.possible d = true)
    (hst : d.status ≠ .stopped sigtrap .none) :
    ¬(WaitRecord.takes s.dbg s.world d).Hit tid address := by
  rintro ⟨-, hcause, -⟩
  exact hst (World.status_of_int3 hpossible hcause).1

theorem Session.Unhit.waiting (h : s.Unhit old resume) (call : WaitCall) :
    (s.waiting call).Unhit old resume :=
  ⟨h.resumed, h.unhit.cons rfl fun _ _ => id⟩

theorem Session.Unhit.deliver (h : s.Unhit old resume) (d : Delivery) (rest : List Wakeup)
    (hhit : ∀ tid address, ¬(WaitRecord.takes s.dbg s.world d).Hit tid address) :
    (s.deliver d rest).Unhit old resume :=
  ⟨World.deliver_lastResume.trans h.resumed, h.unhit.cons rfl hhit⟩

/-- What `attributed` asks of one pass of the loop, which may go round again. -/
def attributedPass (old : List WaitRecord) (resume : ResumeKind × Pid) :
    Post WaitCall Exception Session (Option StopInfo) where
  returned r t := match r with
    | some info => (attributed old resume).returned info t
    | none => t.Unhit old resume
  raised := (attributed old resume).raised
  blocked := (attributed old resume).blocked

theorem attributed_classifyEnded {event : WaitEvent}
    {processReason finalReason threadReason : StopReason} (h : s.Unhit old resume)
    (hprocess : processReason ≠ .singleStep) (hfinal : finalReason ≠ .singleStep)
    (hthread : threadReason ≠ .singleStep) :
    wp (classifyEnded event processReason finalReason threadReason) (attributedPass old resume)
      s := by
  refine wp_classifyEnded ?_ ?_ ?_ ?_ ?_
  · intro _ _ e _ _ _
    exact (h.unhit.of_eq rfl).none_hit
  · intro _ _ _ _ _
    exact attributed_of_unhit (h.unhit.of_eq rfl) hprocess
  · intro _ _
    exact attributed_of_unhit (h.unhit.of_eq rfl) hfinal
  · intro _ _
    exact ⟨h.resumed, h.unhit.of_eq rfl⟩
  · intro _ _
    exact attributed_of_unhit (h.unhit.of_eq rfl) hthread

theorem attributed_classifyExec {tid : Pid} (h : s.Unhit old resume) (hpos : 0 < tid)
    (hmessage : s.world.message tid ≤ pidMax) :
    wp (classifyExec tid) (attributed old resume) s := by
  refine wp_classifyExec hpos hmessage ?_ ?_ ?_
  · intro faults info sequence path hreason _
    exact attributed_of_unhit (h.unhit.of_eq rfl) (by simp [hreason])
  · intro _ faults e _
    exact (h.unhit.of_eq rfl).none_hit
  · intro faults e _
    exact (h.unhit.of_eq rfl).none_hit

theorem attributed_classifyFork {tid : Pid} (h : s.Unhit old resume) :
    wp (classifyFork tid) (attributed old resume) s := by
  refine wp_classifyFork ?_ ?_ ?_ ?_ ?_ ?_
  · intro faults e
    exact (h.unhit.of_eq rfl).none_hit
  · rintro t child childStop inherited info - - - ⟨_, _, _, rfl⟩ - - - hinfo
    exact attributed_of_unhit (h.unhit.of_eq rfl) (by rw [hinfo]; simp [processEventInfo])
  · intro child faults sequence debug memory requests info _ _ _ _ _ hinfo
    exact attributed_of_unhit (h.unhit.of_eq rfl) (by rw [hinfo]; simp [processEventInfo])
  · rintro child t info - - ⟨_, _, _, _, _, _, rfl, -, -⟩ hinfo
    exact attributed_of_unhit (h.unhit.of_eq rfl) (by rw [hinfo]; simp [processEventInfo])
  · rintro child t e - ⟨_, _, _, _, _, _, rfl, -, -⟩
    exact (h.unhit.of_eq rfl).none_hit
  · rintro child t e - - - ⟨_, _, _, _, _, _, rfl, -, -⟩ -
    exact (h.unhit.of_eq rfl).none_hit

include hsub

theorem attributed_classifyVfork {tid : Pid} (h : s.Unhit old resume) (hannounced : s.Announced) :
    wp (classifyVfork tracees tid) (attributed old resume) s := by
  refine wp_classifyVfork ?_ ?_ ?_
  · rintro _ e ⟨_, _, _, _, _, _, rfl, -, -⟩
    exact (h.unhit.of_eq rfl).none_hit
  · rintro _ ⟨_, _, _, _, _, _, rfl, -, -⟩
    exact h.unhit.of_eq rfl
  · rintro _ faults requests ⟨_, _, _, _, _, _, rfl, -, -⟩
    generalize hu : Session.mk _ _ _ _ _ _ = u
    have hunhit : (u.waiting .vforkDone).Since old fun record =>
        ∀ tid address, ¬record.Hit tid address := by
      subst hu
      exact (h.unhit.of_eq rfl).cons rfl fun _ _ => id
    have hannounced : u.Announced := by
      subst hu
      exact hannounced.of_eq rfl rfl rfl
    have hdelivered : ∀ d rest, Delivered tracees (-1) (u.waiting .vforkDone) d rest →
        ((u.waiting .vforkDone).deliver d rest).Since old fun record =>
          ∀ tid address, ¬record.Hit tid address := by
      rintro d rest hd
      refine hunhit.cons rfl ?_
      rintro tid address ⟨-, hcause, hgroup⟩
      cases (hit_of_attributable (hsub _ _ hd.produced) hannounced hcause hgroup).2.2.2.2
    refine wp_awaitVforkDone ?_ ?_ ?_ ?_ hunhit
    · intro rest
      exact (hunhit.of_eq rfl).none_hit
    · intro d rest t e hd _ _ hhistory
      exact ((hdelivered d rest hd).of_eq hhistory).none_hit
    · intro d rest signal faults e hd _ _
      exact ((hdelivered d rest hd).of_eq rfl).none_hit
    · intro d rest signal faults hd _ _ _
      exact attributed_of_unhit ((hdelivered d rest hd).of_eq rfl) (by simp)

theorem attributed_classifySignalStop {expectedSingleStep : Bool}
    (hexpected : expectedSingleStep = true ↔ resume.1 = .step) {call : WaitCall} {d : Delivery}
    {rest : List Wakeup} {requested : Pid} {signal : Nat} {event : PtraceEvent} {p : Process}
    (h : s.Unhit old resume) (hannounced : s.Announced)
    (hd : Delivered tracees requested (s.waiting call) d rest)
    (hst : d.status = .stopped signal event) (hevent : event = .none ∨ event = .other) :
    wp (classifySignalStop expectedSingleStep
        { kind := .stopped, value := signal, tid := d.tid, ptraceEvent := event })
      (attributed old resume) (((s.waiting call).deliver d rest).withProcess p) := by
  have hp : s.world.possible d = true := hd.possible
  have hdeliver : s.world.deliver d = s.world.stop d := by
    rcases hevent with rfl | rfl <;> simp [World.deliver, hst]
  have hdebug : (s.world.deliver d).debug d.tid = d.debug := by simp [hdeliver, World.stop]
  have hregs : (s.world.deliver d).regs d.tid = d.regs := by simp [hdeliver, World.stop]
  -- the record of this report, provided it is not a hit
  have unhit : (∀ address, ¬(WaitRecord.takes s.dbg s.world d).Hit d.tid address) → ∀ t : Session,
      t.history = ((s.waiting call).deliver d rest).history →
      t.Since old fun record => ∀ tid address, ¬record.Hit tid address := by
    intro hno t hhistory
    refine (h.waiting call).unhit.cons hhistory fun tid address hhit => ?_
    have htid : d.tid = tid := hhit.1
    subst htid
    exact hno address hhit
  refine wp_classifySignalStop ?_ ?_ ?_ ?_ ?_ ?_
  · intro info hstart hreason _ _
    refine attributed_of_unhit (unhit ?_ _ rfl) (by simp [hreason])
    rintro address ⟨-, hcause, hgroup⟩
    exact (hit_of_attributable (hsub _ _ hd.produced) hannounced hcause hgroup).2.2.1 hstart
  · intro info _ hsignal hreason _ _
    refine attributed_of_unhit (unhit (fun address => not_hit hp ?_) _ rfl) (by simp [hreason])
    rw [hst]
    rintro ⟨⟩
    exact hsignal rfl
  · rintro t info - - howned hdr ⟨faults, sequence, debug, rfl⟩ hreason -
    refine attributed_of_unhit (unhit ?_ _ rfl) (by simp [hreason])
    rintro address ⟨-, hcause, hgroup⟩
    have hfired :=
      (hit_of_attributable (hsub _ _ hd.produced) hannounced hcause hgroup).2.2.2.1
    have howned : (s.dbg.ownedWatchpoint d.tid).isSome = true := howned
    have hdr : (s.world.deliver d).debug d.tid 6 &&& dr6Breakpoint0 ≠ 0 := hdr
    rw [hdebug] at hdr
    simp only [watchpointFired, howned, Bool.true_and, bne_eq_false_iff_eq] at hfired
    exact hdr hfired
  · rintro t info hstart hsignal hquiet hstep ⟨faults, sequence, debug, rfl⟩ hreason htid
    have hsignal : signal = sigtrap := hsignal
    have hkind : resume.1 = .step := hexpected.mp hstep
    have hlast : s.world.lastResume = some (.step, resume.2) := by rw [h.resumed, ← hkind]
    refine ⟨(unhit ?_ _ rfl).none_hit, fun _ => ?_⟩
    · rintro address ⟨-, hcause, hgroup⟩
      obtain ⟨-, ⟨other, hcont⟩, -⟩ :=
        hit_of_attributable (hsub _ _ hd.produced) hannounced hcause hgroup
      cases hlast.symm.trans hcont
    · have hself : d.tid = resume.2 := by
        refine stepped_of_attributable (hsub _ _ hd.produced) hlast ?_ fun howned => ?_
        · rw [hst, hsignal]
          rcases hevent with rfl | rfl <;> rfl
        · have : (s.world.deliver d).debug d.tid 6 &&& dr6Breakpoint0 = 0 := hquiet howned
          rwa [hdebug] at this
      rw [htid]
      exact World.deliver_lastResume.trans (hself ▸ hlast)
  · rintro t hstart hsignal hcont ⟨faults, sequence, debug, rfl⟩
    have hkind : resume.1 = .cont := by
      rcases hk : resume.1 with _ | _
      · rfl
      · exact absurd (hexpected.mpr hk) (by simp [hcont])
    have hmine : ∀ {tid address}, (WaitRecord.takes s.dbg s.world d).Hit tid address →
        d.tid = tid ∧ hasEntry s.dbg address true = true ∧
          ((s.world.deliver d).regs d.tid).rip - 1 = address ∧
          ((s.world.deliver d).regs d.tid).rip ≠ 0 := by
      rintro tid address ⟨htid, hcause, hgroup⟩
      have hentry := (hit_of_attributable (hsub _ _ hd.produced) hannounced hcause hgroup).1
      obtain ⟨-, hrip, hlow⟩ := World.status_of_int3 hp hcause
      rw [hregs, hrip]
      refine ⟨htid, hentry, by simp, fun hzero => ?_⟩
      have := congrArg BitVec.toNat hzero
      simp at this
      omega
    refine wp_classifyTrap ?_ ?_ ?_
    · intro bp faults info hbp hin hrip hreason htid haddress
      refine ⟨(h.waiting call).unhit.none_hit.cons rfl fun tid address hhit => ⟨hkind, ?_⟩,
        fun hr => by cases hreason.symm.trans hr⟩
      obtain ⟨rfl, -, rfl, -⟩ := hmine hhit
      refine ⟨hreason, htid, haddress, ?_⟩
      simp [Session.hit, Session.stopWith]
      rfl
    · intro faults info hno hreason htid
      refine attributed_of_unhit (unhit (fun address hhit => hno ?_) _ rfl) (by simp [hreason])
      obtain ⟨-, hentry, haddress, hrip⟩ := hmine hhit
      exact ⟨hrip, haddress ▸ hentry⟩
    · intro faults regs snapshots e he
      exact (h.waiting call).unhit.none_hit.cons rfl fun _ _ _ => he
  · rintro t e ⟨faults, sequence, debug, rfl⟩ he
    exact (h.waiting call).unhit.none_hit.cons rfl fun _ _ _ => he

theorem attributed_waitPass {expectedSingleStep : Bool}
    (hexpected : expectedSingleStep = true ↔ resume.1 = .step) (h : s.Unhit old resume)
    (hannounced : s.Announced) :
    wp (waitPass tracees expectedSingleStep) (attributedPass old resume) s := by
  simp only [waitPass, wp_bind]
  refine wp_waitActiveProcess (fun e => h.unhit.none_hit) ?_
  have hw := h.waiting (.active s.dbg.waitTarget)
  refine wp_waitFor ?_ ?_ ?_ ?_ ?_ ?_ hw.unhit
  · intro rest
    exact (hw.unhit.of_eq rfl).none_hit
  · intro d rest hd _ hforeign
    -- a thread of the active process that ran into a breakpoint is not foreign
    refine (hw.unhit.cons rfl fun tid address hhit => ?_).none_hit
    obtain ⟨-, hcause, hgroup⟩ := hhit
    have hp : s.world.possible d = true := hd.possible
    have hst := (World.status_of_int3 hp hcause).1
    refine hforeign (by rw [hst]; rfl) (.inr ?_)
    have hself := World.deliver_tasks_self hp hst
    exact hself.trans (congrArg some hgroup)
  · intro d rest event p hd _ hend hkind _ _
    have hu := hw.deliver d rest fun _ _ =>
      not_hit hd.possible (by rintro hst; simp [hst, WaitStatus.isStopped] at hend)
    have hu : (((s.waiting (.active s.dbg.waitTarget)).deliver d rest).withProcess p).Unhit old
        resume := ⟨hu.resumed, hu.unhit.of_eq rfl⟩
    rcases hk : event.kind with _ | _ | _
    · exact absurd hk hkind
    · simp only [classifyEvent, hk]
      exact attributed_classifyEnded hu (by decide) (by decide) (by decide)
    · simp only [classifyEvent, hk]
      exact attributed_classifyEnded hu (by decide) (by decide) (by decide)
  · intro d rest signal event hd _ hst hne
    have hp : s.world.possible d = true := hd.possible
    -- only a stop without an event can be a hit
    have unhit : event ≠ .none → (((s.waiting (.active s.dbg.waitTarget)).deliver d
        rest).withProcess ((s.dbg.process.reportedBy d.tid).taskStopped d.tid)).Unhit old
          resume := by
      intro hevent
      have hu := hw.deliver d rest fun _ _ => not_hit hp (by rw [hst]; rintro ⟨⟩; exact hevent rfl)
      exact ⟨hu.resumed, hu.unhit.of_eq rfl⟩
    cases event with
    | clone => exact absurd rfl hne
    | exec =>
      simp only [classifyEvent, wp_map]
      exact attributed_classifyExec (unhit (by decide)) (World.pos_of_possible hp)
        ((World.deliver_message hst).trans_le (World.exec_leader hp hst).2)
    | fork =>
      simp only [classifyEvent, wp_map]
      exact attributed_classifyFork (unhit (by decide))
    | vfork =>
      have hplain : d.status.isPlain = false := by rw [hst]; rfl
      have hafter : ((s.waiting (.active s.dbg.waitTarget)).deliver d rest).Announced :=
        hannounced.deliver _ (not_settles_of_not_plain hplain)
      simp only [classifyEvent, wp_map]
      exact attributed_classifyVfork hsub (unhit (by decide)) hafter
    | vforkDone => exact ((unhit (by decide)).unhit.of_eq rfl).none_hit
    | none =>
      simp only [classifyEvent, wp_map]
      exact attributed_classifySignalStop hsub hexpected h hannounced hd hst (.inl rfl)
    | other =>
      simp only [classifyEvent, wp_map]
      exact attributed_classifySignalStop hsub hexpected h hannounced hd hst (.inr rfl)
  · intro d rest signal faults hd _ hst _ _
    have hu := hw.deliver d rest fun _ _ => not_hit hd.possible (by rw [hst]; simp)
    simp only [classifyEvent, wp_bind]
    exact wp_classifyClone rfl (fun _ => ⟨hu.resumed, hu.unhit.of_eq rfl⟩)
      (fun e _ => (hu.unhit.of_eq rfl).none_hit)
  · intro d rest signal faults e hd _ hst _
    have hu := hw.deliver d rest fun _ _ => not_hit hd.possible (by rw [hst]; simp)
    exact (hu.unhit.of_eq rfl).none_hit

theorem attributed_waitAndClassify {expectedSingleStep : Bool} (h : s.Unhit old resume)
    (hannounced : s.Announced) (hexpected : expectedSingleStep = true ↔ resume.1 = .step) :
    wp (waitAndClassify tracees expectedSingleStep) (attributed old resume) s := by
  refine wp_waitAndClassify (I := fun u => u.Unhit old resume ∧ u.Announced) (fun u hu => ?_)
    (fun u hu => hu.1.unhit) ⟨h, hannounced⟩
  refine wp_mono (wp_and (attributed_waitPass hsub hexpected hu.1 hu.2) (announced_waitPass u hu.2))
    (fun r t ht => ?_) (fun _ _ ht => ht.1) (fun _ _ ht => ht.1)
  cases r with
  | none => exact ht
  | some info => exact ht.1

/-! ## Operations -/

theorem attributed_resumeAndWait {kind : ResumeKind} {policy : SignalPolicy} {tid : Pid}
    (htid : s.dbg.process.currentTid = tid) (hannounced : s.Announced)
    (h : s.Since old fun record => ∀ tid address, ¬record.Hit tid address) :
    wp (resumeAndWait tracees kind policy) (attributed old (kind, tid)) s := by
  refine wp_resumeAndWait (fun faults e => (h.of_eq rfl).none_hit) fun faults signal _ _ _ => ?_
  refine attributed_waitAndClassify hsub ⟨?_, h.of_eq rfl⟩ (hannounced.of_eq rfl rfl rfl) (by simp)
  rw [htid]
  rfl

/-- Nothing is hit in a displaced step. -/
theorem attributed_stepOver {step : PendingBreakpointStep} {exposeSingleStep : Bool}
    (hannounced : s.Announced) :
    wp (stepOverPendingBreakpoint tracees step exposeSingleStep)
      ⟨fun info t => (t.Since s.history fun record => ∀ tid address, ¬record.Hit tid address) ∧
        (info.reason = .singleStep → t.world.lastResume = some (.step, info.tid)),
        fun e t => t.Since s.history fun record => ∀ tid address, record.Hit tid address →
          e.isPtraceError = true,
        fun _ t => t.Since s.history fun record => ∀ tid address, ¬record.Hit tid address⟩ s := by
  refine wp_stepOverPendingBreakpoint (fun faults e => Session.since_refl) fun faults => ?_
  have hstart : (s.resumed .step step.tid 0 s.dbg.pendingSignals faults).Unhit s.history
      (.step, step.tid) := ⟨rfl, Session.since_refl.of_eq rfl⟩
  have hannounced : (s.resumed .step step.tid 0 s.dbg.pendingSignals faults).Announced :=
    hannounced.of_eq rfl rfl rfl
  refine wp_mono (attributed_waitAndClassify hsub hstart hannounced (by simp)) ?_
    (fun _ _ ht => ht) (fun _ _ ht => ht)
  rintro info t ⟨hhits, hstepped⟩
  have hunhit : t.Since s.history fun record => ∀ tid address, ¬record.Hit tid address :=
    hhits.mono fun record hrecord tid address hhit => by cases (hrecord tid address hhit).1
  dsimp only
  split
  · exact ⟨hunhit, hstepped⟩
  · exact wp_finishDisplacedStep (fun _ _ _ _ _ _ _ _ => ⟨hunhit.of_eq rfl, hstepped⟩)
      (fun _ _ => ⟨hunhit.of_eq rfl, hstepped⟩) (fun _ _ _ => (hunhit.of_eq rfl).none_hit)

/-- What an operation has to say about the hits since `old`. -/
def accounted (old : List WaitRecord) : Post WaitCall Exception Session Result where
  returned r t :=
    (t.Since old fun record => ∀ tid address, record.Hit tid address →
      ∃ info, r = .stop info ∧ info.Reports t tid address) ∧
    ∀ info, r = .stop info → info.reason = .singleStep →
      t.world.lastResume = some (.step, info.tid)
  raised e t := t.Since old fun record => ∀ tid address, record.Hit tid address →
    e.isPtraceError = true
  blocked _ t := t.Since old fun record => ∀ tid address, ¬record.Hit tid address

theorem accounted_continueExecution {policy : SignalPolicy} (hannounced : s.Announced) :
    wp (continueExecution tracees policy)
      ⟨fun info t => (accounted s.history).returned (.stop info) t, (accounted s.history).raised,
        (accounted s.history).blocked⟩ s := by
  have resumes : ∀ u : Session, u.Announced →
      (u.Since s.history fun record => ∀ tid address, ¬record.Hit tid address) →
      wp (resumeAndWait tracees .cont policy)
        ⟨fun info t => (accounted s.history).returned (.stop info) t, (accounted s.history).raised,
          (accounted s.history).blocked⟩ u := by
    intro u hannounced hu
    refine wp_mono (attributed_resumeAndWait hsub rfl hannounced hu) ?_ (fun _ _ ht => ht)
      (fun _ _ ht => ht)
    rintro info t ⟨hhits, hstepped⟩
    refine ⟨hhits.mono fun record hrecord tid address hhit =>
      ⟨info, rfl, (hrecord tid address hhit).2⟩, ?_⟩
    rintro _ ⟨⟩
    exact hstepped
  refine wp_continueExecution (fun e => Session.since_refl)
    (fun _ => resumes s hannounced Session.since_refl) fun step _ _ _ _ => ?_
  refine wp_mono (wp_and (attributed_stepOver hsub hannounced) (announced_stepOver s hannounced)) ?_
    (fun _ _ ht => ht.1) (fun _ _ ht => ht.1)
  rintro info t ⟨⟨hunhit, hstepped⟩, hafter⟩
  dsimp only
  split
  · refine ⟨hunhit.none_hit, ?_⟩
    rintro _ ⟨⟩
    exact hstepped
  · exact resumes t hafter hunhit

theorem accounted_singleStep {policy : SignalPolicy} (hannounced : s.Announced) :
    wp (singleStep tracees policy)
      ⟨fun info t => (accounted s.history).returned (.stop info) t, (accounted s.history).raised,
        (accounted s.history).blocked⟩ s := by
  refine wp_singleStep (fun e => Session.since_refl) (fun _ => ?_) (fun step _ _ _ _ => ?_)
  · refine wp_mono (attributed_resumeAndWait hsub rfl hannounced Session.since_refl) ?_
      (fun _ _ ht => ht) (fun _ _ ht => ht)
    rintro info t ⟨hhits, hstepped⟩
    refine ⟨hhits.mono fun record hrecord tid address hhit =>
      ⟨info, rfl, (hrecord tid address hhit).2⟩, ?_⟩
    rintro _ ⟨⟩
    exact hstepped
  · refine wp_mono (attributed_stepOver hsub hannounced) ?_ (fun _ _ ht => ht) (fun _ _ ht => ht)
    rintro info t ⟨hunhit, hstepped⟩
    refine ⟨hunhit.none_hit, ?_⟩
    rintro _ ⟨⟩
    exact hstepped

/-- Every operation accounts for the hits it has seen. -/
theorem accounted_run (op : Operation) (hannounced : s.Announced) :
    wp (op.run tracees) (accounted s.history) s := by
  rcases hop : op.resumes with _ | _
  · refine wp_mono (wp_run_of_not_resumes hop) ?_ (fun _ _ ht => Session.since_refl.of_eq ht)
      (fun _ _ ht => ht.elim)
    rintro r t ⟨ht, hr⟩
    exact ⟨Session.since_refl.of_eq ht, fun info h => absurd h (hr info)⟩
  · cases op with
    | continueExecution policy =>
      simp only [Operation.run, wp_map]
      exact accounted_continueExecution hsub hannounced
    | singleStep policy =>
      simp only [Operation.run, wp_map]
      exact accounted_singleStep hsub hannounced
    | _ => cases hop

end Attribution

/-- No operation fails in a ptrace request. -/
def unfailing : Operation → Reply → Prop := fun _ reply =>
  ∀ e, reply = .error e → e.isPtraceError = false

/-- In every run of `attributable` tracees each hit of an installed breakpoint has been reported as
a breakpoint stop of the thread that hit it, and so it is in the operation to come; a single step
is reported for the thread that was stepped. -/
theorem traps_attributed {log : List Result} {s : Session} (h : Run attributable unfailing log s) :
    (∀ record ∈ s.history, ∀ tid address, record.Hit tid address →
      ∃ info, .stop info ∈ log ∧ info.reason = .breakpoint ∧ info.tid = tid ∧
        info.breakpointAddress = some address) ∧
    ∀ (op : Operation) (script : List Wakeup) (faults : List (Option Nat)),
      wp (op.run attributable) (accounted s.history) (s.facing script faults) := by
  refine ⟨?_, fun op script faults =>
    accounted_run (fun _ _ h => h) op (h.announced.of_eq rfl rfl rfl)⟩
  refine (Run.invariant (I := fun log s => s.Announced ∧ ∀ record ∈ s.history, ∀ tid address,
    record.Hit tid address → ∃ info, .stop info ∈ log ∧ info.reason = .breakpoint ∧
      info.tid = tid ∧ info.breakpointAddress = some address) ?_ ?_ h).2
  · intro s hs
    refine ⟨hs.announced, fun record hrecord => ?_⟩
    have : s.history = [] := by cases hs <;> assumption
    simp [this] at hrecord
  · rintro log s op script faults ⟨hannounced, hI⟩
    have hannounced : (s.facing script faults).Announced := hannounced.of_eq rfl rfl rfl
    refine wp_mono (wp_and (accounted_run (fun _ _ h => h) op hannounced)
      (announced_run op _ hannounced))
      (fun r t ht _ => ⟨ht.2, fun record hrecord tid address hhit => ?_⟩)
      (fun e t ht hallowed => ⟨ht.2, fun record hrecord tid address hhit => ?_⟩)
      (fun _ _ _ => trivial)
    · rcases ht.1.1.mem hrecord with hold | hnew
      · obtain ⟨info, hmem, hreport⟩ := hI record hold tid address hhit
        exact ⟨info, List.mem_cons_of_mem r hmem, hreport⟩
      · obtain ⟨info, rfl, hreason, htid, haddress, -⟩ := hnew tid address hhit
        exact ⟨info, List.mem_cons_self, hreason, htid, haddress⟩
    · rcases ht.1.mem hrecord with hold | hnew
      · exact hI record hold tid address hhit
      · cases (hallowed e rfl).symm.trans (hnew tid address hhit)

/-- The report of the thread that executes the `INT3` at `0x1000`. -/
def trapAt1000 : Delivery where
  tid := 10
  status := .stopped sigtrap .none
  cause := .int3 0x1000
  regs := { rip := 0x1001 }

theorem attachedPair_run (tracees : Tracees) : Run tracees unfailing [.breakpoint 1]
    (Session.attachedPair.after tracees (.addBreakpoint 0x1000) []) :=
  (Run.start started_attachedPair).after _ _ rfl (by rintro _ ⟨⟩)

theorem traps_attributed_continue : ∃ info t,
    Operation.run attributable (.continueExecution .suppress)
      ((Session.attachedPair.after attributable (.addBreakpoint 0x1000) []).facing
        [.report trapAt1000] []) = .returned (.stop info) t ∧ info.Reports t 10 0x1000 := by
  have hvalue : (Operation.run attributable (.continueExecution .suppress)
      ((Session.attachedPair.after attributable (.addBreakpoint 0x1000) []).facing
        [.report trapAt1000] [])).value? =
      some (.stop { reason := .breakpoint, value := sigtrap, tid := 10, sequence := 1
                    breakpointAddress := some 0x1000 }) := by
    decide +kernel
  have hrun := Outcome.eq_returned_of_value? hvalue
  refine ⟨_, _, hrun, ?_⟩
  have haccounted := wp_returned ((traps_attributed (attachedPair_run attributable)).2 _ _ _) hrun
  have hhit : ∃ record ∈ (Operation.run attributable (.continueExecution .suppress)
      ((Session.attachedPair.after attributable (.addBreakpoint 0x1000) []).facing
        [.report trapAt1000] [])).state.history, record.HitInstalled 10 0x1000 := by decide +kernel
  obtain ⟨record, hrecord, hhit⟩ := hhit
  obtain hold | hnew := haccounted.1.mem hrecord
  · cases hold
  · obtain ⟨info, hinfo, hreports⟩ := hnew 10 0x1000 hhit.hit
    cases hinfo
    exact hreports

/-- A thread that is stepped onto a breakpoint is reported to have made a step and is left behind
the breakpoint, which is still installed. -/
theorem stepped_hit_not_reported :
    ¬∀ (log : List Result) (s : Session), Run anyTracees unfailing log s →
      ∀ record ∈ s.history, ∀ tid address, record.HitInstalled tid address →
        ∃ info, .stop info ∈ log ∧ info.reason = .breakpoint ∧ info.tid = tid ∧
          info.breakpointAddress = some address := by
  intro h
  have hrun := (attachedPair_run anyTracees).after (.singleStep .suppress) [.report trapAt1000]
    (r := .stop { reason := .singleStep, value := sigtrap, tid := 10, sequence := 1 })
    (by decide +kernel) (by rintro _ ⟨⟩)
  have hhit : ∃ record ∈ ((Session.attachedPair.after anyTracees (.addBreakpoint 0x1000) []).after
      anyTracees (.singleStep .suppress) [.report trapAt1000]).history,
      record.HitInstalled 10 0x1000 := by decide +kernel
  obtain ⟨record, hrecord, hhit⟩ := hhit
  obtain ⟨info, hmem, hreason, -, -⟩ := h _ _ hrun record hrecord 10 0x1000 hhit
  rcases List.mem_cons.mp hmem with heq | hmem
  · cases heq
    cases hreason
  · simp at hmem

end MiniDebugger
