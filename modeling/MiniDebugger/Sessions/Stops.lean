import MiniDebugger.Sessions.Reports

/-!
# What the classifier leaves in order

One pass of `wait_and_classify` starts `Waitable` and ends with a stop that is `Reported`, with an
exception, or `Waitable` again. A stop leaves the tables in order, lifts at most the breakpoint it
reports, and when it is the end of the active process a survivor takes its place.
-/

namespace MiniDebugger

open Command
open Function (update update_self update_of_ne)
open Std (ExtTreeMap)
open Overlay

/-- A task of the active process has stopped and the stop is still to be classified. -/
structure Core.Halted (b : Bool) (issued : List Nat) (pending : Option PendingBreakpointStep)
    (registry : ExtTreeMap Pid RetainedProcessDomain) (tid : Pid) (c : Core) : Prop where
  good : c.Good b issued
  stopped : c.active.process.state = .stopped
  tracked : c.active.process.taskStates[tid]? = some .stopped
  displaced : c.active.pending = pending
  held : c.retained = registry

/-- A domain of `registry` has become the active process. -/
def Session.Promoted (registry : ExtTreeMap Pid RetainedProcessDomain) (t : Session) : Prop :=
  ∃ survivor domain, registry[survivor]? = some domain ∧ domain.domain.Resting ∧
    t.dbg.parked = { domain with stopInfo := t.dbg.stopInfo } ∧
    t.dbg.retainedProcesses = registry.erase survivor

/-- The reasons that stand for the end of a process. -/
def StopReason.isEnd : StopReason → Bool
  | .processExited | .processSignaled | .exited | .signaled => true
  | _ => false

/-- A stop has been reported to the caller of `wait_and_classify`. -/
structure Session.Reported (b : Bool) (issued : List Nat) (pending : Option PendingBreakpointStep)
    (registry : ExtTreeMap Pid RetainedProcessDomain) (info : StopInfo) (t : Session) :
    Prop where
  good : t.core.Good b issued
  halted : t.dbg.process.state ≠ .running
  settled : ∀ p q, pending = some q → t.dbg.pendingBreakpointStep = some p → p = q
  stepped : info.reason = .singleStep → t.dbg.retainedProcesses = registry
  promoted : info.reason = .processExited ∨ info.reason = .processSignaled →
    t.Promoted registry
  last : info.reason = .exited ∨ info.reason = .signaled → registry = ∅

/-- The postcondition of the classifier. A byte that cannot be accessed can leave the memory
behind. -/
def classified (b : Bool) (issued : List Nat) (pending : Option PendingBreakpointStep)
    (registry : ExtTreeMap Pid RetainedProcessDomain) :
    Post WaitCall Exception Session StopInfo where
  returned info t := t.Reported b issued pending registry info
  raised e t := t.core.Good (b && !e.isByteError) issued
  blocked _ _ := True

section Stops

variable {b : Bool} {issued : List Nat} {pending : Option PendingBreakpointStep}
  {registry : ExtTreeMap Pid RetainedProcessDomain} {tracees : Tracees} {s t : Session}
  {tid : Pid}

theorem Core.Good.weaken {c : Core} (h : c.Good b issued) {b' : Bool} (hb : b' = true → b = true) :
    c.Good b' issued :=
  ⟨h.tables, fun hb' => h.bytes (hb hb')⟩

theorem Core.Good.and {c : Core} (h : c.Good b issued) (x : Bool) : c.Good (b && x) issued :=
  h.weaken fun hb => (Bool.and_eq_true_iff.mp hb).1

theorem Core.Good.raised {c : Core} (h : c.Good b issued) (e : Exception) :
    c.Good (b && !e.isByteError) issued :=
  h.and _

theorem Core.Halted.mem {c : Core} (h : c.Halted b issued pending registry tid) :
    tid ∈ c.active.process.taskStates :=
  ExtTreeMap.mem_iff_isSome_getElem?.mpr (Option.isSome_of_eq_some h.tracked)

theorem Core.Halted.not_running {c : Core} (h : c.Halted b issued pending registry tid) :
    c.active.process.state ≠ .running := by
  rw [h.stopped]
  decide

/-- A stop that changes nothing of the core. -/
theorem Core.Halted.reported (h : s.core.Halted b issued pending registry tid)
    (hcore : t.core = s.core) {info : StopInfo} (hreason : info.reason.isEnd = false) :
    t.Reported b issued pending registry info := by
  rw [← hcore] at h
  refine ⟨h.good, h.not_running, ?_, fun _ => h.held, ?_, ?_⟩
  · intro p q hq hp
    have := h.displaced.symm.trans hp
    rw [hq] at this
    exact (Option.some.inj this).symm
  · rintro (hr | hr) <;> rw [hr] at hreason <;> cases hreason
  · rintro (hr | hr) <;> rw [hr] at hreason <;> cases hreason

/-- Lifting the breakpoint that was hit. -/
theorem Core.Halted.good_hit (h : s.core.Halted b issued none registry tid) {address : Addr}
    {bp : Breakpoint} {regs : UserRegs}
    (hbp : s.dbg.breakpointsByAddress[address]? = some bp) :
    (s.hit tid address bp regs).core.Good b issued := by
  have hspace := Session.space_of_tracked h.good.tables h.mem
  have hidle : s.dbg.pendingBreakpointStep = none := h.displaced
  refine ⟨h.good.tables.retable le_rfl ?_ ?_, fun hb => ?_⟩
  · refine h.good.tables.sound.setInstalled fun hlive a bp' hbp' hout => ?_
    by_cases ha : a = address
    · exact ⟨⟨address, tid⟩, rfl, ha.symm⟩
    · rw [if_neg ha] at hout
      have := h.good.tables.sound.installed hlive hidle hbp'
      rw [this] at hout
      cases hout
  · intro i a hi
    exact .inl (ExtTreeMap.mem_iff_isSome_getElem?.mpr (Option.isSome_of_eq_some hi))
  · unfold Session.hit Session.poke
    rw [hspace]
    exact (h.good.bytes hb).repatch h.good.tables.free (patches_setInstalled hbp)
      (by rintro p ⟨⟩; rfl)

theorem reported_classifySignalStop {expectedSingleStep : Bool} {event : WaitEvent}
    (h : s.core.Halted b issued pending registry event.tid)
    (hidle : expectedSingleStep = false → pending = none) :
    wp (classifySignalStop expectedSingleStep event) (classified b issued pending registry) s := by
  refine wp_classifySignalStop ?_ ?_ ?_ ?_ ?_ ?_
  · intro info _ hreason _ _
    exact h.reported (by rfl) (by rw [hreason]; rfl)
  · intro info _ _ hreason _ _
    exact h.reported (by rfl) (by rw [hreason]; rfl)
  · rintro t info - - - - ⟨_, _, _, rfl⟩ hreason -
    exact h.reported (by rfl) (by rw [hreason]; rfl)
  · rintro t info - - - - ⟨_, _, _, rfl⟩ hreason -
    exact h.reported (by rfl) (by rw [hreason]; rfl)
  · rintro t - - hexpected ⟨faults, sequence, debug, rfl⟩
    have hnone := hidle hexpected
    subst hnone
    refine wp_classifyTrap ?_ ?_ ?_
    · intro bp faults info hbp hin hrip hreason _ _
      refine ⟨h.good_hit (s := s) hbp, h.not_running, ?_, fun hr => ?_, fun hr => ?_, fun hr => ?_⟩
      · intro p q hq
        cases hq
      · rw [hreason] at hr
        cases hr
      · rw [hreason] at hr
        rcases hr with hr | hr <;> cases hr
      · rw [hreason] at hr
        rcases hr with hr | hr <;> cases hr
    · intro faults info _ hreason _
      exact h.reported (by rfl) (by rw [hreason]; rfl)
    · intro faults regs snapshots e _
      exact h.good.raised e
  · rintro t e ⟨_, _, _, rfl⟩ -
    exact h.good.raised e

/-! ## Exec -/

theorem Session.Waitable.good_exec {call : WaitCall} {requested : Pid} {d : Delivery}
    {rest : List Wakeup}
    (h : s.Waitable b issued pending registry)
    (hd : Delivered tracees requested (s.waiting call) d rest) {signal : Nat}
    (hst : d.status = .stopped signal .exec) (hgroup : s.world.groupOf d = s.dbg.process.pid)
    {p : Process} :
    Core.Good b issued { s.core with
      active := ⟨p.singleTask d.tid, ∅, ∅, none, none⟩
      tasks := (s.world.deliver d).tasks
      memory := (s.world.deliver d).memory } := by
  have hp : s.world.possible d = true := hd.possible
  have hleader : s.dbg.process.pid = d.tid := by
    rw [← hgroup, World.groupOf, (World.exec_leader hp hst).1]
    rfl
  have hself := World.deliver_tasks_self hp hst
  rw [hgroup, hleader] at hself
  refine ⟨h.good.tables.restart Domain.Sound.empty
    (Process.Linked.singleTask hself (World.pos_of_possible hp)) (by rintro tid ⟨⟩) (.inl rfl) ?_
    (by simp) fun tid pid hpid htid =>
      tasks_of_retained h.good.tables hp (fun _ => hgroup) hpid htid, fun hb => ?_⟩
  · have := h.good.tables.free
    rwa [show s.core.active.process.pid = d.tid from hleader] at this
  · exact ⟨armed_empty, fun q domain hdomain => h.armed_retained hd (fun _ => hgroup) hb hdomain⟩

/-! ## Exits -/

theorem forgetTask_owner {dbg : Debugger} {tid other : Pid}
    (h : (dbg.forgetTask tid).domain.owner = some other) :
    dbg.domain.owner = some other ∧ other ≠ tid := by
  simp only [Debugger.forgetTask, Debugger.domain] at h ⊢
  rcases hsnap : dbg.watchpointRegisterSnapshot with _ | snapshot
  · simp [hsnap] at h
  · by_cases heq : snapshot.tid = tid
    · simp [hsnap, heq] at h
    · have : snapshot.tid = other := by simpa [hsnap, heq] using h
      subst this
      exact ⟨rfl, heq⟩

/-- The tables once the active process has ended and a retained domain has taken its place. -/
theorem Session.Waitable.good_promoted {call : WaitCall} {requested : Pid} {d : Delivery}
    {rest : List Wakeup}
    (h : s.Waitable b issued pending registry)
    (hd : Delivered tracees requested (s.waiting call) d rest)
    (hin : d.tid ∈ s.dbg.process.taskStates) {survivor : Pid} {domain : RetainedProcessDomain}
    (hdomain : s.dbg.retainedProcesses[survivor]? = some domain) :
    Core.Good b issued { s.core with
      active := domain.domain
      retained := s.dbg.retainedProcesses.erase survivor
      tasks := (s.world.deliver d).tasks
      memory := (s.world.deliver d).memory } := by
  have hkey : domain.process.pid = survivor := (h.good.tables.kept survivor domain hdomain).key
  have hmem : survivor ∈ s.dbg.retainedProcesses :=
    ExtTreeMap.mem_iff_isSome_getElem?.mpr (Option.isSome_of_eq_some hdomain)
  have hgroup : s.dbg.retainedProcesses ≠ ∅ → s.world.groupOf d = s.dbg.process.pid := fun _ =>
    groupOf_of_tracked h.good.tables hin
  refine ⟨(h.good.tables.promote hdomain).retask fun tid pid hpid htid => ?_, fun hb => ⟨?_, ?_⟩⟩
  · refine tasks_of_retained h.good.tables hd.possible hgroup ?_ htid
    rcases hpid with rfl | hpid
    · exact hkey.symm ▸ hmem
    · exact (ExtTreeMap.mem_erase.mp hpid).2
  · have := h.armed_retained hd hgroup hb hdomain
    rw [← hkey] at this
    exact this
  · intro q Q hQ
    rw [ExtTreeMap.getElem?_erase] at hQ
    split at hQ
    · cases hQ
    · exact h.armed_retained hd hgroup hb hQ

theorem reported_classifyEnded {call : WaitCall} {requested : Pid} {d : Delivery}
    {rest : List Wakeup}
    (htame : Tame b tracees) (h : s.Waitable b issued pending registry)
    (hd : Delivered tracees requested (s.waiting call) d rest)
    (hin : d.tid ∈ s.dbg.process.taskStates) (hend : d.status.isStopped = false) {p : Process}
    (hended : s.dbg.process.EndedTask d.tid p) {event : WaitEvent} (htid : event.tid = d.tid)
    {processReason finalReason threadReason : StopReason}
    (hthread : threadReason.isEnd = false ∧ threadReason ≠ .singleStep)
    (hfinal : finalReason = .exited ∨ finalReason = .signaled)
    (hprocess : processReason = .processExited ∨ processReason = .processSignaled) :
    wp (classifyEnded event processReason finalReason threadReason)
      ⟨fun r t => match r with
        | some info => t.Reported b issued pending registry info
        | none => t.Waitable b issued pending registry,
        (classified b issued pending registry).raised, fun _ _ => True⟩
      (((s.waiting call).deliver d rest).withProcess p) := by
  have hexec : d.status.isExec = false := by
    rcases hst : d.status with code | signal | ⟨signal, event⟩
    · rfl
    · rfl
    · simp [hst, WaitStatus.isStopped] at hend
  have hgood : (s.dbg.retainedProcesses ≠ ∅ → p.live) →
      (s.filed d p (s.dbg.forgetTask d.tid).domain.owner).Good b issued := fun hstays =>
    ⟨h.tables_ended hd hin hended (fun tid ho => forgetTask_owner ho) hstays,
      fun hb => h.bytes_filed htame hd hb (fun _ => hexec)
        (fun _ => groupOf_of_tracked h.good.tables hin) hended.pid⟩
  refine wp_classifyEnded ?_ ?_ ?_ ?_ ?_
  · intro survivor domain e _ _ hcollide
    have hcollide : p.pid ∈ s.dbg.retainedProcesses := hcollide
    rw [hended.pid] at hcollide
    exact absurd hcollide h.good.tables.free
  · intro survivor domain _ hdomain _
    have hk := h.good.tables.kept survivor domain hdomain
    refine ⟨h.good_promoted hd hin hdomain, ?_, ?_, fun hr => ?_, fun _ => ?_, fun hr => ?_⟩
    · exact fun hrunning => absurd (hk.resting.stopped.symm.trans hrunning) (by decide)
    · intro p q _ hp
      cases hk.resting.settled.symm.trans hp
    · rcases hprocess with hp | hp <;> cases hp.symm.trans hr
    · refine ⟨survivor, domain, ?_, hk.resting, rfl, ?_⟩
      · rw [← h.held]
        exact hdomain
      · rw [← h.held]
        rfl
    · rcases hprocess with hp | hp <;> rcases hr with hr | hr <;> cases hp.symm.trans hr
  · intro hempty hnone
    have halone : s.dbg.retainedProcesses = ∅ := by
      refine ExtTreeMap.eq_empty_iff_forall_not_mem.mpr fun q hq => ?_
      obtain ⟨domain, hdomain⟩ := Option.isSome_iff_exists.mp
        (ExtTreeMap.isSome_getElem?_iff_mem.mpr hq)
      exact hnone q domain hdomain (h.good.tables.kept q domain hdomain).resting.stopped
    refine ⟨?_, ?_, ?_, fun hr => ?_, fun hr => ?_, fun _ => h.held.symm.trans halone⟩
    · rw [htid]
      exact hgood fun hne => absurd halone hne
    · exact fun hrunning => hended.gone hempty (.inr hrunning)
    · intro p q hq hp
      exact Option.some.inj (hp.symm.trans (h.displaced.trans hq))
    · rcases hfinal with hp | hp <;> cases hp.symm.trans hr
    · rcases hfinal with hp | hp <;> rcases hr with hr | hr <;> cases hp.symm.trans hr
  · intro hne _
    obtain ⟨hlive, hmem⟩ := hended.survives hne
    refine ⟨?_, hlive, hmem, h.displaced, h.held⟩
    rw [htid]
    exact hgood fun _ => hlive
  · intro hne hstopped
    obtain ⟨hlive, hmem⟩ := hended.survives hne
    refine ⟨?_, ?_, ?_, fun hr => absurd hr hthread.2, fun hr => ?_, fun hr => ?_⟩
    · rw [htid]
      exact hgood fun _ => hlive
    · exact fun hrunning => absurd (hstopped.symm.trans hrunning) (by decide)
    · intro p q hq hp
      exact Option.some.inj (hp.symm.trans (h.displaced.trans hq))
    · have := hthread.1
      rcases hr with hr | hr <;> rw [show threadReason = _ from hr] at this <;> cases this
    · have := hthread.1
      rcases hr with hr | hr <;> rw [show threadReason = _ from hr] at this <;> cases this

/-! ## Forks -/

/-- A fork the debugger did not go along with leaves the tables in order. -/
theorem Session.Aftermath.good {child victim : Pid} (h : s.Aftermath child victim t)
    (hgood : s.core.Good b issued) (hchild : s.world.tasks[child]? = some child)
    (hne : child ≠ s.dbg.process.pid) (hout : ∀ q ∈ s.dbg.retainedProcesses, child ≠ q) {b' : Bool}
    (hb : b' = true → b = true ∧ victim = child) : t.core.Good b' issued := by
  obtain ⟨faults, sequence, debug, tasks, requests, memory, rfl, htasks, hmemory⟩ := h
  refine ⟨hgood.tables.retask fun tid pid hpid htid => ?_, fun hb' => ?_⟩
  · have hpid : child ≠ pid := by
      rcases hpid with rfl | hpid
      · exact hne
      · exact hout pid hpid
    rcases htasks with rfl | rfl
    · exact htid
    · have hchild' : child ≠ tid := by
        rintro rfl
        exact hpid (Option.some.inj (hchild.symm.trans htid))
      rw [ExtTreeMap.getElem?_erase, if_neg (by simpa using hchild')]
      exact htid
  · obtain ⟨hb, hvictim⟩ := hb hb'
    have hbytes := hgood.bytes hb
    rw [hvictim] at hmemory
    refine ⟨Armed.agree hbytes.active fun a _ => congrFun (hmemory _ hne.symm) a,
      fun q domain hdomain => ?_⟩
    have hq : q ∈ s.dbg.retainedProcesses :=
      ExtTreeMap.mem_iff_isSome_getElem?.mpr (Option.isSome_of_eq_some hdomain)
    exact Armed.agree (hbytes.kept q domain hdomain) fun a _ =>
      congrFun (hmemory q (hout q hq).symm) a

/-- The child of a fork joins the registry. -/
theorem Core.Halted.tables_retained (h : s.core.Halted b issued pending registry tid) {child : Pid}
    (hpos : 0 < child) (hchild : s.world.tasks[child]? = some child)
    (hne : child ≠ s.dbg.process.pid) (hnew : child ∉ s.dbg.retainedProcesses)
    (hpolicy : s.dbg.forkFollowPolicy = .both) (hok : s.dbg.Retainable tid) {stopInfo : StopInfo}
    {inherited : Option (Watchpoint × DebugRegisterSnapshot)}
    (hinherited : ∀ w, inherited = some w → w.2.tid = child) :
    Core.Tables issued { s.core with
      retained := s.dbg.retainedProcesses.insert child
        (s.dbg.childDomain child stopInfo inherited) } := by
  refine h.good.tables.retain hnew ⟨Domain.Sound.empty, Process.Linked.singleTask hchild hpos, ?_,
    ⟨rfl, rfl, ?_⟩, rfl⟩ hne.symm (.inl h.stopped) hpolicy ?_ ?_
  · intro owner howner
    rcases inherited with _ | w
    · cases howner
    · have : owner = child := (Option.some.inj howner).symm.trans (hinherited w rfl)
      rw [this]
      exact ExtTreeMap.mem_insert_self
  · intro a bp hbp
    simp [RetainedProcessDomain.domain, Debugger.childDomain] at hbp
  · have := hok.room
    simp only [maxProcessDomains] at this
    show s.dbg.retainedProcesses.size < 2
    omega
  · intro i a hi
    simp [Debugger.childDomain] at hi

theorem isSingleThread_iff {p : Process} (h : p.isSingleThread tid = true) :
    (∀ other, other ∈ p.taskStates ↔ other = tid) ∧ tid = p.pid := by
  have h : p.taskStates.keys = [tid] ∧ tid = p.pid := of_decide_eq_true h
  refine ⟨fun other => ?_, h.2⟩
  rw [← ExtTreeMap.mem_keys, h.1, List.mem_singleton]

/-- The active process of the debugger is the child of a fork now. -/
theorem Core.Halted.good_followed (h : s.core.Halted b issued pending registry tid) {child : Pid}
    (hpos : 0 < child) (hchild : s.world.tasks[child]? = some child)
    (hne : child ≠ s.dbg.process.pid)
    (harmed : b = true → Armed int3 (patches s.dbg.breakpointsByAddress) (s.world.memory child))
    (hpolicy : s.dbg.forkFollowPolicy = .child)
    (hsingle : s.dbg.process.isSingleThread tid = true) {memory : Pid → Memory}
    (hmemory : ∀ p, p ≠ Lowlevel.space s.world tid → memory p = s.world.memory p) :
    Core.Good b issued { s.core with
      active := (s.dbg.handedOver tid child).domain
      tasks := s.world.tasks.erase tid
      memory } := by
  have hspace := Session.space_of_tracked h.good.tables h.mem
  have hleader := (isSingleThread_iff hsingle).2
  have halone : s.dbg.retainedProcesses = ∅ := by
    by_contra hne
    have := h.good.tables.both hne
    rw [show s.core.policy = .child from hpolicy] at this
    cases this
  have hnone : ∀ q, q ∉ s.dbg.retainedProcesses := by
    intro q
    simp [halone]
  refine ⟨h.good.tables.restart (h.good.tables.sound.process fun _ => .inl h.stopped)
    (Process.Linked.singleTask ?_ hpos) ?_ (.inl rfl) (hnone _) (fun i a hi => hi)
    (fun tid pid hpid _ => absurd hpid (hnone pid)), fun hb => ⟨?_, fun q domain hdomain => ?_⟩⟩
  · rw [ExtTreeMap.getElem?_erase, if_neg (by rw [hleader]; simpa using hne.symm)]
    exact hchild
  · intro owner howner
    have : owner = child := by
      simp only [Debugger.domain, Debugger.handedOver] at howner
      split at howner
      · rcases hsnap : s.dbg.watchpointRegisterSnapshot with _ | snapshot
        · simp [hsnap] at howner
        · simpa [hsnap] using howner.symm
      · cases howner
    rw [this]
    exact ExtTreeMap.mem_insert_self
  · have := harmed hb
    rw [← hmemory child (by rw [hspace]; exact hne)] at this
    exact this
  · exact absurd (ExtTreeMap.mem_iff_isSome_getElem?.mpr (Option.isSome_of_eq_some hdomain))
      (hnone q)

theorem reported_classifyFork (h : s.core.Halted b issued pending registry tid)
    (hchild : s.world.tasks[(s.world.message tid : Int)]? = some (s.world.message tid : Int))
    (hne : (s.world.message tid : Int) ≠ s.dbg.process.pid)
    (hout : ∀ q ∈ s.dbg.retainedProcesses, (s.world.message tid : Int) ≠ q)
    (harmed : b = true →
      Armed int3 (patches s.dbg.breakpointsByAddress) (s.world.memory (s.world.message tid)))
    (hserved : b = true → s.dbg.forkFollowPolicy = .child → s.dbg.Armed → s.forkServed = true) :
    wp (classifyFork tid) (classified b issued pending registry) s := by
  have hspace : Lowlevel.space s.world (s.world.message tid) = s.world.message tid := by
    rw [Lowlevel.space, hchild]
    rfl
  refine wp_classifyFork ?_ ?_ ?_ ?_ ?_ ?_
  · intro faults e
    exact h.good.raised e
  · rintro t child childStop inherited info rfl hpos hpolicy ⟨faults, sequence, debug, rfl⟩ hok hnew
      hinherited hinfo
    have hreason : info.reason = .trap := by rw [hinfo]; rfl
    refine ⟨⟨h.tables_retained hpos hchild hne hnew hpolicy hok hinherited, fun hb => ⟨?_, ?_⟩⟩,
      h.not_running, ?_, fun hr => ?_, fun hr => ?_, fun hr => ?_⟩
    · exact (h.good.bytes hb).active
    · intro q domain hdomain
      have hdomain : (s.dbg.retainedProcesses.insert (s.world.message tid : Int) _)[q]? =
        some domain := hdomain
      rw [ExtTreeMap.getElem?_insert] at hdomain
      split at hdomain
      · cases hdomain
        exact armed_empty
      · exact (h.good.bytes hb).kept q domain hdomain
    · intro p q hq hp
      exact Option.some.inj (hp.symm.trans (h.displaced.trans hq))
    · cases hreason.symm.trans hr
    · rcases hr with hr | hr <;> cases hreason.symm.trans hr
    · rcases hr with hr | hr <;> cases hreason.symm.trans hr
  · rintro child faults sequence debug memory requests info rfl hpos hpolicy hsingle hmemory hinfo
    have hreason : info.reason = .trap := by rw [hinfo]; rfl
    refine ⟨h.good_followed hpos hchild hne harmed hpolicy hsingle hmemory, ?_, ?_, fun hr => ?_,
      fun hr => ?_, fun hr => ?_⟩
    · exact fun hr => by cases hr
    · intro p q hq hp
      exact Option.some.inj (hp.symm.trans (h.displaced.trans hq))
    · cases hreason.symm.trans hr
    · rcases hr with hr | hr <;> cases hreason.symm.trans hr
    · rcases hr with hr | hr <;> cases hreason.symm.trans hr
  · rintro child t info rfl - hafter hinfo
    have hreason : info.reason = .trap := by rw [hinfo]; rfl
    have hgood := hafter.good h.good hchild hne hout fun hb => ⟨hb, hspace⟩
    obtain ⟨faults, sequence, debug, tasks, requests, memory, rfl, -, -⟩ := hafter
    refine ⟨hgood, h.not_running, ?_, fun hr => ?_, fun hr => ?_, fun hr => ?_⟩
    · intro p q hq hp
      exact Option.some.inj (hp.symm.trans (h.displaced.trans hq))
    · cases hreason.symm.trans hr
    · rcases hr with hr | hr <;> cases hreason.symm.trans hr
    · rcases hr with hr | hr <;> cases hreason.symm.trans hr
  · rintro child t e rfl hafter
    exact (hafter.good h.good hchild hne hout fun hb => ⟨hb, hspace⟩).raised e
  · rintro child t e rfl hpolicy hsingle hafter hlost
    -- the owner of the watchpoint is the thread that forked, so it is stopped
    have hptrace : e.isPtraceError = true := by
      refine hlost.cause.resolve_right ?_
      rintro ⟨snapshot, hsnap, hrunning⟩
      have howner : s.dbg.domain.owner = some snapshot.tid := by simp [Debugger.domain, hsnap]
      have hmem := h.good.tables.owned snapshot.tid howner
      have htid := ((isSingleThread_iff hsingle).1 snapshot.tid).mp hmem
      rw [htid] at hrunning
      exact hrunning h.tracked
    refine hafter.good h.good hchild hne hout fun hb => ?_
    obtain ⟨hb, hbyte⟩ := Bool.and_eq_true_iff.mp hb
    have := hlost.byte (hserved hb hpolicy hlost.armed) hptrace
    simp [this] at hbyte

end Stops

end MiniDebugger
