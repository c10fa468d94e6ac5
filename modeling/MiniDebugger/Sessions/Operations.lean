import MiniDebugger.Sessions.Invariant

/-!
# Operations and runs

Every operation of the debugger keeps its tables in order, and so does every run. `issuedIds`
collects the breakpoint ids handed out on the way.
-/

namespace MiniDebugger

open Command
open Function (update update_self update_of_ne)
open Std (ExtTreeMap)
open Overlay

/-- The breakpoint id an operation has handed out. -/
def Result.issued : Result → List Nat
  | .breakpoint id => [id]
  | _ => []

/-- The breakpoint ids handed out in a run, latest first. -/
def issuedIds (log : List Result) : List Nat := log.flatMap Result.issued

section Operations

variable {b : Bool} {issued : List Nat} {tracees : Tracees} {s t : Session}

theorem mem_of_stopped {p : Process} {tid : Pid} (h : p.taskState tid = some .stopped) :
    tid ∈ p.taskStates :=
  ExtTreeMap.mem_iff_isSome_getElem?.mpr (Option.isSome_of_eq_some h)

theorem Core.Good.insertBreakpoint (h : s.core.Good b issued) {address : Addr} {original : Byte}
    {faults : List (Option Nat)}
    (htask : s.dbg.process.taskState s.dbg.process.currentTid = some .stopped)
    (hnew : address ∉ s.dbg.breakpointsByAddress) (hbound : address.toNat + 8 ≤ 2 ^ 64) :
    Session.core { s.poke s.dbg.process.currentTid address int3 with
      faults, dbg := s.dbg.insertBreakpoint address original } |>.Good b
        (s.dbg.nextBreakpointId :: issued) := by
  have hspace := Session.space_of_tracked h.tables (mem_of_stopped htask)
  have hids : ∀ (i : Nat) (a : Addr),
      (s.dbg.breakpointIds.insert s.dbg.nextBreakpointId address)[i]? = some a →
      i ∈ s.dbg.breakpointIds ∨ s.dbg.nextBreakpointId ≤ i := by
    intro i a hi
    rw [ExtTreeMap.getElem?_insert] at hi
    split at hi
    · rename_i heq
      have heq : s.dbg.nextBreakpointId = i := by simpa using heq
      exact .inr heq.le
    · exact .inl (ExtTreeMap.mem_iff_isSome_getElem?.mpr (Option.isSome_of_eq_some hi))
  refine ⟨{ h.tables.retable (Nat.le_succ _) (h.tables.sound.insert hnew hbound) hids with
    issued := ⟨?_, fun i hi => ?_⟩ }, fun hb => ?_⟩
  · refine List.nodup_cons.mpr ⟨fun hold => ?_, h.tables.issued.1⟩
    exact lt_irrefl _ (h.tables.issued.2 _ hold)
  · rcases List.mem_cons.mp hi with rfl | hold
    · exact Nat.lt_succ_self _
    · exact Nat.lt_succ_of_lt (h.tables.issued.2 i hold)
  · unfold Session.poke
    rw [hspace]
    exact (h.bytes hb).repatch h.tables.free patches_insert (by rintro p ⟨⟩; rfl)

/-- The pending step that is left once `address` is no longer stepped over. -/
theorem domain_eraseBreakpoint (dbg : Debugger) (id : Nat) (address : Addr) :
    ∃ pending, ((dbg.clearPendingStep address).eraseBreakpoint id address).domain =
        { dbg.domain with
          table := dbg.breakpointsByAddress.erase address
          ids := dbg.breakpointIds.erase id
          pending } ∧
      ∀ p, dbg.pendingBreakpointStep = some p → p.address ≠ address → pending = some p := by
  unfold Debugger.clearPendingStep
  split
  · rename_i h
    refine ⟨none, rfl, fun p hp hne => ?_⟩
    simp [hp, hne] at h
  · exact ⟨dbg.pendingBreakpointStep, rfl, fun p hp _ => hp⟩

theorem core_eraseBreakpoint (dbg : Debugger) (id : Nat) (address : Addr) :
    ((dbg.clearPendingStep address).eraseBreakpoint id address).nextBreakpointId =
        dbg.nextBreakpointId ∧
      ((dbg.clearPendingStep address).eraseBreakpoint id address).forkFollowPolicy =
        dbg.forkFollowPolicy ∧
      ((dbg.clearPendingStep address).eraseBreakpoint id address).retainedProcesses =
        dbg.retainedProcesses := by
  unfold Debugger.clearPendingStep
  split <;> exact ⟨rfl, rfl, rfl⟩

theorem Core.Good.eraseBreakpoint (h : s.core.Good b issued) {id : Nat} {address : Addr}
    (hid : s.dbg.breakpointIds[id]? = some address) {memory : Pid → Memory}
    (hmemory : memory = s.world.memory ∨ ∃ value,
      memory = update s.world.memory s.dbg.process.pid
        (update (s.world.memory s.dbg.process.pid) address (some value)))
    (htasks : t.world.tasks = s.world.tasks) (hworld : t.world.memory = memory)
    (hdbg : t.dbg = (s.dbg.clearPendingStep address).eraseBreakpoint id address) :
    t.core.Good b issued := by
  obtain ⟨pending, hdomain, hpending⟩ := domain_eraseBreakpoint s.dbg id address
  obtain ⟨hnext, hpolicy, hretained⟩ := core_eraseBreakpoint s.dbg id address
  have hcore : t.core = { s.core with
      active := { s.core.active with
        table := s.dbg.breakpointsByAddress.erase address
        ids := s.dbg.breakpointIds.erase id
        pending }
      memory } := by
    rw [Session.core, hdbg, hdomain, hnext, hpolicy, hretained, htasks, hworld]
    rfl
  rw [hcore]
  refine ⟨h.tables.retable le_rfl (h.tables.sound.erase hid hpending) fun i a hi => ?_,
    fun hb => ?_⟩
  · rw [ExtTreeMap.getElem?_erase] at hi
    split at hi
    · cases hi
    · exact .inl (ExtTreeMap.mem_iff_isSome_getElem?.mpr (Option.isSome_of_eq_some hi))
  · rcases hmemory with rfl | ⟨value, rfl⟩
    · refine ⟨?_, (h.bytes hb).kept⟩
      show Armed int3 (patches (s.dbg.breakpointsByAddress.erase address)) _
      rw [patches_erase]
      exact (h.bytes hb).active.forget
    · exact (h.bytes hb).repatch h.tables.free patches_erase (by rintro p ⟨⟩)

theorem Core.Good.writeMemory (h : s.core.Good b issued) {table : ExtTreeMap Addr Breakpoint}
    {memory : Pid → Memory} (hsame : SameBreakpoints s.dbg.breakpointsByAddress table)
    (hspace : ∀ p, p ≠ s.dbg.process.pid → memory p = s.world.memory p)
    (htable : ∀ p a, a ∈ s.dbg.breakpointsByAddress → memory p a = s.world.memory p a) :
    Core.Good b issued { s.core with active := { s.core.active with table }, memory } := by
  refine ⟨h.tables.retable le_rfl (h.tables.sound.sameBreakpoints hsame) fun i a hi => ?_,
    fun hb => ⟨?_, fun q domain hdomain => ?_⟩⟩
  · exact .inl (ExtTreeMap.mem_iff_isSome_getElem?.mpr (Option.isSome_of_eq_some hi))
  · have harmed : Armed int3 (patches s.dbg.breakpointsByAddress)
        (memory s.dbg.process.pid) :=
      Armed.agree (h.bytes hb).active fun a ha => htable _ a (mem_of_patches ha)
    exact Armed.sameBreakpoints harmed hsame
  · refine Armed.agree ((h.bytes hb).kept q domain hdomain) fun a _ => congrFun (hspace q ?_) a
    rintro rfl
    exact h.tables.free
      (ExtTreeMap.mem_iff_isSome_getElem?.mpr (Option.isSome_of_eq_some hdomain))

/-- Changing places with a retained domain. -/
theorem Core.Good.swapped (h : s.core.Good b issued) {pid : Pid} {domain : RetainedProcessDomain}
    (hdomain : s.dbg.retainedProcesses[pid]? = some domain)
    (hstate : s.dbg.process.state = .stopped) (hidle : s.dbg.pendingBreakpointStep = none) :
    Core.Good b issued { s.core with
      active := domain.domain
      retained := (s.dbg.retainedProcesses.erase pid).insert s.dbg.process.pid s.dbg.parked } := by
  have hne : s.dbg.retainedProcesses ≠ ∅ := Core.retained_ne_empty (c := s.core) hdomain
  have hmem : pid ∈ s.dbg.retainedProcesses :=
    ExtTreeMap.mem_iff_isSome_getElem?.mpr (Option.isSome_of_eq_some hdomain)
  have hk := h.tables.kept pid domain hdomain
  have hkey : domain.process.pid = pid := hk.key
  have hfree : s.dbg.process.pid ∉ s.dbg.retainedProcesses := h.tables.free
  have hapart : pid ≠ s.dbg.process.pid := by
    rintro rfl
    exact hfree hmem
  have hold : ∀ (q : Pid) (Q : RetainedProcessDomain),
      (s.dbg.retainedProcesses.erase pid)[q]? = some Q → s.dbg.retainedProcesses[q]? = some Q := by
    intro q Q hQ
    rw [ExtTreeMap.getElem?_erase] at hQ
    split at hQ
    · cases hQ
    · exact hQ
  refine ⟨(h.tables.promote hdomain).retain (fun hin => hfree (ExtTreeMap.mem_erase.mp hin).2)
    ⟨h.tables.sound, h.tables.linked, h.tables.owned, ⟨hstate, hidle, fun a bp hbp =>
      h.tables.sound.installed (.inl hstate) hidle hbp⟩, rfl⟩
    (fun heq => hapart (hkey.symm.trans heq)) (.inl hk.resting.stopped) (h.tables.both hne) ?_
    fun i a hi => ⟨?_, fun q Q hQ => ?_⟩, fun hb => ⟨?_, fun q Q hQ => ?_⟩⟩
  · have hroom : s.dbg.retainedProcesses.size ≤ 2 := h.tables.room
    have hsize := ExtTreeMap.size_erase (t := s.dbg.retainedProcesses) (k := pid)
    rw [if_pos (by simpa using hmem)] at hsize
    have hpos : s.dbg.retainedProcesses.size ≠ 0 := fun h0 =>
      hne (ExtTreeMap.eq_empty_iff_size_eq_zero.mpr h0)
    show (s.dbg.retainedProcesses.erase pid).size < 2
    omega
  · rcases hget : domain.domain.ids[i]? with _ | a'
    · rfl
    · have := h.tables.apart pid domain i a' hdomain hget
      cases this.symm.trans hi
  · rcases hget : Q.breakpointIds[i]? with _ | a'
    · rfl
    · have := h.tables.apart q Q i a' (hold q Q hQ) hget
      cases this.symm.trans hi
  · have := (h.bytes hb).kept pid domain hdomain
    rw [← hkey] at this
    exact this
  · have hQ : ((s.dbg.retainedProcesses.erase pid).insert s.dbg.process.pid s.dbg.parked)[q]? =
      some Q := hQ
    rw [ExtTreeMap.getElem?_insert] at hQ
    split at hQ
    · rename_i heq
      have heq : s.dbg.process.pid = q := by simpa using heq
      cases hQ
      subst heq
      exact (h.bytes hb).active
    · exact (h.bytes hb).kept q Q (hold q Q hQ)

/-- What an operation leaves behind: tables in order if it returns, and also if it throws unless
it is a `detach`. A byte that cannot be accessed in the middle of a resume can leave the memory
behind. -/
def maintained (b : Bool) (issued : List Nat) (op : Operation) :
    Post WaitCall Exception Session Result where
  returned r t := t.core.Good b (r.issued ++ issued)
  raised e t := op.detaches = false →
    t.core.Good (b && !(op.resumes && e.isByteError)) issued
  blocked _ _ := True

theorem Core.Good.detached (h : s.core.Good b issued) (ht : s.Detaching t)
    (halone : s.dbg.retainedProcesses.isEmpty = true)
    (hlive : t.dbg.process.live → ∃ tid, tid ∈ t.dbg.process.taskStates) :
    (Session.core { t with dbg := t.dbg.discardImageState }).Good b issued := by
  have hgroup := ht.group fun tid htid =>
    ⟨h.tables.linked.group tid htid, h.tables.linked.positive tid htid⟩
  have hnone : t.dbg.retainedProcesses = ∅ := by
    rw [ht.retained]
    exact ExtTreeMap.isEmpty_iff.mp halone
  have hempty : ∀ (pid : Pid) (domain : RetainedProcessDomain),
      t.dbg.retainedProcesses[pid]? = some domain → False := by
    intro pid domain hdomain
    simp [hnone] at hdomain
  refine ⟨⟨Domain.Sound.empty, ⟨fun tid htid => (hgroup tid htid).1,
    fun tid htid => (hgroup tid htid).2, hlive⟩, by rintro tid ⟨⟩,
    fun pid domain hdomain => (hempty pid domain hdomain).elim, ?_,
    fun pid domain _ _ hdomain => (hempty pid domain hdomain).elim,
    fun pid _ domain _ _ _ _ hdomain => (hempty pid domain hdomain).elim,
    fun hne => absurd hnone hne, fun hne => absurd hnone hne, ?_, h.tables.issued.1,
    fun i hi => ?_⟩, fun _ => ⟨armed_empty, fun pid domain hdomain => (hempty pid domain hdomain).elim⟩⟩
  · show t.dbg.process.pid ∉ t.dbg.retainedProcesses
    simp [hnone]
  · show t.dbg.retainedProcesses.size ≤ 2
    simp [hnone]
  · show i < t.dbg.nextBreakpointId
    rw [ht.next]
    exact h.tables.issued.2 i hi

/-- Every operation keeps the tables in order. -/
theorem maintained_run (htame : Tame b tracees) (op : Operation) (h : s.core.Good b issued) :
    wp (op.run tracees) (maintained b issued op) s := by
  cases op with
  | addBreakpoint address =>
    simp only [Operation.run, wp_map]
    refine wp_addBreakpoint ?_ (fun faults e _ => h.and _)
    intro faults original _ _ htask hnew hacc _
    exact h.insertBreakpoint htask hnew (Lowlevel.bound_of_accessible hacc)
  | removeBreakpoint id =>
    simp only [Operation.run, wp_map]
    refine wp_removeBreakpoint (fun _ => h) ?_ ?_ (fun faults e _ => h.and _)
    · intro address bp faults hid _ _ _ htask
      refine h.eraseBreakpoint hid (.inr ⟨bp.originalByte, ?_⟩) (by rfl) rfl rfl
      rw [← Session.space_of_tracked h.tables (mem_of_stopped htask)]
      rfl
    · intro address hid _
      exact h.eraseBreakpoint hid (.inl rfl) (by rfl) rfl rfl
  | addWriteWatchpoint address length =>
    simp only [Operation.run, wp_map]
    refine wp_addWriteWatchpoint ?_ ?_
    · rintro t snapshot ⟨_, _, _, rfl⟩ htask hsnapshot
      refine ⟨h.tables.advance rfl id h.tables.live h.tables.linked ?_ (fun _ _ _ htid => htid),
        fun hb => ⟨(h.bytes hb).active, (h.bytes hb).kept⟩⟩
      intro tid howner
      have howner : snapshot.tid = tid := Option.some.inj howner
      rw [← howner, hsnapshot]
      exact mem_of_stopped htask
    · rintro t e ⟨_, _, _, rfl⟩ _
      exact h.and _
  | removeWatchpoint id =>
    simp only [Operation.run, wp_map]
    refine wp_removeWatchpoint h ?_ ?_
    · rintro t ⟨_, _, _, rfl⟩
      exact ⟨h.tables.advance rfl (fun hl => hl) h.tables.live h.tables.linked (by rintro tid ⟨⟩)
        (fun _ _ _ htid => htid), fun hb => ⟨(h.bytes hb).active, (h.bytes hb).kept⟩⟩
    · rintro t e ⟨_, _, _, rfl⟩ _
      exact h.and _
  | writeMemory address bytes =>
    simp only [Operation.run, wp_map]
    refine wp_writeMemory ?_ ?_
    · intro faults memory table htask hspace htable hsame
      rw [Session.space_of_tracked h.tables (mem_of_stopped htask)] at hspace
      exact h.writeMemory hsame hspace htable
    · intro faults memory e hwritten hspace htable _
      rcases hwritten with rfl | htask
      · exact h.and _
      · rw [Session.space_of_tracked h.tables (mem_of_stopped htask)] at hspace
        exact (h.writeMemory (SameBreakpoints.refl _) hspace htable).and _
  | continueExecution policy =>
    simp only [Operation.run, wp_map]
    exact wp_mono (reported_continueExecution htame h) (fun info t ht => ht.good)
      (fun e t ht _ => ht) (fun _ _ _ => trivial)
  | singleStep policy =>
    simp only [Operation.run, wp_map]
    exact wp_mono (reported_singleStep htame h) (fun info t ht => ht.good)
      (fun e t ht _ => ht) (fun _ _ _ => trivial)
  | selectThread tid =>
    simp only [Operation.run, wp_map]
    refine wp_selectThread (fun _ => ?_) (fun e _ => h.and _)
    exact ⟨h.tables.advance rfl (fun hl => hl) h.tables.live
      ⟨h.tables.linked.group, h.tables.linked.positive, h.tables.linked.inhabited⟩ h.tables.owned
      (fun _ _ _ htid => htid), fun hb => ⟨(h.bytes hb).active, (h.bytes hb).kept⟩⟩
  | selectProcess pid =>
    simp only [Operation.run, wp_map]
    refine wp_selectProcess (fun _ => h) ?_ ?_ (fun e _ => h.and _)
    · intro domain hdomain hstate _ hidle
      exact h.swapped hdomain hstate hidle
    · intro domain e _ hcollide
      exact absurd hcollide h.tables.free
  | setForkFollowPolicy policy =>
    simp only [Operation.run, wp_map]
    refine wp_setForkFollowPolicy (fun hpolicy => ?_) (fun e _ => h.and _)
    refine ⟨{ h.tables with both := fun hne => hpolicy ?_ },
      fun hb => ⟨(h.bytes hb).active, (h.bytes hb).kept⟩⟩
    exact ExtTreeMap.isEmpty_eq_false_iff.mpr hne
  | detach policy =>
    simp only [Operation.run, wp_map]
    refine wp_detachOperation (fun t ht halone hlive => ?_) (fun t e _ hdetach => ?_)
    · exact h.detached ht halone hlive
    · cases hdetach

/-! ## Runs -/

theorem good_started (h : Started s) : s.core.Good b [] := by
  have fresh : ∀ process : Process, s.dbg.process = process →
      process.Linked s.world.tasks → s.dbg.breakpointsByAddress = ∅ → s.dbg.breakpointIds = ∅ →
      s.dbg.watchpointRegisterSnapshot = none → s.dbg.retainedProcesses = ∅ →
      s.core.Good b [] := by
    rintro process rfl hlinked htable hids hsnapshot hnone
    have hempty : ∀ (pid : Pid) (domain : RetainedProcessDomain),
        s.dbg.retainedProcesses[pid]? = some domain → False := by
      intro pid domain hdomain
      simp [hnone] at hdomain
    have hdomain : s.dbg.domain =
        ⟨s.dbg.process, ∅, ∅, s.dbg.pendingBreakpointStep, none⟩ := by
      simp [Debugger.domain, htable, hids, hsnapshot]
    refine ⟨⟨?_, hlinked, ?_, fun pid domain hdomain => (hempty pid domain hdomain).elim, ?_,
      fun pid domain _ _ hdomain => (hempty pid domain hdomain).elim,
      fun pid _ domain _ _ _ _ hdomain => (hempty pid domain hdomain).elim,
      fun hne => absurd hnone hne, fun hne => absurd hnone hne, ?_, by simp⟩,
      fun _ => ⟨?_, fun pid domain hdomain => (hempty pid domain hdomain).elim⟩⟩
    · rw [show s.core.active = _ from hdomain]
      exact Domain.Sound.empty
    · rw [show s.core.active = _ from hdomain]
      rintro tid ⟨⟩
    · show s.dbg.process.pid ∉ s.dbg.retainedProcesses
      simp [hnone]
    · show s.dbg.retainedProcesses.size ≤ 2
      simp [hnone]
    · rw [show s.core.active = _ from hdomain]
      exact armed_empty
  cases h with
  | launch pid path _ hpos hdbg htasks _ _ _ =>
    refine fresh _ rfl ?_ (by rw [hdbg]; rfl) (by rw [hdbg]; rfl) (by rw [hdbg]; rfl)
      (by rw [hdbg]; rfl)
    rw [hdbg, htasks]
    exact Process.Linked.singleTask (by rw [getElem?_eachTask]; simp) hpos
  | attach pid tids path _ hpos htids hdbg htasks _ _ _ =>
    refine fresh _ rfl ?_ (by rw [hdbg]; rfl) (by rw [hdbg]; rfl) (by rw [hdbg]; rfl)
      (by rw [hdbg]; rfl)
    have hmem : ∀ tid, tid ∈ (eachTask (pid :: tids) ProcessState.stopped) ↔ tid ∈ pid :: tids := by
      intro tid
      rw [ExtTreeMap.mem_iff_isSome_getElem?, getElem?_eachTask]
      split <;> simp_all
    rw [hdbg, htasks]
    refine ⟨fun tid htid => ?_, fun tid htid => ?_, fun _ => ⟨pid, (hmem pid).mpr (by simp)⟩⟩
    · rw [getElem?_eachTask, if_pos ((hmem tid).mp htid)]
      rfl
    · rcases List.mem_cons.mp ((hmem tid).mp htid) with rfl | hother
      · exact hpos
      · exact htids tid hother

/-- The tables are in order in every state of a run that meets no failure it is not about. -/
theorem Run.good (htame : Tame b tracees) {allowed : Operation → Reply → Prop}
    (hallowed : ∀ op e, allowed op (.error e) → op.detaches = false ∧
      (b = true → op.resumes = true → e.isByteError = false))
    {log : List Result} (h : Run tracees allowed log s) : s.core.Good b (issuedIds log) := by
  refine Run.invariant (I := fun log s => s.core.Good b (issuedIds log))
    (fun s hs => good_started hs) (fun log s op script faults hgood => ?_) h
  have hgood : (s.facing script faults).core.Good b (issuedIds log) := hgood
  refine wp_mono (maintained_run htame op hgood) (fun r t ht _ => ht) (fun e t ht he => ?_)
    (fun _ _ _ => trivial)
  obtain ⟨hdetach, hbyte⟩ := hallowed op e he
  refine (ht hdetach).weaken fun hb => ?_
  rcases hr : op.resumes with _ | _
  · simp [hb]
  · simp [hb, hbyte hb hr]

end Operations

end MiniDebugger
