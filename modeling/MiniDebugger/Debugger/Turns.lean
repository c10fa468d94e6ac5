import Mathlib.Logic.Relation
import MiniDebugger.Debugger.ExecutionRules

/-!
# Turns of the tables

While the debugger waits, the tables of its processes change in a few ways only: an entry is marked
as lifted or planted, an image is replaced, a task that owned the watchpoint ends, a retained process
takes the place of one that has ended, and a fork adds a process or moves the active one. A `Turn` is
one of these changes. Resuming and waiting go by turns, whatever the tracees and `ptrace` do, and
issue no id.
-/

namespace MiniDebugger

open Command
open Function (update update_self update_of_ne)
open Relation (ReflTransGen)
open Std (ExtTreeMap)

/-- The breakpoints and the watchpoint of one process. -/
structure Holding where
  table : ExtTreeMap Addr Breakpoint := ∅
  ids : ExtTreeMap Nat Addr := ∅
  watchpoint : Option Watchpoint := none
  snapshot : Option DebugRegisterSnapshot := none

/-- Those of every process the debugger owns. -/
structure Holdings where
  active : Holding
  retained : Pid → Option Holding

def RetainedProcessDomain.holding (d : RetainedProcessDomain) : Holding where
  table := d.breakpointsByAddress
  ids := d.breakpointIds
  watchpoint := d.watchpoint
  snapshot := d.watchpointRegisterSnapshot

def Debugger.holding (d : Debugger) : Holding where
  table := d.breakpointsByAddress
  ids := d.breakpointIds
  watchpoint := d.watchpoint
  snapshot := d.watchpointRegisterSnapshot

def retainedHoldings (m : ExtTreeMap Pid RetainedProcessDomain) : Pid → Option Holding := fun pid =>
  (m[pid]?).map (·.holding)

def Debugger.holdings (d : Debugger) : Holdings where
  active := d.holding
  retained := retainedHoldings d.retainedProcesses

namespace Holding

def mark (h : Holding) (address : Addr) (installed : Bool) : Holding :=
  { h with table := h.table.modify address fun bp => { bp with installed } }

def unwatched (h : Holding) : Holding := { h with watchpoint := none, snapshot := none }

/-- The watchpoint now belongs to `tid`. -/
def ownedBy (h : Holding) (tid : Pid) : Holding :=
  { h with snapshot := h.snapshot.map ({ · with tid }) }

/-- What a child that is retained gets of its parent's holding. -/
def inherited (h : Holding) (child : Pid) : Holding :=
  if h.watchpoint.isSome then
    { watchpoint := h.watchpoint, snapshot := h.snapshot.map ({ · with tid := child }) }
  else {}

end Holding

namespace Holdings

/-- A change of the tables while the debugger waits. -/
inductive Turn : Holdings → Holdings → Prop
  | marked (H : Holdings) (address : Addr) (installed : Bool) :
      Turn H { H with active := H.active.mark address installed }
  | unwatched (H : Holdings) : Turn H { H with active := H.active.unwatched }
  | replaced (H : Holdings) : Turn H { H with active := {} }
  | promoted (H : Holdings) (survivor : Pid) (h : Holding) (hh : H.retained survivor = some h) :
      Turn H ⟨h, update H.retained survivor none⟩
  | forked (H : Holdings) (child : Pid) (hnew : H.retained child = none) :
      Turn H { H with retained := update H.retained child (some (H.active.inherited child)) }
  | handed (H : Holdings) (child : Pid) : Turn H { H with active := H.active.ownedBy child }

end Holdings

open Holdings

/-- The tables have gone from those of `d` to those of the session by turns. -/
structure Session.Turned (d : Debugger) (s : Session) : Prop where
  turns : ReflTransGen Turn d.holdings s.dbg.holdings
  nextBreakpoint : s.dbg.nextBreakpointId = d.nextBreakpointId
  nextWatchpoint : s.dbg.nextWatchpointId = d.nextWatchpointId
  policy : s.dbg.forkFollowPolicy = d.forkFollowPolicy

/-- However a command ends, the tables went by turns. -/
def turning (d : Debugger) {α : Type} : Post WaitCall Exception Session α where
  returned _ t := t.Turned d
  raised _ t := t.Turned d
  blocked _ _ := True

@[simp] theorem retainedHoldings_empty : retainedHoldings ∅ = fun _ => none := by
  funext pid
  simp [retainedHoldings]

theorem retainedHoldings_insert (m : ExtTreeMap Pid RetainedProcessDomain) (pid : Pid)
    (domain : RetainedProcessDomain) :
    retainedHoldings (m.insert pid domain) =
      update (retainedHoldings m) pid (some domain.holding) := by
  funext other
  by_cases h : other = pid
  · subst h
    simp [retainedHoldings]
  · simp [retainedHoldings, ExtTreeMap.getElem?_insert, update_of_ne h, Ne.symm h]

theorem retainedHoldings_erase (m : ExtTreeMap Pid RetainedProcessDomain) (pid : Pid) :
    retainedHoldings (m.erase pid) = update (retainedHoldings m) pid none := by
  funext other
  by_cases h : other = pid
  · subst h
    simp [retainedHoldings]
  · simp [retainedHoldings, ExtTreeMap.getElem?_erase, update_of_ne h, Ne.symm h]

section Rules

variable {d : Debugger} {tracees : Tracees} {s t : Session} {tid child parent : Pid}

theorem Session.turned (s : Session) : s.Turned s.dbg := ⟨.refl, rfl, rfl, rfl⟩

theorem Session.Turned.same (h : s.Turned d) (hholdings : t.dbg.holdings = s.dbg.holdings)
    (hbreakpoint : t.dbg.nextBreakpointId = s.dbg.nextBreakpointId)
    (hwatchpoint : t.dbg.nextWatchpointId = s.dbg.nextWatchpointId)
    (hpolicy : t.dbg.forkFollowPolicy = s.dbg.forkFollowPolicy) : t.Turned d where
  turns := hholdings ▸ h.turns
  nextBreakpoint := hbreakpoint.trans h.nextBreakpoint
  nextWatchpoint := hwatchpoint.trans h.nextWatchpoint
  policy := hpolicy.trans h.policy

/-- A change of the session that leaves the debugger's own state alone. -/
theorem Session.Turned.of_dbg (h : s.Turned d) (hdbg : t.dbg = s.dbg) : t.Turned d :=
  h.same (hdbg ▸ rfl) (hdbg ▸ rfl) (hdbg ▸ rfl) (hdbg ▸ rfl)

theorem Session.Turned.turn (h : s.Turned d) (hturn : Turn s.dbg.holdings t.dbg.holdings)
    (hbreakpoint : t.dbg.nextBreakpointId = s.dbg.nextBreakpointId)
    (hwatchpoint : t.dbg.nextWatchpointId = s.dbg.nextWatchpointId)
    (hpolicy : t.dbg.forkFollowPolicy = s.dbg.forkFollowPolicy) : t.Turned d where
  turns := h.turns.tail hturn
  nextBreakpoint := hbreakpoint.trans h.nextBreakpoint
  nextWatchpoint := hwatchpoint.trans h.nextWatchpoint
  policy := hpolicy.trans h.policy

theorem Session.Turned.alike (h : s.Turned d) (ht : s.Alike t) : t.Turned d := by
  obtain ⟨_, _, _, rfl⟩ := ht
  exact h.of_dbg rfl

theorem Session.Turned.aftermath (h : s.Turned d) {victim : Pid}
    (ht : s.Aftermath child victim t) : t.Turned d := by
  obtain ⟨_, _, _, _, _, _, rfl, -, -⟩ := ht
  exact h.of_dbg rfl

theorem Session.Turned.childRan (h : s.Turned d) (ht : s.ChildRan child t) : t.Turned d := by
  obtain ⟨_, _, _, _, _, _, rfl, -, -⟩ := ht
  exact h.of_dbg rfl

theorem turn_setInstalled (d : Debugger) (address : Addr) (installed : Bool) :
    Turn d.holdings (d.setInstalled address installed).holdings :=
  .marked d.holdings address installed

/-! ## Events -/

theorem turning_waitFor {call : WaitCall} {requested : Pid} (h : s.Turned d) :
    wp (waitFor tracees call requested) (turning d) s := by
  refine wp_waitFor ?_ ?_ ?_ ?_ ?_ ?_ trivial
  · exact fun _ => h.of_dbg rfl
  · exact fun _ _ _ _ _ => h.of_dbg rfl
  · exact fun _ _ _ _ _ _ _ _ _ _ => h.same rfl rfl rfl rfl
  · exact fun _ _ _ _ _ _ _ _ => h.same rfl rfl rfl rfl
  · exact fun _ _ _ _ _ _ _ _ _ => h.same rfl rfl rfl rfl
  · exact fun _ _ _ _ _ _ _ _ _ => h.same rfl rfl rfl rfl

theorem turning_classifySignalStop {expectedSingleStep : Bool} {event : WaitEvent}
    (h : s.Turned d) : wp (classifySignalStop expectedSingleStep event) (turning d) s := by
  refine wp_classifySignalStop ?_ ?_ ?_ ?_ ?_ ?_
  · exact fun info _ _ _ _ => h.same rfl rfl rfl rfl
  · exact fun info _ _ _ _ _ => h.same rfl rfl rfl rfl
  · exact fun t info _ _ _ _ _ _ _ => h.same rfl rfl rfl rfl
  · exact fun t info _ _ _ _ _ _ _ => h.same rfl rfl rfl rfl
  · rintro t - - - ⟨_, _, _, rfl⟩
    refine wp_classifyTrap ?_ ?_ ?_
    · intro bp faults info _ _ _ _ _ _
      exact h.turn (turn_setInstalled s.dbg _ false) rfl rfl rfl
    · exact fun faults info _ _ _ => h.same rfl rfl rfl rfl
    · exact fun faults regs snapshots e _ => h.same rfl rfl rfl rfl
  · exact fun t e ht _ => h.alike ht

theorem Session.Turned.forgetTask (h : s.Turned d) (tid : Pid) :
    { s with dbg := s.dbg.forgetTask tid }.Turned d := by
  by_cases howner : s.dbg.watchpointRegisterSnapshot.any (·.tid = tid) = true
  · refine h.turn ?_ rfl rfl rfl
    have heq : (s.dbg.forgetTask tid).holdings =
        { s.dbg.holdings with active := s.dbg.holdings.active.unwatched } := by
      simp [Debugger.holdings, Debugger.holding, Debugger.forgetTask, howner, Holding.unwatched]
    exact heq ▸ .unwatched s.dbg.holdings
  · refine h.same ?_ rfl rfl rfl
    simp [Debugger.holdings, Debugger.holding, Debugger.forgetTask, howner]

/-- The tables once a retained domain has become the active one. -/
theorem turn_activate {d d' : Debugger} {survivor : Pid} {domain : RetainedProcessDomain}
    (hdomain : d.retainedProcesses[survivor]? = some domain) (hactive : d'.holding = domain.holding)
    (hretained : d'.retainedProcesses = d.retainedProcesses.erase survivor) :
    Turn d.holdings d'.holdings := by
  have heq : d'.holdings = ⟨domain.holding, update d.holdings.retained survivor none⟩ := by
    rw [Debugger.holdings, hactive, hretained, retainedHoldings_erase]
    rfl
  exact heq ▸ .promoted _ survivor _ (by simp [Debugger.holdings, retainedHoldings, hdomain])

theorem turning_classifyEnded {event : WaitEvent}
    {processReason finalReason threadReason : StopReason} (h : s.Turned d) :
    wp (classifyEnded event processReason finalReason threadReason) (turning d) s := by
  have hforget := h.forgetTask event.tid
  refine wp_classifyEnded ?_ ?_ ?_ ?_ ?_
  · exact fun survivor domain e _ hdomain _ =>
      hforget.turn (turn_activate hdomain rfl rfl) rfl rfl rfl
  · exact fun survivor domain _ hdomain _ =>
      hforget.turn (turn_activate hdomain rfl rfl) rfl rfl rfl
  · exact fun _ _ => hforget.same rfl rfl rfl rfl
  · exact fun _ _ => hforget
  · exact fun _ _ => hforget.same rfl rfl rfl rfl

/-- An `exec` drops everything that belonged to the image. -/
theorem turning_classifyExec (h : s.Turned d) : wp (classifyExec tid) (turning d) s := by
  have hreplaced : Turn s.dbg.holdings { s.dbg.holdings with active := {} } := .replaced _
  simp only [classifyExec, wp_bind]
  refine Lowlevel.wp_getEventMessage (fun faults => ?_) (fun faults e _ => h.of_dbg rfl)
  simp only [wp_ite]
  split
  · exact h.of_dbg rfl
  simp only [wp_bind]
  refine wp_tryProcess (fun p _ => ?_) (fun _ _ => h.of_dbg rfl)
  simp only [wp_modifyDebugger, Lowlevel.setOptions]
  exact Lowlevel.wp_attempt (fun faults => h.turn hreplaced rfl rfl rfl)
    fun faults errno => h.turn hreplaced rfl rfl rfl

theorem turning_classifyClone {event : WaitEvent} (h : s.Turned d) :
    wp (classifyClone event) (turning d) s := by
  unfold classifyClone
  cases event.newTid with
  | none => exact h
  | some newTid =>
    simp only [wp_bind, wp_view, wp_ite, wp_raise]
    split
    · exact h
    · exact h.same rfl rfl rfl rfl

theorem turning_classifyVfork (h : s.Turned d) :
    wp (classifyVfork tracees tid) (turning d) s := by
  refine wp_classifyVfork (fun t e ht => h.childRan ht) (fun _ _ => trivial) ?_
  rintro t faults requests ⟨_, _, _, _, _, _, rfl, -, -⟩
  simp only [awaitVforkDone, wait, wp_bind]
  generalize hu : Session.mk _ _ _ _ _ _ = u
  have hturned : u.Turned d := by
    subst hu
    exact h.same rfl rfl rfl rfl
  refine wp_mono (turning_waitFor hturned) ?_ (fun _ _ h => h) (fun _ _ _ => trivial)
  intro done t ht
  simp only [wp_ite, wp_raise, wp_bind]
  split
  · exact ht
  · refine Lowlevel.wp_getEventMessage (fun faults => ?_) (fun faults e _ => ?_)
    · dsimp only
      split <;> exact ht.same rfl rfl rfl rfl
    · exact ht.of_dbg rfl

/-! ## Forks -/

/-- What a retained child inherits is its parent's watchpoint, and the saved registers under its
own name. -/
theorem wp_inheritWatchpoint_holding
    {Q : Post WaitCall Exception Session (Option (Watchpoint × DebugRegisterSnapshot))}
    (returned : ∀ t inherited, s.Alike t →
      { watchpoint := inherited.map (·.1), snapshot := inherited.map (·.2) } =
        s.dbg.holding.inherited child → Q.returned inherited t)
    (raised : ∀ t e, s.Alike t → Q.raised e t) : wp (inheritWatchpoint tid child) Q s := by
  simp only [inheritWatchpoint, wp_bind, wp_view, id]
  rcases hwatch : s.dbg.watchpoint with _ | watchpoint
  · exact returned s none (refl_of _ s) (by simp [Holding.inherited, Debugger.holding, hwatch])
  rcases hsnap : s.dbg.watchpointRegisterSnapshot with _ | snapshot
  · exact raised s _ (refl_of _ s)
  simp only [wp_bind, wp_ite, wp_raise, wp_pure]
  split
  · exact raised s _ (refl_of _ s)
  · exact (quiet_copyDebugSlot _ _).wp
      (fun _ t h => returned t _ h (by simp [Holding.inherited, Debugger.holding, hwatch, hsnap]))
      (fun e t h _ => raised t e h)

/-- The tables once a child has been retained. -/
theorem turn_retain {d d' : Debugger} {domain : RetainedProcessDomain}
    (hnew : d.retainedProcesses[child]? = none) (hactive : d'.holding = d.holding)
    (hretained : d'.retainedProcesses = d.retainedProcesses.insert child domain)
    (hdomain : domain.holding = d.holding.inherited child) : Turn d.holdings d'.holdings := by
  have heq : d'.holdings = { d.holdings with
      retained := update d.holdings.retained child (some (d.holding.inherited child)) } := by
    rw [Debugger.holdings, hactive, hretained, retainedHoldings_insert, hdomain]
    rfl
  exact heq ▸ .forked _ child (by simp [Debugger.holdings, retainedHoldings, hnew])

theorem turning_classifyForkBoth (h : s.Turned d) (hpos : 0 < child) :
    wp (classifyForkBoth tid parent child) (turning d) s := by
  have killed : ∀ {α : Type} {Q : Post WaitCall Exception Session α} {t : Session} {e : Exception},
      (∀ u, u.Turned d → Q.raised e u) → s.Alike t → wp (killAndRethrow child e) Q t :=
    fun hQ ht => wp_killAndRethrow_of_alike ht fun u hu => hQ u (h.aftermath (hu child))
  simp only [classifyForkBoth, wp_bind, wp_handle]
  refine wp_checkRetainable (fun hok => ?_) (fun e => killed (fun _ hu => hu) (refl_of _ s))
  simp only [retainChild, wp_bind, wp_view]
  refine (Lowlevel.quiet_setOptions child).wp (fun _ t₀ h₀ => ?_)
    (fun e t ht _ => killed (fun _ hu => hu) ht)
  refine wp_inheritWatchpoint_holding (fun t₁ inherited h₁ hinherited => ?_)
    (fun t e ht => killed (fun _ hu => hu) (trans_of _ h₀ ht))
  have hdbg : t₀.dbg = s.dbg := by
    obtain ⟨_, _, _, rfl⟩ := h₀
    rfl
  rw [hdbg] at hinherited
  obtain ⟨faults, sequence, debug, rfl⟩ := trans_of _ h₀ h₁
  simp only [wp_makeStop, Process.adoptStopped, if_neg (not_le.mpr hpos), id, wp_ite, wp_raise,
    wp_bind, wp_modifyDebugger]
  split
  · exact killed (fun _ hu => hu) ⟨faults, sequence + 1, debug, rfl⟩
  rename_i hnew
  have hnone : s.dbg.retainedProcesses[child]? = none := by simpa using hnew
  exact h.turn (turn_retain hnone rfl rfl hinherited) rfl rfl rfl

theorem Session.Turned.handedOver (h : s.Turned d) (info : StopInfo)
    (hdbg : t.dbg = { s.dbg.handedOver tid child with stopInfo := info }) : t.Turned d := by
  by_cases howner : s.dbg.watchpointRegisterSnapshot.any (·.tid = tid) = true
  · refine h.turn ?_ (hdbg ▸ rfl) (hdbg ▸ rfl) (hdbg ▸ rfl)
    have heq : t.dbg.holdings =
        { s.dbg.holdings with active := s.dbg.holdings.active.ownedBy child } := by
      simp [hdbg, Debugger.holdings, Debugger.holding, Debugger.handedOver, howner,
        Holding.ownedBy]
    exact heq ▸ .handed s.dbg.holdings child
  · refine h.turn ?_ (hdbg ▸ rfl) (hdbg ▸ rfl) (hdbg ▸ rfl)
    have heq : t.dbg.holdings =
        { s.dbg.holdings with active := s.dbg.holdings.active.unwatched } := by
      simp [hdbg, Debugger.holdings, Debugger.holding, Debugger.handedOver, howner,
        Holding.unwatched]
    exact heq ▸ .unwatched s.dbg.holdings

theorem turning_classifyFork (h : s.Turned d) : wp (classifyFork tid) (turning d) s := by
  simp only [classifyFork, waitForUnfollowedChildStop, wp_bind, wp_view]
  refine wp_eventChild (fun faults _ h0 _ => ?_) (fun faults e => h.of_dbg rfl)
  simp only [wp_read, wp_ite, wp_raise, wp_pure]
  split
  · exact h.of_dbg rfl
  have hpos : 0 < (s.world.message tid : Int) := by omega
  have h' : { s with faults }.Turned d := h.of_dbg rfl
  cases s.dbg.forkFollowPolicy with
  | parent =>
    refine wp_classifyForkParent (fun t info ht _ => h.same rfl rfl rfl rfl)
      fun t e ht => h'.aftermath ht
  | child =>
    refine wp_classifyForkChild hpos ?_ ?_ ?_
    · exact fun faults sequence debug memory requests info _ _ _ => h.handedOver info rfl
    · exact fun t e ht => h'.aftermath (ht 0)
    · exact fun t e _ ht _ => h'.aftermath ht
  | both => exact turning_classifyForkBoth h' hpos

/-! ## Waiting and resuming -/

theorem turning_waitPass {expectedSingleStep : Bool} (h : s.Turned d) :
    wp (waitPass tracees expectedSingleStep) (turning d) s := by
  simp only [waitPass, wp_bind]
  refine wp_waitActiveProcess (fun e => h) ?_
  refine wp_mono (turning_waitFor h) (fun event t ht => ?_) (fun _ _ ht => ht)
    (fun _ _ _ => trivial)
  show wp (classifyEvent tracees expectedSingleStep event) (turning d) t
  unfold classifyEvent
  cases event.kind with
  | exited => exact turning_classifyEnded ht
  | signaled => exact turning_classifyEnded ht
  | stopped =>
    cases event.ptraceEvent with
    | exec => rw [wp_map]; exact turning_classifyExec ht
    | vfork => rw [wp_map]; exact turning_classifyVfork ht
    | vforkDone => exact ht
    | fork => rw [wp_map]; exact turning_classifyFork ht
    | clone =>
      rw [wp_bind]
      exact turning_classifyClone ht
    | none => rw [wp_map]; exact turning_classifySignalStop ht
    | other => rw [wp_map]; exact turning_classifySignalStop ht

theorem turning_waitAndClassify {expectedSingleStep : Bool} (h : s.Turned d) :
    wp (waitAndClassify tracees expectedSingleStep) (turning d) s := by
  refine wp_waitAndClassify (I := Session.Turned d) (fun u hu => ?_) (fun _ _ => trivial) h
  refine wp_mono (turning_waitPass hu) (fun r t ht => ?_) (fun _ _ ht => ht) (fun _ _ _ => trivial)
  cases r with
  | none => exact ht
  | some info => exact ht

theorem turning_resumeAndWait (h : s.Turned d) {kind : ResumeKind} {policy : SignalPolicy} :
    wp (resumeAndWait tracees kind policy) (turning d) s :=
  wp_resumeAndWait (fun _ _ => h.of_dbg rfl)
    fun _ _ _ _ _ => turning_waitAndClassify (h.same rfl rfl rfl rfl)

theorem turning_finishDisplacedStep {pending : PendingBreakpointStep} {exposeSingleStep : Bool}
    {info : StopInfo} (h : s.Turned d) :
    wp (finishDisplacedStep pending exposeSingleStep info) (turning d) s := by
  refine wp_finishDisplacedStep ?_ ?_ ?_
  · exact fun tid bp faults stopInfo _ _ _ _ =>
      h.turn (turn_setInstalled s.dbg pending.address true) rfl rfl rfl
  · exact fun stopInfo _ => h.same rfl rfl rfl rfl
  · exact fun faults e _ => h.of_dbg rfl

theorem turning_stepOver {pending : PendingBreakpointStep} {exposeSingleStep : Bool}
    (h : s.Turned d) :
    wp (stepOverPendingBreakpoint tracees pending exposeSingleStep) (turning d) s := by
  refine wp_stepOverPendingBreakpoint (fun faults e => h.of_dbg rfl) fun faults => ?_
  have hresumed : (s.resumed .step pending.tid 0 s.dbg.pendingSignals faults).Turned d :=
    h.same rfl rfl rfl rfl
  refine wp_mono (turning_waitAndClassify hresumed) (fun info t ht => ?_) (fun _ _ ht => ht)
    (fun _ _ _ => trivial)
  dsimp only
  split
  · exact ht
  · exact turning_finishDisplacedStep ht

theorem turning_continueExecution (h : s.Turned d) {policy : SignalPolicy} :
    wp (continueExecution tracees policy) (turning d) s := by
  refine wp_continueExecution (fun e => h) (fun _ => turning_resumeAndWait h) ?_
  intro pending _ _ _ _
  refine wp_mono (turning_stepOver h) (fun info t ht => ?_) (fun _ _ ht => ht)
    (fun _ _ _ => trivial)
  dsimp only
  split
  · exact ht
  · exact turning_resumeAndWait ht

theorem turning_singleStep (h : s.Turned d) {policy : SignalPolicy} :
    wp (singleStep tracees policy) (turning d) s :=
  wp_singleStep (fun _ => h) (fun _ => turning_resumeAndWait h) fun _ _ _ _ _ => turning_stepOver h

end Rules

end MiniDebugger
