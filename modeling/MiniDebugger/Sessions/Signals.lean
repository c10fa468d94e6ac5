import MiniDebugger.Sessions.SignalFiles

/-!
# Signals are passed on at most once

The signals that the requests of a session inject into a thread and those that are on file for it
are together no more than the stops that `waitpid` has reported (`Session.Balanced`), for every
thread and every signal. Commands that are not `Silent` keep the balance in one of three ways. The
signal stop files what was just reported, its `credit`. The resumption spends what is on file. The
loop that follows a `vfork` child passes on the stops of the child as they come.
-/

namespace MiniDebugger

open Command
open Std (ExtTreeMap)

/-- Signals are spent from what was reported: `k` stops are not spent yet, and `b` is the balance
that was brought forward. -/
def Session.Balanced (tid : Pid) (signal k : Nat) (b : Int) (s : Session) : Prop :=
  (s.injected tid signal + s.onFile tid signal + k : Nat) ≤ (s.stopped tid signal : Int) + b

/-! ## Commands that keep the balance -/

abbrev Balances {α : Type} (tid : Pid) (signal : Nat) (x : Act α) : Prop :=
  ∀ k b, Preserves (Session.Balanced tid signal k b) x

section Balances

variable {α β : Type} {tid other child : Pid} {signal k l : Nat} {b : Int} {s t : Session}

theorem Session.Balanced.mono (h : s.Balanced tid signal k b) (hle : l ≤ k) :
    s.Balanced tid signal l b := by
  unfold Session.Balanced at *
  omega

/-- A credit pays for as many requests and records. -/
theorem Session.Balanced.pay (h : s.Balanced tid signal (l + k) b)
    (hcost : t.injected tid signal + t.onFile tid signal ≤
      s.injected tid signal + s.onFile tid signal + l) (hreports : t.reports = s.reports) :
    t.Balanced tid signal k b := by
  unfold Session.Balanced Session.stopped at *
  rw [hreports]
  omega

theorem Session.Balanced.of_le (h : s.Balanced tid signal k b)
    (hinjected : t.injected tid signal ≤ s.injected tid signal)
    (hfile : t.onFile tid signal ≤ s.onFile tid signal) (hreports : t.reports = s.reports) :
    t.Balanced tid signal k b :=
  Session.Balanced.pay (l := 0) (h.mono (Nat.zero_add k).le) (by omega) hreports

theorem Balances.of_silent {x : Act α} (hx : Silent tid signal x) : Balances tid signal x := by
  intro k b s h
  have settle : ∀ t, (SignalRecord.Covers ⟨s.dbg.pendingSignals, s.dbg.retainedProcesses,
      s.reports, s.injected tid signal⟩ tid signal t) → t.Balanced tid signal k b := by
    rintro t ⟨hheld, hretained, hreports, hissued⟩
    refine h.of_le hissued (le_of_eq ?_) hreports
    rw [Session.onFile, Session.onFile, hheld, hretained]
  exact wp_mono (hx ⟨_, _, _, _⟩ s ⟨rfl, rfl, rfl, le_rfl⟩) (fun _ t ht => settle t ht)
    (fun _ t ht => settle t ht) fun _ _ _ => trivial

theorem Balances.bind {x : Act α} {f : α → Act β} (hx : Balances tid signal x)
    (hf : ∀ a, Balances tid signal (f a)) : Balances tid signal (x >>= f) :=
  fun k b => (hx k b).bind fun a => hf a k b

theorem Balances.handle {x : Act α} {h : Exception → Act α} (hx : Balances tid signal x)
    (hh : ∀ e, Balances tid signal (h e)) : Balances tid signal (Command.handle x h) :=
  fun k b => (hx k b).handle fun e => hh e k b

/-- Continue with a command that keeps the balance. -/
theorem Silent.then {x : Act α} {f : α → Act β} (hx : Silent tid signal x)
    (hf : ∀ a, Balances tid signal (f a)) : Balances tid signal (x >>= f) :=
  (Balances.of_silent hx).bind hf

theorem onFile_discard {d : Debugger} (h : d.pendingSignals = ∅)
    (hretained : d.retainedProcesses = s.dbg.retainedProcesses) :
    Session.onFile { s with dbg := d } tid signal ≤ s.onFile tid signal := by
  simp only [Session.onFile, h, hretained, filed_empty, Bool.toNat_false]
  omega

/-! ### Forks -/

section Forks

variable (hsignal : signal ≠ 0) (hkill : signal ≠ sigkill)

include hkill in
theorem silent_killAndRethrow (child : Pid) (e : Exception) :
    Silent tid signal (killAndRethrow child e : Act α) :=
  (Silent.handle (silent_detach (.inr hkill.symm)) fun _ => silent_kill _).bind fun _ =>
    Silent.raise _

include hkill in
theorem silent_detachAndRethrow (child : Pid) (e : Exception) :
    Silent tid signal (detachAndRethrow child e : Act α) :=
  (Silent.handle (silent_detach (.inr hkill.symm)) fun _ => Silent.pure _).bind fun _ =>
    Silent.raise _

theorem silent_checkRetainable (other : Pid) : Silent tid signal (checkRetainable other) :=
  (Silent.view _).bind fun _ => Silent.check (Silent.check
    (Silent.check (Silent.ite (Silent.raise _) (Silent.pure _))))

theorem silent_checkFollowable (other : Pid) : Silent tid signal (checkFollowable other) :=
  (Silent.view _).bind fun _ => Silent.check (Silent.ite (Silent.raise _) (Silent.pure _))

theorem silent_inheritWatchpoint (other child : Pid) :
    Silent tid signal (inheritWatchpoint other child) := by
  refine (Silent.view _).bind fun d => ?_
  cases d.watchpoint with
  | none => exact Silent.pure _
  | some watchpoint =>
    cases d.watchpointRegisterSnapshot with
    | none => exact Silent.raise _
    | some snapshot =>
      exact Silent.check ((Silent.of_quiet (quiet_copyDebugSlot _ _)).bind fun _ => Silent.pure _)

/-- A retained child starts with no signal on file. -/
theorem balances_retainChild (other child : Pid) :
    Balances tid signal (retainChild other child) := by
  refine (Silent.of_quiet (Lowlevel.quiet_setOptions _)).then fun _ =>
    (silent_inheritWatchpoint _ _).then fun inherited => (silent_makeStop _ _ _).then fun stop => ?_
  intro k b s h
  simp only [wp_bind, wp_view, id]
  cases Process.adoptStopped child s.dbg.process.origin with
  | error e => exact h
  | ok process =>
    simp only [wp_ite, wp_bind, wp_raise, wp_modifyDebugger]
    split
    · exact h
    · refine h.of_le le_rfl ?_ rfl
      refine Nat.add_le_add_left (card_filedIn_insert_le.trans ?_) _
      simp

include hkill in
theorem balances_classifyForkBoth (other parent child : Pid) :
    Balances tid signal (classifyForkBoth other parent child) :=
  ((silent_checkRetainable _).handle fun _ => silent_killAndRethrow hkill _ _).then fun _ =>
    ((balances_retainChild _ _).handle fun _ =>
      Balances.of_silent (silent_killAndRethrow hkill _ _)).bind fun _ =>
        Balances.of_silent (silent_processEventStop _ _ _ _ _)

include hsignal in
/-- The signals of a process that is left behind are dropped. -/
theorem balances_handOver (other child : Pid) : Balances tid signal (handOver other child) := by
  refine (Silent.of_quiet (Lowlevel.quiet_setOptions _)).then fun _ =>
    (silent_writeOriginalBytes _).then fun _ => (Silent.view _).then fun snapshot =>
      (Silent.when (Silent.of_quiet (quiet_copyDebugSlot _ _))).then fun _ =>
        (Silent.when silent_restoreWatchpointRegisters).then fun _ =>
          (silent_detach (.inr hsignal.symm)).then fun _ => (silent_tryProcess _).then fun _ => ?_
  have hrest : Balances tid signal (modifyDebugger fun d => { d with
      pendingThreadStarts := ∅
      pendingSignals := ∅
      breakpointRegisterSnapshots := [] }) := by
    intro k b s h
    exact h.of_le le_rfl (onFile_discard rfl rfl) rfl
  intro k b
  exact Preserves.ite
    ((Silent.then (silent_modifyDebugger (fun _ => rfl) fun _ => rfl) fun _ => hrest) k b)
    ((silent_clearWatchpoint.then fun _ => hrest) k b)

include hsignal hkill in
theorem balances_classifyForkChild (other parent child : Pid) :
    Balances tid signal (classifyForkChild other parent child) :=
  ((silent_checkFollowable _).handle fun _ => silent_killAndRethrow hkill _ _).then fun _ =>
    ((balances_handOver hsignal _ _).handle fun _ =>
      Balances.of_silent (silent_killAndRethrow hkill _ _)).bind fun _ =>
        Balances.of_silent (silent_processEventStop _ _ _ _ _)

include hsignal hkill in
theorem silent_classifyForkParent (other parent child : Pid) :
    Silent tid signal (classifyForkParent other parent child) :=
  (Silent.handle ((silent_writeOriginalBytes _).bind fun _ =>
    (Silent.of_quiet (quiet_disarmChild _ _)).bind fun _ => silent_detach (.inr hsignal.symm))
    fun _ => silent_detachAndRethrow hkill _ _).bind fun _ => silent_processEventStop _ _ _ _ _

theorem silent_eventChild (other : Pid) (what : String) :
    Silent tid signal (eventChild other what) :=
  (silent_getEventMessage _).bind fun _ => Silent.check (Silent.pure _)

theorem silent_waitForUnfollowedChildStop (child : Pid) :
    Silent tid signal (waitForUnfollowedChildStop child) :=
  (Silent.read _).bind fun _ => Silent.ite (Silent.raise _) (Silent.pure _)

include hsignal hkill in
theorem balances_classifyFork (other : Pid) : Balances tid signal (classifyFork other) := by
  refine (silent_eventChild _ _).then fun child => (Silent.view _).then fun parent =>
    (silent_waitForUnfollowedChildStop _).then fun _ => (Silent.view _).then fun policy => ?_
  cases policy with
  | both => exact balances_classifyForkBoth hkill other parent child
  | child => exact balances_classifyForkChild hsignal hkill other parent child
  | parent => exact Balances.of_silent (silent_classifyForkParent hsignal hkill other parent child)

end Forks

/-! ### Waiting -/

/-- The stops of a `vfork` child that are still to be collected. -/
def Session.childStops (s : Session) (child tid : Pid) (signal : Nat) : Nat :=
  if child = tid then s.world.transient.countP (·.stopsWith signal) else 0

/-- What a reported event allows to be passed on. -/
def Session.credit (s : Session) (event : WaitEvent) (tid : Pid) (signal : Nat) : Nat :=
  if event.kind = .stopped then
    (if event.tid = tid ∧ event.value = signal then 1 else 0) +
      if event.ptraceEvent = .vfork then s.childStops (s.world.message event.tid) tid signal else 0
  else 0

theorem World.deliver_requests {w : World} {d : Delivery} :
    (w.deliver d).requests = w.requests := by
  rcases hst : d.status with code | signal | ⟨signal, event⟩
  · simp [deliver, hst, ended]
  · simp [deliver, hst, ended]
  · cases event <;> simp [deliver, hst, stop, addChild, replaceImage]

/-- A report is credited with the stops it brings. -/
theorem Session.Balanced.deliver (h : s.Balanced tid signal k b) (d : Delivery)
    (rest : List Wakeup) (p : Process) (faults : List (Option Nat)) :
    Session.Balanced tid signal (d.brings tid signal + k) b
      { (s.deliver d rest).withProcess p with faults } := by
  unfold Session.Balanced at *
  have hstopped : Session.stopped { (s.deliver d rest).withProcess p with faults } tid signal =
      d.brings tid signal + s.stopped tid signal := rfl
  have hinjected : Session.injected { (s.deliver d rest).withProcess p with faults } tid signal =
      s.injected tid signal := by
    unfold Session.injected
    exact congrArg _ World.deliver_requests
  have hfile : Session.onFile { (s.deliver d rest).withProcess p with faults } tid signal =
      s.onFile tid signal := rfl
  omega

variable {tracees : Tracees}

theorem credit_le_brings {d : Delivery} {reported : Nat} {event : PtraceEvent}
    {newTid : Option Pid} (hst : d.status = .stopped reported event)
    (hworld : t.world = s.world.deliver d) :
    t.credit { kind := .stopped, value := reported, tid := d.tid, ptraceEvent := event, newTid }
      tid signal ≤ d.brings tid signal := by
  have hmessage : t.world.message d.tid = d.message := hworld ▸ World.deliver_message hst
  simp only [Session.credit, Session.childStops, Delivery.brings, hst, WaitStatus.stopsWith,
    WaitStatus.isVfork, if_true, hmessage, decide_eq_true_eq]
  refine Nat.add_le_add_left ?_ _
  by_cases hvfork : event = .vfork
  · subst hvfork
    have htransient : t.world.transient = d.transient := by
      simp [hworld, World.deliver, hst, World.addChild]
    simp [htransient, World.child]
  · simp [hvfork]

theorem balanced_waitFor {call : WaitCall} {requested : Pid} (h : s.Balanced tid signal k b) :
    wp (waitFor tracees call requested)
      ⟨fun event t => t.Balanced tid signal (t.credit event tid signal + k) b,
        fun _ t => t.Balanced tid signal k b, fun _ _ => True⟩ s := by
  have hwait : (s.waiting call).Balanced tid signal k b := h
  have more : ∀ {n : Nat}, k ≤ n + k := Nat.le_add_left _ _
  refine wp_waitFor (fun _ => h) (fun d rest _ _ _ => ?_) (fun d rest event p _ _ _ hkind _ _ => ?_)
    (fun d rest reported event _ _ hst _ => ?_) (fun d rest reported faults _ _ hst _ _ => ?_)
    (fun d rest reported faults e _ _ _ _ => ?_) trivial
  · exact (hwait.deliver d rest s.dbg.process s.faults).mono more
  · refine (hwait.deliver d rest p s.faults).mono ?_
    simp [Session.credit, hkind]
  · exact (hwait.deliver d rest _ s.faults).mono
      (Nat.add_le_add_right (credit_le_brings hst rfl) _)
  · exact (hwait.deliver d rest _ faults).mono
      (Nat.add_le_add_right (credit_le_brings hst rfl) _)
  · exact (hwait.deliver d rest _ faults).mono more

theorem balances_wait (call : WaitCall) : Balances tid signal (wait tracees call) :=
  fun _ _ _ h => wp_mono (balanced_waitFor h) (fun _ _ ht => ht.mono (Nat.le_add_left _ _))
    (fun _ _ ht => ht) fun _ _ _ => trivial

theorem balances_awaitVforkDone (other child : Pid) :
    Balances tid signal (awaitVforkDone tracees other child) :=
  (balances_wait _).bind fun _ => Balances.of_silent (Silent.check
    ((silent_getEventMessage _).bind fun _ => Silent.ite (Silent.raise _) (Silent.pure _)))

/-! ### `vfork` -/

/-- The balance without any credit. -/
abbrev balanced (tid : Pid) (signal : Nat) (b : Int) : Post WaitCall Exception Session α where
  returned _ t := t.Balanced tid signal 0 b
  raised _ t := t.Balanced tid signal 0 b
  blocked _ _ := True

/-- Once the credit is spent, go on with commands that keep the balance. -/
theorem wp_balanced_bind {x : Act α} {f : α → Act β} (hx : wp x (balanced tid signal b) s)
    (hf : ∀ a, Balances tid signal (f a)) : wp (x >>= f) (balanced tid signal b) s := by
  rw [wp_bind]
  exact wp_mono hx (fun a t ht => hf a 0 b t ht) (fun _ _ ht => ht) fun _ _ _ => trivial

theorem wp_waitForUnfollowedChildStop {Q : Post WaitCall Exception Session Unit}
    (stopped : Q.returned () s) (raised : ∀ e, Q.raised e s) :
    wp (waitForUnfollowedChildStop child) Q s := by
  simp only [waitForUnfollowedChildStop, wp_bind, wp_read, wp_ite, wp_raise, wp_pure]
  split
  · exact raised _
  · exact stopped

section Vfork

variable (hsignal : signal ≠ 0) (hkill : signal ≠ sigkill)

/-- Spend a credit on one more request. -/
theorem Session.Balanced.request {r : Request} {f : World → World}
    (hf : (f s.world).requests = r :: s.world.requests)
    (h : s.Balanced tid signal ((r.injects tid signal).toNat + k) b) :
    Session.Balanced tid signal k b { s with world := f s.world } := by
  refine h.pay (le_of_eq ?_) rfl
  have hinjected : Session.injected { s with world := f s.world } tid signal =
      s.injected tid signal + (r.injects tid signal).toNat := by
    unfold Session.injected
    rw [hf, List.countP_cons]
    cases r.injects tid signal <;> rfl
  rw [hinjected, Nat.add_right_comm]
  rfl

include hsignal in
/-- Each stop of the child pays for the request that lets it run on. -/
theorem balanced_followTransientChild {statuses : List WaitStatus}
    (h : s.Balanced tid signal
      (if child = tid then statuses.countP (·.stopsWith signal) else 0) b) :
    wp (followTransientChild child statuses) (balanced tid signal b) s := by
  induction statuses generalizing s with
  | nil => trivial
  | cons status rest ih =>
    have spent : s.Balanced tid signal 0 b := h.mono (Nat.zero_le _)
    cases status with
    | exited code => exact spent
    | signaled reported => exact spent
    | stopped reported event =>
      simp only [followTransientChild, Lowlevel.continueProcess, wp_ite, wp_bind, wp_raise]
      split
      · exact Balances.of_silent (silent_detach (.inr hsignal.symm)) 0 b s spent
      split
      · exact spent
      split
      · exact spent
      refine Lowlevel.wp_resume (fun faults => ?_) fun _ _ _ => spent
      refine ih (Session.Balanced.request (s := { s with faults })
        (r := .resume .cont child reported) (f := fun w => { w with
          mode := Function.update w.mode child (some .cont)
          requests := .resume .cont child reported :: w.requests }) rfl
        (Session.Balanced.mono (s := { s with faults }) h ?_))
      simp only [Request.injects, List.countP_cons, WaitStatus.stopsWith]
      by_cases hchild : child = tid <;> by_cases hreported : reported = signal <;>
        simp [hchild, hreported, Nat.add_comm]

include hsignal in
theorem balanced_runTransientChild {other : Pid}
    (h : s.Balanced tid signal (s.childStops child tid signal) b) :
    wp (runTransientChild other child) (balanced tid signal b) s := by
  have spent : s.Balanced tid signal 0 b := h.mono (Nat.zero_le _)
  simp only [runTransientChild, wp_bind]
  refine (quiet_disarmChild other child).wp (fun _ t ht => ?_) (fun _ t ht _ => ?_) <;>
    obtain ⟨faults, sequence, debug, rfl⟩ := ht
  · refine (Lowlevel.quiet_setOptions child).wp (fun _ t ht => ?_) (fun _ t ht _ => ?_) <;>
      obtain ⟨faults', sequence', debug', rfl⟩ := ht
    · refine Lowlevel.wp_resume (fun faults => ?_) fun _ _ _ => spent
      refine balanced_followTransientChild hsignal (h.of_le (le_of_eq ?_) le_rfl rfl)
      simp [Session.injected, Request.injects, hsignal.symm]
    · exact spent
  · exact spent

include hsignal hkill in
/-- The parent runs on without a signal until the child has released its memory. -/
theorem balanced_classifyVfork {other : Pid}
    (h : s.Balanced tid signal (s.childStops (s.world.message other) tid signal) b) :
    wp (classifyVfork tracees other) (balanced tid signal b) s := by
  have spent : s.Balanced tid signal 0 b := h.mono (Nat.zero_le _)
  unfold classifyVfork
  rw [wp_bind]
  refine wp_eventChild (fun faults _ _ _ => ?_) fun _ _ => spent
  dsimp only
  rw [wp_bind]
  refine wp_waitForUnfollowedChildStop ?_ fun _ => spent
  refine wp_balanced_bind (x := handle _ _) ?_ fun _ =>
    (silent_resume (.inr hsignal.symm)).then fun _ => (silent_modifyProcess _).then fun _ =>
      (balances_awaitVforkDone _ _).bind fun _ => (Silent.view _).then fun _ =>
        Balances.of_silent (silent_processEventStop _ _ _ _ _)
  rw [wp_handle]
  refine wp_mono (balanced_runTransientChild (s := { s with faults }) hsignal h) (fun _ _ ht => ht)
    (fun e t ht => ?_) fun _ _ _ => trivial
  exact Balances.of_silent (silent_killAndRethrow hkill _ _) 0 b t ht

end Vfork

/-! ### Classification -/

section Stops

variable (hsignal : signal ≠ 0) (hkill : signal ≠ sigkill)

theorem onFile_forgetTask (s : Session) (other : Pid) :
    Session.onFile { s with dbg := s.dbg.forgetTask other } tid signal ≤ s.onFile tid signal :=
  Nat.add_le_add_right filed_erase_le _

/-- A retained process that becomes the active one keeps its file. -/
theorem onFile_activate {pid : Pid} {domain : RetainedProcessDomain} {d : Debugger}
    (hdomain : s.dbg.retainedProcesses[pid]? = some domain)
    (hheld : d.pendingSignals = domain.pendingSignals)
    (hretained : d.retainedProcesses = s.dbg.retainedProcesses.erase pid) :
    Session.onFile { s with dbg := d } tid signal ≤ s.onFile tid signal := by
  have hcard : _ = (filedIn s.dbg.retainedProcesses tid signal).card := card_filedIn_erase hdomain
  simp only [Session.onFile, hheld, hretained]
  omega

theorem balances_classifyEnded (event : WaitEvent)
    (processReason finalReason threadReason : StopReason) :
    Balances tid signal (classifyEnded event processReason finalReason threadReason) := by
  intro k b s h
  have forgotten : Session.Balanced tid signal k b { s with dbg := s.dbg.forgetTask event.tid } :=
    h.of_le le_rfl (onFile_forgetTask s _) rfl
  refine wp_classifyEnded (fun survivor domain _ _ hdomain _ => ?_)
    (fun survivor domain _ hdomain _ => ?_) (fun _ _ => forgotten) (fun _ _ => forgotten)
    fun _ _ => forgotten
  · exact h.of_le le_rfl (onFile_activate hdomain rfl rfl) rfl
  · exact h.of_le le_rfl (onFile_activate hdomain rfl rfl) rfl

/-- The signals of the image that is replaced are dropped. -/
theorem balances_classifyExec (other : Pid) : Balances tid signal (classifyExec other) := by
  refine (silent_getEventMessage _).then fun message => ?_
  intro k b
  refine Preserves.check ((silent_tryProcess _).then (fun _ => Balances.bind ?_ fun _ => ?_) k b)
  · intro k b s h
    exact h.of_le le_rfl (onFile_discard rfl rfl) rfl
  · exact Balances.of_silent <| (Silent.of_quiet (Lowlevel.quiet_setOptions _)).bind fun _ =>
      (Silent.read _).bind fun _ => Silent.bind (silent_modifyDebugger (fun _ => rfl) fun _ => rfl)
        fun _ => (silent_makeStop _ _ _).bind fun _ => silent_report _

/-- A credit pays for the signal that is filed. -/
theorem Session.Balanced.file {other : Pid} {value : Nat}
    (h : s.Balanced tid signal (if other = tid ∧ value = signal then 1 else 0) b)
    (hheld : t.dbg.pendingSignals = s.dbg.pendingSignals.insert other value)
    (hretained : t.dbg.retainedProcesses = s.dbg.retainedProcesses)
    (hinjected : t.injected tid signal = s.injected tid signal)
    (hreports : t.reports = s.reports) : t.Balanced tid signal 0 b := by
  have hfile : (filed (s.dbg.pendingSignals.insert other value) tid signal).toNat ≤ _ :=
    filed_insert_le
  refine Session.Balanced.pay (h.mono (Nat.add_zero _).le) ?_ hreports
  rw [hinjected]
  simp only [Session.onFile, hheld, hretained]
  omega

/-- A signal stop files the signal it reports. -/
theorem balanced_classifySignalStop {expectedSingleStep : Bool} {event : WaitEvent}
    (h : s.Balanced tid signal (if event.tid = tid ∧ event.value = signal then 1 else 0) b) :
    wp (classifySignalStop expectedSingleStep event) (balanced tid signal b) s := by
  have spent : s.Balanced tid signal 0 b := h.mono (Nat.zero_le _)
  refine wp_classifySignalStop (fun _ _ _ _ _ => spent) (fun info _ _ _ _ _ => ?_)
    (fun t info _ _ _ _ ht _ _ => ?_) (fun t info _ _ _ _ ht _ _ => ?_) (fun t _ _ _ ht => ?_)
    (fun t e ht _ => ?_)
  · exact h.file rfl rfl rfl rfl
  all_goals obtain ⟨_, _, _, rfl⟩ := ht
  · exact spent
  · exact spent
  · exact Balances.of_silent (silent_classifyTrap _) 0 b _ spent
  · exact spent

/-- What is done with a stop costs no more than the stop was credited with. -/
theorem balanced_map_some {x : Act StopInfo} (hx : wp x (balanced tid signal b) s) :
    wp (some <$> x) (balanced tid signal b) s := by
  rw [wp_map]
  exact hx

include hsignal hkill in
theorem balanced_classifyEvent {expectedSingleStep : Bool} {event : WaitEvent}
    (h : s.Balanced tid signal (s.credit event tid signal) b) :
    wp (classifyEvent tracees expectedSingleStep event) (balanced tid signal b) s := by
  have spent : s.Balanced tid signal 0 b := h.mono (Nat.zero_le _)
  unfold classifyEvent
  cases hkind : event.kind with
  | exited => exact balances_classifyEnded event _ _ _ 0 b s spent
  | signaled => exact balances_classifyEnded event _ _ _ 0 b s spent
  | stopped =>
    simp only [Session.credit, hkind, if_true] at h
    have stop : s.Balanced tid signal (if event.tid = tid ∧ event.value = signal then 1 else 0) b :=
      h.mono (Nat.le_add_right _ _)
    cases hevent : event.ptraceEvent with
    | exec => exact balanced_map_some (balances_classifyExec _ 0 b s spent)
    | vfork =>
      simp only [hevent, if_true] at h
      exact balanced_map_some (balanced_classifyVfork hsignal hkill (h.mono (Nat.le_add_left _ _)))
    | vforkDone => exact spent
    | fork => exact balanced_map_some (balances_classifyFork hsignal hkill _ 0 b s spent)
    | clone =>
      exact Balances.of_silent ((silent_classifyClone _).bind fun _ => Silent.pure _) 0 b s spent
    | none => exact balanced_map_some (balanced_classifySignalStop stop)
    | other => exact balanced_map_some (balanced_classifySignalStop stop)

include hsignal hkill in
theorem balanced_waitAndClassify {expectedSingleStep : Bool} (h : s.Balanced tid signal 0 b) :
    wp (waitAndClassify tracees expectedSingleStep) (balanced tid signal b) s := by
  refine wp_waitAndClassify (I := Session.Balanced tid signal 0 b) (fun s h => ?_)
    (fun _ _ => trivial) h
  simp only [waitPass, wp_bind]
  refine wp_waitActiveProcess (fun _ => h) ?_
  refine wp_mono (balanced_waitFor h) (fun event t ht => ?_) (fun _ _ ht => ht) fun _ _ _ => trivial
  refine wp_mono (balanced_classifyEvent hsignal hkill ht) (fun r u hu => ?_) (fun _ _ hu => hu)
    fun _ _ _ => trivial
  cases r with
  | none => exact hu
  | some info => exact hu

/-! ### Resuming -/

/-- The signal `resumeSignal` finds for a thread. -/
def sentSignal (policy : SignalPolicy) (signals : ExtTreeMap Pid Nat) (other : Pid) : Nat :=
  if policy ≠ .forward then 0 else (signals[other]?).getD 0

include hsignal in
theorem filed_of_sent {policy : SignalPolicy} {signals : ExtTreeMap Pid Nat}
    (h : sentSignal policy signals tid = signal) : filed signals tid signal = true := by
  unfold sentSignal at h
  split at h
  · exact absurd h.symm hsignal
  · cases hget : signals[tid]? with
    | none => exact absurd (by simpa [hget] using h.symm) hsignal
    | some held => simpa [filed, hget] using h

include hsignal in
/-- Only a signal on file is passed on. -/
theorem injects_le_filed (policy : SignalPolicy) (signals : ExtTreeMap Pid Nat) (other : Pid) :
    (Request.injects tid signal (.detach other (sentSignal policy signals other))).toNat ≤
      (filed signals tid signal).toNat := by
  by_cases hinject : other = tid ∧ sentSignal policy signals other = signal
  · obtain ⟨rfl, hsent⟩ := hinject
    rw [filed_of_sent hsignal hsent]
    exact Bool.toNat_le _
  · simp [Request.injects, hinject]

include hsignal in
/-- The file a resumption erases pays for the signal it passes on. -/
theorem injects_add_erased_le (policy : SignalPolicy) (signals : ExtTreeMap Pid Nat) (other : Pid)
    (kind : ResumeKind) :
    (Request.injects tid signal (.resume kind other (sentSignal policy signals other))).toNat +
      (filed (signals.erase other) tid signal).toNat ≤ (filed signals tid signal).toNat := by
  by_cases hinject : other = tid ∧ sentSignal policy signals other = signal
  · obtain ⟨rfl, hsent⟩ := hinject
    simp [filed_of_sent hsignal hsent, filed_erase_self, Bool.toNat_le]
  · have hquiet : Request.injects tid signal
        (.resume kind other (sentSignal policy signals other)) = false := by
      simpa [Request.injects] using hinject
    rw [hquiet]
    exact (Nat.zero_add _).le.trans filed_erase_le

include hsignal in
theorem balanced_spend {kind : ResumeKind} {policy : SignalPolicy} {other : Pid}
    {faults : List (Option Nat)} (h : s.Balanced tid signal 0 b) :
    (s.resumed kind other (sentSignal policy s.dbg.pendingSignals other)
      (s.dbg.pendingSignals.erase other) faults).Balanced tid signal 0 b := by
  have hpaid : _ ≤ (filed s.dbg.pendingSignals tid signal).toNat :=
    injects_add_erased_le hsignal policy s.dbg.pendingSignals other kind
  refine Session.Balanced.pay (l := 0) h ?_ rfl
  have hinjected : (s.resumed kind other (sentSignal policy s.dbg.pendingSignals other)
      (s.dbg.pendingSignals.erase other) faults).injected tid signal = s.injected tid signal +
        (Request.injects tid signal
          (.resume kind other (sentSignal policy s.dbg.pendingSignals other))).toNat := by
    simp only [Session.injected, Session.resumed, List.countP_cons]
    cases Request.injects tid signal (.resume kind other _) <;> rfl
  rw [hinjected]
  simp only [Session.onFile, Session.resumed] at *
  omega

include hsignal hkill in
theorem balanced_resumeAndWait {kind : ResumeKind} {policy : SignalPolicy}
    (h : s.Balanced tid signal 0 b) :
    wp (resumeAndWait tracees kind policy) (balanced tid signal b) s := by
  simp only [resumeAndWait, resumeSignal, wp_bind]
  refine wp_stoppedTid (fun _ _ _ => ?_) fun _ _ => h
  simp only [wp_view]
  cases kind with
  | cont =>
    rw [wp_bind]
    refine Lowlevel.wp_resume (fun _ => ?_) fun _ _ _ => h
    exact balanced_waitAndClassify hsignal hkill (balanced_spend hsignal h)
  | step =>
    rw [wp_bind]
    refine Lowlevel.wp_resume (fun _ => ?_) fun _ _ _ => h
    exact balanced_waitAndClassify hsignal hkill (balanced_spend hsignal h)

include hsignal hkill in
/-- The step over a breakpoint passes no signal. -/
theorem balanced_stepOver {pending : PendingBreakpointStep} {exposeSingleStep : Bool}
    (h : s.Balanced tid signal 0 b) :
    wp (stepOverPendingBreakpoint tracees pending exposeSingleStep) (balanced tid signal b) s := by
  refine wp_stepOverPendingBreakpoint (fun _ _ => h) fun faults => ?_
  have hresumed : (s.resumed .step pending.tid 0 s.dbg.pendingSignals faults).Balanced
      tid signal 0 b := by
    refine h.of_le (le_of_eq ?_) le_rfl rfl
    simp [Session.injected, Session.resumed, Request.injects, hsignal.symm]
  refine wp_mono (balanced_waitAndClassify hsignal hkill hresumed) (fun info t ht => ?_)
    (fun _ _ ht => ht) fun _ _ _ => trivial
  dsimp only
  split
  · exact ht
  · exact Balances.of_silent (silent_finishDisplacedStep _ _ _) 0 b t ht

include hsignal hkill in
theorem balanced_continueExecution {policy : SignalPolicy} (h : s.Balanced tid signal 0 b) :
    wp (continueExecution tracees policy) (balanced tid signal b) s := by
  refine wp_continueExecution (fun _ => h) (fun _ => balanced_resumeAndWait hsignal hkill h)
    fun pending _ _ _ _ => ?_
  refine wp_mono (balanced_stepOver hsignal hkill h) (fun info t ht => ?_) (fun _ _ ht => ht)
    fun _ _ _ => trivial
  dsimp only
  split
  · exact ht
  · exact balanced_resumeAndWait hsignal hkill ht

include hsignal hkill in
theorem balanced_singleStep {policy : SignalPolicy} (h : s.Balanced tid signal 0 b) :
    wp (singleStep tracees policy) (balanced tid signal b) s :=
  wp_singleStep (fun _ => h) (fun _ => balanced_resumeAndWait hsignal hkill h)
    fun _ _ _ _ _ => balanced_stepOver hsignal hkill h

/-! ### Processes -/

/-- The process that is parked takes its file with it. -/
theorem balances_selectProcess (pid : Pid) : Balances tid signal (selectProcess pid) := by
  intro k b s h
  refine wp_selectProcess (fun _ => h) (fun domain hdomain _ _ _ => h.of_le le_rfl ?_ rfl)
    (fun domain _ hdomain _ => h.of_le le_rfl (onFile_activate hdomain rfl rfl) rfl) fun _ => h
  have hleaves : _ = (filedIn s.dbg.retainedProcesses tid signal).card :=
    card_filedIn_erase hdomain
  have henters : (filedIn ((s.dbg.retainedProcesses.erase pid).insert s.dbg.process.pid
      s.dbg.parked) tid signal).card ≤ _ := card_filedIn_insert_le
  simp only [Session.onFile, Debugger.swapped, Debugger.activate, Debugger.parked] at *
  omega

/-! ### Detaching -/

/-- The record with `n` more requests. -/
def SignalRecord.more (R : SignalRecord) (n : Nat) : SignalRecord :=
  { R with issued := R.issued + n }

theorem SignalRecord.Covers.more {R : SignalRecord} (h : R.Covers tid signal s) (n : Nat) :
    (R.more n).Covers tid signal s :=
  ⟨h.1, h.2.1, h.2.2.1, h.2.2.2.trans (Nat.le_add_right _ _)⟩

/-- No more than one detach request with this signal has been made. -/
abbrev released (R : SignalRecord) (tid : Pid) (signal : Nat) (other : Pid) (sent : Nat) :
    Post WaitCall Exception Session α :=
  let R' := R.more (Request.injects tid signal (.detach other sent)).toNat
  ⟨fun _ => R'.Covers tid signal, fun _ => R'.Covers tid signal, fun _ _ => True⟩

theorem covers_detachTask {R : SignalRecord} {other : Pid} {sent : Nat} {first : Option Exception}
    (h : R.Covers tid signal s) :
    wp (detachTask other sent first) (released R tid signal other sent) s := by
  simp only [detachTask, wp_handle, wp_bind, wp_modifyProcess, wp_pure]
  refine Lowlevel.wp_detach (fun faults => ⟨h.1, h.2.1, h.2.2.1, ?_⟩) fun faults e _ => ?_
  · refine le_trans (le_of_eq ?_) (Nat.add_le_add_right h.2.2.2 _)
    simp only [Session.injected, List.countP_cons]
    cases Request.injects tid signal (.detach other sent) <;> rfl
  · cases e with
    | ptraceError operation errno =>
      simp only [wp_ite, wp_bind, wp_pure, wp_modifyProcess]
      split
      · exact h.more _
      · exact h.more _
    | _ => exact h.more _

include hsignal in
theorem silent_detachTask (other : Pid) (first : Option Exception) :
    Silent tid signal (detachTask other 0 first) := by
  have hquiet : (Request.injects tid signal (.detach other 0)).toNat = 0 := by
    simp [Request.injects, hsignal.symm]
  intro R s h
  have hdetach : wp (detachTask other 0 first) _ s := covers_detachTask h
  rwa [released, hquiet] at hdetach

include hsignal in
/-- Of the tasks that are released, only `signalTid` is passed the signal, and it comes last. -/
theorem covers_detachTasks {R : SignalRecord} {signalTid : Pid} {sent : Nat}
    {others last : List Pid} (hothers : ∀ other ∈ others, other ≠ signalTid)
    (hlast : last = [signalTid] ∨ last = [])
    {first : Option Exception} (h : R.Covers tid signal s) :
    wp (detachTasks signalTid sent (others ++ last) first)
      (released R tid signal signalTid sent) s := by
  induction others generalizing s first with
  | nil =>
    rcases hlast with rfl | rfl
    · simp only [List.nil_append, detachTasks, if_true, wp_bind, wp_pure]
      exact covers_detachTask h
    · exact h.more _
  | cons other rest ih =>
    obtain ⟨hne, hrest⟩ := List.forall_mem_cons.mp hothers
    rw [List.cons_append, detachTasks, wp_bind, if_neg hne]
    exact wp_mono (silent_detachTask hsignal other first R s h) (fun _ _ ht => ih hrest ht)
      (fun _ _ ht => ht.more _) fun _ _ _ => trivial

include hsignal in
theorem covers_detachProcess {R : SignalRecord} {sent : Nat} (h : R.Covers tid signal s) :
    wp (detachProcess sent) (released R tid signal s.dbg.process.currentTid sent) s := by
  simp only [detachProcess, wp_bind, wp_view, wp_ite, wp_raise]
  split
  · exact h.more _
  split
  · exact h.more _
  split
  · exact h.more _
  have horder : (if s.dbg.process.taskStates.contains s.dbg.process.currentTid = true then
      s.dbg.process.tids.filter (· ≠ s.dbg.process.currentTid) ++ [s.dbg.process.currentTid]
      else s.dbg.process.tids.filter (· ≠ s.dbg.process.currentTid)) =
      s.dbg.process.tids.filter (· ≠ s.dbg.process.currentTid) ++
        if s.dbg.process.taskStates.contains s.dbg.process.currentTid = true then
          [s.dbg.process.currentTid] else [] := by
    split
    · rfl
    · exact (List.append_nil _).symm
  rw [horder]
  refine wp_mono (covers_detachTasks hsignal (fun other hother => ?_) ?_ h) (fun first t ht => ?_)
    (fun _ _ ht => ht) fun _ _ _ => trivial
  · simpa using (List.mem_filter.mp hother).2
  · split
    · exact .inl rfl
    · exact .inr rfl
  · simp only [wp_modifyProcess]
    cases first with
    | none => exact ht
    | some e => exact ht

theorem keepsProcess_restoreAllBreakpoints (p : Process) :
    Preserves (fun s => s.dbg.process = p) restoreAllBreakpoints := by
  refine Preserves.bind (fun s h => wp_stoppedTid (fun _ _ _ => h) fun _ _ => h) fun tid =>
    (Preserves.read _).bind fun table => ?_
  refine Preserves.bind (Preserves.forEach (fun entry => Preserves.ite ?_ (Preserves.pure _)) _)
    fun _ => Preserves.update fun _ h => h
  exact Preserves.bind (fun s h => Lowlevel.wp_writeByte (fun _ _ => h) fun _ _ _ => h) fun _ =>
    Preserves.update fun _ h => h

theorem keepsProcess_restoreWatchpointRegisters (p : Process) :
    Preserves (fun s => s.dbg.process = p) restoreWatchpointRegisters :=
  fun _ h => wp_restoreWatchpointRegisters
    (fun _ ht => by obtain ⟨_, _, _, rfl⟩ := ht; exact h)
    (fun _ _ ht _ => by obtain ⟨_, _, _, rfl⟩ := ht; exact h) fun _ _ _ _ => h

/-- Combine a silent command with what it does to the process record. -/
theorem Silent.and {x : Act α} (hx : Silent tid signal x) {p : Process}
    (hp : Preserves (fun s => s.dbg.process = p) x) (R : SignalRecord) :
    Preserves (fun s => R.Covers tid signal s ∧ s.dbg.process = p) x :=
  fun s h => wp_mono (wp_and (hx R s h.1) (hp s h.2)) (fun _ _ ht => ht) (fun _ _ ht => ht)
    fun _ _ _ => trivial

/-- The signals of the session when it starts to detach. -/
def Session.signalRecord (s : Session) (tid : Pid) (signal : Nat) : SignalRecord :=
  ⟨s.dbg.pendingSignals, s.dbg.retainedProcesses, s.reports, s.injected tid signal⟩

include hsignal in
/-- What `detach` spends is no more than it has on file, and it discards the file. -/
theorem balanced_detachOperation {policy : SignalPolicy} (h : s.Balanced tid signal 0 b) :
    wp (detach policy) ⟨fun _ t => t.Balanced tid signal 0 b,
      fun _ t => t.world.requests = s.world.requests → t.Balanced tid signal 0 b,
      fun _ _ => True⟩ s := by
  have kept : ∀ {n : Nat} {t : Session}, ((s.signalRecord tid signal).more n).Covers tid signal t →
      t.world.requests = s.world.requests → t.Balanced tid signal 0 b := by
    rintro n t ⟨hheld, hretained, hreports, -⟩ hrequests
    refine h.of_le ?_ ?_ hreports
    · rw [Session.injected, Session.injected, hrequests]
    · rw [Session.onFile, Session.onFile, hheld, hretained]
      rfl
  have start : (s.signalRecord tid signal).Covers tid signal s := ⟨rfl, rfl, rfl, le_rfl⟩
  simp only [detach, resumeSignal, wp_bind, wp_view, wp_ite, wp_raise, id]
  split
  · exact fun _ => h
  split
  · exact fun _ => h
  split
  · exact fun _ => h
  refine wp_stoppedTid (fun _ _ _ => ?_) fun _ _ _ => h
  refine wp_mono (silent_restoreAllBreakpoints.and (keepsProcess_restoreAllBreakpoints _) _ s
    ⟨start, rfl⟩) (fun _ t ht => ?_) (fun _ t ht => kept (ht.1.more 0)) fun _ _ _ => trivial
  refine wp_mono (silent_restoreWatchpointRegisters.and
    (keepsProcess_restoreWatchpointRegisters _) _ t ht) (fun _ u hu => ?_)
    (fun _ t ht => kept (ht.1.more 0)) fun _ _ _ => trivial
  refine wp_mono (covers_detachProcess hsignal hu.1) (fun _ v hv => ?_) (fun _ v hv => kept hv)
    fun _ _ _ => trivial
  obtain ⟨-, hretained, hreports, hissued⟩ := hv
  rw [hu.2] at hissued
  have hissued : v.injected tid signal ≤ s.injected tid signal + _ := hissued
  have hretained : v.dbg.retainedProcesses = s.dbg.retainedProcesses := hretained
  have hpaid : _ ≤ (filed s.dbg.pendingSignals tid signal).toNat :=
    injects_le_filed hsignal policy s.dbg.pendingSignals s.dbg.process.currentTid
  have hdiscard : Session.onFile { v with dbg := v.dbg.discardImageState } tid signal =
      (filedIn s.dbg.retainedProcesses tid signal).card := by
    rw [← hretained]
    simp [Session.onFile, Debugger.discardImageState]
  refine Session.Balanced.pay (l := 0) h ?_ hreports
  rw [hdiscard]
  exact (Nat.add_le_add_right (hissued.trans (Nat.add_le_add_left hpaid _)) _).trans
    (Nat.add_assoc _ _ _).le

end Stops

end Balances

/-! ## Runs -/

/-- An operation leads from one session to another, whatever reports and ptrace failures it
meets; a `detach` that fails has released no task. -/
inductive Session.Step (tracees : Tracees) (s : Session) : Session → Prop
  | returned {op : Operation} {script : List Wakeup} {faults : List (Option Nat)} {r : Result}
      {t : Session} (hrun : op.run tracees (s.facing script faults) = .returned r t) :
      Session.Step tracees s t
  | raised {op : Operation} {script : List Wakeup} {faults : List (Option Nat)} {e : Exception}
      {t : Session} (hrun : op.run tracees (s.facing script faults) = .raised e t)
      (hdetach : op.detaches = true → t.world.requests = s.world.requests) :
      Session.Step tracees s t

section Runs

variable {tracees : Tracees} {tid : Pid} {signal : Nat} {b : Int} {s t : Session}

theorem Balances.map {α β : Type} {x : Act α} (hx : Balances tid signal x) (f : α → β) :
    Balances tid signal (f <$> x) := by
  intro k b s h
  rw [wp_map]
  exact hx k b s h

/-- No operation passes on more than it has on file. -/
theorem balanced_run (hsignal : signal ≠ 0) (hkill : signal ≠ sigkill) (op : Operation)
    (h : s.Balanced tid signal 0 b) :
    wp (op.run tracees) ⟨fun _ t => t.Balanced tid signal 0 b,
      fun _ t => (op.detaches = true → t.world.requests = s.world.requests) →
        t.Balanced tid signal 0 b, fun _ _ => True⟩ s := by
  have keeps : wp (op.run tracees) (balanced tid signal b) s → wp (op.run tracees)
      ⟨fun _ t => t.Balanced tid signal 0 b,
        fun _ t => (op.detaches = true → t.world.requests = s.world.requests) →
          t.Balanced tid signal 0 b, fun _ _ => True⟩ s :=
    fun h => wp_mono h (fun _ _ ht => ht) (fun _ _ ht _ => ht) fun _ _ _ => trivial
  cases op with
  | addBreakpoint address =>
    exact keeps ((Balances.of_silent (silent_addBreakpoint address)).map _ 0 b s h)
  | removeBreakpoint id =>
    exact keeps ((Balances.of_silent (silent_removeBreakpoint id)).map _ 0 b s h)
  | addWriteWatchpoint address length =>
    exact keeps ((Balances.of_silent (silent_addWriteWatchpoint address length)).map _ 0 b s h)
  | removeWatchpoint id =>
    exact keeps ((Balances.of_silent (silent_removeWatchpoint id)).map _ 0 b s h)
  | writeMemory address bytes =>
    exact keeps ((Balances.of_silent (silent_writeMemory address bytes)).map _ 0 b s h)
  | continueExecution policy =>
    refine keeps ?_
    rw [Operation.run, wp_map]
    exact balanced_continueExecution hsignal hkill h
  | singleStep policy =>
    refine keeps ?_
    rw [Operation.run, wp_map]
    exact balanced_singleStep hsignal hkill h
  | selectThread other =>
    exact keeps ((Balances.of_silent (silent_selectThread other)).map _ 0 b s h)
  | selectProcess pid => exact keeps ((balances_selectProcess pid).map _ 0 b s h)
  | setForkFollowPolicy policy =>
    exact keeps ((Balances.of_silent (silent_setForkFollowPolicy policy)).map _ 0 b s h)
  | detach policy =>
    rw [Operation.run, wp_map]
    exact wp_mono (balanced_detachOperation hsignal h) (fun _ _ ht => ht)
      (fun _ _ ht hrequests => ht (hrequests rfl)) fun _ _ _ => trivial

theorem Session.Step.balanced (hsignal : signal ≠ 0) (hkill : signal ≠ sigkill)
    (hstep : s.Step tracees t) (h : s.Balanced tid signal 0 b) : t.Balanced tid signal 0 b := by
  cases hstep with
  | @returned op script faults r _ hrun =>
    exact wp_returned (balanced_run hsignal hkill op (s := s.facing script faults) h) hrun
  | @raised op script faults e _ hrun hdetach =>
    exact wp_raised (balanced_run hsignal hkill op (s := s.facing script faults) h) hrun hdetach

/-- From one point of a run to a later one, the signals that requests have passed to a thread and
those that are on file for it grow by no more than the stops reported for it. -/
theorem signals_passed_on_once (hrun : Relation.ReflTransGen (Session.Step tracees) s t)
    (hsignal : signal ≠ 0) (hkill : signal ≠ sigkill) :
    t.injected tid signal + t.onFile tid signal + s.stopped tid signal ≤
      t.stopped tid signal + (s.injected tid signal + s.onFile tid signal) := by
  have start : s.Balanced tid signal 0
      ((s.injected tid signal + s.onFile tid signal : Nat) - (s.stopped tid signal : Int)) := by
    unfold Session.Balanced
    omega
  have balanced : ∀ b, s.Balanced tid signal 0 b → t.Balanced tid signal 0 b := by
    intro b h
    induction hrun with
    | refl => exact h
    | tail _ hstep ih => exact hstep.balanced hsignal hkill ih
  have settled := balanced _ start
  unfold Session.Balanced at settled
  omega

theorem Session.step_after (op : Operation) (script : List Wakeup) (r : Result)
    (hrun : ((op.run tracees) (s.facing script [])).value? = some r) :
    s.Step tracees (s.after tracees op script) :=
  .returned (Session.run_of_value hrun)

/-- A launched process that is stopped by signal 12 and then resumed with it. -/
def Session.signalled : Session :=
  ((Session.launch 10 (fun _ => some 0) {}).after anyTracees (.continueExecution .suppress)
    [.report { tid := 10, status := .stopped 12 .none }]).after anyTracees
      (.continueExecution .forward) [.report { tid := 10, status := .exited 0 }]

theorem signals_passed_on_once_signalled : Session.signalled.injected 10 12 = 1 ∧
    Session.signalled.injected 10 12 + Session.signalled.onFile 10 12 +
      (Session.launch 10 (fun _ => some 0) {}).stopped 10 12 ≤
    Session.signalled.stopped 10 12 + ((Session.launch 10 (fun _ => some 0) {}).injected 10 12 +
      (Session.launch 10 (fun _ => some 0) {}).onFile 10 12) :=
  have stopped : (Session.launch 10 (fun _ => some 0) {}).Step anyTracees _ :=
    Session.step_after (.continueExecution .suppress)
      [.report { tid := 10, status := .stopped 12 .none }]
      (.stop { reason := .signal, value := 12, tid := 10, sequence := 1 }) (by decide +kernel)
  have resumed : Session.Step anyTracees _ Session.signalled :=
    Session.step_after (.continueExecution .forward) [.report { tid := 10, status := .exited 0 }]
      (.stop { reason := .exited, tid := 10, sequence := 2 }) (by decide +kernel)
  ⟨by decide +kernel,
    signals_passed_on_once (.tail (.single stopped) resumed) (by decide) (by decide)⟩

end Runs

end MiniDebugger
