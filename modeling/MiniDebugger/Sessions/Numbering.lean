import MiniDebugger.Debugger.ExecutionRules

/-!
# Stop numbers

Every stop the debugger reports carries a number of its own, larger than all numbers given out
before. `Session.Counted` is the invariant behind this: the counter and the reports taken only
grow, and no recorded stop is numbered above the counter. `Numbers` says of a command that
reports a stop that the stop is a new one.
-/

namespace MiniDebugger

open Command
open Std (ExtTreeMap)

/-- The reports taken from `waitpid` so far, latest first. -/
def Session.reports (s : Session) : List (World × Delivery) :=
  s.history.filterMap fun
    | .takes _ world d => some (world, d)
    | .waits _ _ => none

/-- No stop is numbered above the counter; the counter has passed `n` and at least `k` reports
have been taken. -/
def Session.Counted (n k : Nat) (s : Session) : Prop :=
  n ≤ s.sequence ∧ k ≤ s.reports.length ∧ s.dbg.stopInfo.sequence ≤ s.sequence ∧
    ∀ (pid : Pid) (domain : RetainedProcessDomain), s.dbg.retainedProcesses[pid]? = some domain →
      domain.stopInfo.sequence ≤ s.sequence

/-- What a command that reports a stop returns: a stop numbered above `n`, which is now the
recorded one. -/
def Session.NewStop (n : Nat) (s : Session) (info : StopInfo) : Prop :=
  n < info.sequence ∧ s.dbg.stopInfo.sequence = info.sequence

def numbering (n k : Nat) : Post WaitCall Exception Session StopInfo where
  returned info t := t.Counted n k ∧ t.NewStop n info
  raised _ t := t.Counted n k
  blocked _ _ := True

/-- The command reports a stop under a new number. -/
def Numbers (x : Act StopInfo) : Prop :=
  ∀ n k s, s.Counted n k → wp x (numbering n k) s

section Commands

variable {α : Type} {n k : Nat}

abbrev KeepsCount (x : Act α) : Prop := ∀ n k, Preserves (Session.Counted n k) x

theorem Session.Counted.recount {s t : Session} (h : s.Counted n k)
    (hsequence : s.sequence ≤ t.sequence) (hreports : t.reports = s.reports)
    (hstop : t.dbg.stopInfo = s.dbg.stopInfo)
    (hretained : t.dbg.retainedProcesses = s.dbg.retainedProcesses) : t.Counted n k := by
  obtain ⟨hn, hk, hs, hdomains⟩ := h
  refine ⟨by omega, by rwa [hreports], by rw [hstop]; omega, fun pid domain hdomain => ?_⟩
  rw [hretained] at hdomain
  have := hdomains pid domain hdomain
  omega

theorem KeepsCount.pure (a : α) : KeepsCount (Pure.pure a : Act α) :=
  fun _ _ => Preserves.pure a

theorem KeepsCount.raise (e : Exception) : KeepsCount (Command.raise e : Act α) :=
  fun _ _ => Preserves.raise e

theorem KeepsCount.block (w : WaitCall) : KeepsCount (Command.block w : Act α) :=
  fun _ _ => Preserves.block w

theorem KeepsCount.read (f : Session → α) : KeepsCount (Command.read f : Act α) :=
  fun _ _ => Preserves.read f

theorem KeepsCount.view (f : Debugger → α) : KeepsCount (MiniDebugger.view f) :=
  KeepsCount.read _

theorem KeepsCount.bind {β : Type} {x : Act α} {f : α → Act β} (hx : KeepsCount x)
    (hf : ∀ a, KeepsCount (f a)) : KeepsCount (x >>= f) :=
  fun n k => (hx n k).bind fun a => hf a n k

theorem KeepsCount.handle {x : Act α} {h : Exception → Act α} (hx : KeepsCount x)
    (hh : ∀ e, KeepsCount (h e)) : KeepsCount (Command.handle x h) :=
  fun n k => (hx n k).handle fun e => hh e n k

theorem KeepsCount.ite {c : Prop} [Decidable c] {x y : Act α} (hx : KeepsCount x)
    (hy : KeepsCount y) : KeepsCount (if c then x else y) :=
  fun n k => Preserves.ite (hx n k) (hy n k)

theorem KeepsCount.check {β : Type} {c : Prop} [Decidable c] {e : Exception} {f : β → Act α}
    {x : Act α} (hx : KeepsCount x) :
    KeepsCount (if c then Command.raise e >>= f else x) :=
  fun n k => Preserves.check (hx n k)

theorem KeepsCount.when {c : Bool} {x : Act Unit} (hx : KeepsCount x) :
    KeepsCount (Command.when c x) := by
  cases c with
  | true => exact hx
  | false => exact KeepsCount.pure ()

theorem KeepsCount.forEach {β : Type} {f : β → Act Unit} (hf : ∀ b, KeepsCount (f b))
    (bs : List β) : KeepsCount (Command.forEach f bs) :=
  fun n k => Preserves.forEach (fun b => hf b n k) bs

/-- A change that the counter, the reports and the recorded stops have no part in. -/
theorem KeepsCount.update {f : Session → Session} (hsequence : ∀ s, (f s).sequence = s.sequence)
    (hreports : ∀ s, (f s).reports = s.reports)
    (hstop : ∀ s, (f s).dbg.stopInfo = s.dbg.stopInfo)
    (hretained : ∀ s, (f s).dbg.retainedProcesses = s.dbg.retainedProcesses) :
    KeepsCount (Command.update f) :=
  fun _ _ => Preserves.update fun s h =>
    h.recount (hsequence s).ge (hreports s) (hstop s) (hretained s)

theorem keepsCount_modifyDebugger {f : Debugger → Debugger}
    (hstop : ∀ d, (f d).stopInfo = d.stopInfo)
    (hretained : ∀ d, (f d).retainedProcesses = d.retainedProcesses) :
    KeepsCount (modifyDebugger f) :=
  KeepsCount.update (fun _ => rfl) (fun _ => rfl) (fun s => hstop s.dbg) (fun s => hretained s.dbg)

theorem keepsCount_modifyProcess (f : Process → Process) : KeepsCount (modifyProcess f) :=
  keepsCount_modifyDebugger (fun _ => rfl) fun _ => rfl

theorem keepsCount_tryProcess (f : Process → Except Exception Process) :
    KeepsCount (tryProcess f) := by
  intro n k s h
  exact wp_tryProcess (fun p _ => h) (fun _ _ => h)

/-! ## Requests -/

theorem keepsCount_attempt (operation : String) : KeepsCount (Lowlevel.attempt operation) :=
  fun _ _ _ h => Lowlevel.wp_attempt (fun _ => h) fun _ _ => h

theorem keepsCount_modifyWorld (f : World → World) : KeepsCount (Lowlevel.modifyWorld f) :=
  KeepsCount.update (fun _ => rfl) (fun _ => rfl) (fun _ => rfl) (fun _ => rfl)

theorem keepsCount_detach (tid : Pid) (signal : Nat) : KeepsCount (Lowlevel.detach tid signal) :=
  (keepsCount_attempt _).bind fun _ => keepsCount_modifyWorld _

theorem keepsCount_kill (pid : Pid) : KeepsCount (Lowlevel.kill pid) := keepsCount_modifyWorld _

theorem keepsCount_setOptions (tid : Pid) : KeepsCount (Lowlevel.setOptions tid) :=
  keepsCount_attempt _

theorem keepsCount_getEventMessage (tid : Pid) : KeepsCount (Lowlevel.getEventMessage tid) :=
  (keepsCount_attempt _).bind fun _ => KeepsCount.read _

theorem keepsCount_resume (kind : ResumeKind) (operation : String) (tid : Pid) (signal : Nat) :
    KeepsCount (Lowlevel.resume kind operation tid signal) :=
  (keepsCount_attempt _).bind fun _ => keepsCount_modifyWorld _

theorem keepsCount_getRegisters (tid : Pid) : KeepsCount (Lowlevel.getRegisters tid) :=
  (keepsCount_attempt _).bind fun _ => KeepsCount.read _

theorem keepsCount_setRegisters (tid : Pid) (regs : UserRegs) :
    KeepsCount (Lowlevel.setRegisters tid regs) :=
  (keepsCount_attempt _).bind fun _ => keepsCount_modifyWorld _

theorem keepsCount_getDebugRegister (tid : Pid) (index : Nat) :
    KeepsCount (Lowlevel.getDebugRegister tid index) :=
  (keepsCount_attempt _).bind fun _ => KeepsCount.read _

theorem keepsCount_setDebugRegister (tid : Pid) (index : Nat) (value : Word) :
    KeepsCount (Lowlevel.setDebugRegister tid index value) :=
  (keepsCount_attempt _).bind fun _ => keepsCount_modifyWorld _

theorem keepsCount_peekWord (tid : Pid) (address : Addr) :
    KeepsCount (Lowlevel.peekWord tid address) :=
  (keepsCount_attempt _).bind fun _ => (KeepsCount.read _).bind fun _ =>
    KeepsCount.ite (KeepsCount.pure _) (KeepsCount.raise _)

theorem keepsCount_pokeWord (tid : Pid) (address : Addr) (word : List Byte) :
    KeepsCount (Lowlevel.pokeWord tid address word) :=
  (keepsCount_attempt _).bind fun _ => (KeepsCount.read _).bind fun _ =>
    KeepsCount.ite (keepsCount_modifyWorld _) (KeepsCount.raise _)

theorem keepsCount_writeByte (tid : Pid) (address : Addr) (value : Byte) :
    KeepsCount (Lowlevel.writeByte tid address value) :=
  (keepsCount_peekWord tid address).bind fun _ => keepsCount_pokeWord tid address _

/-! ## Waiting -/

/-- No report has been taken from `s` to `t`, and the tracee is as it was. -/
structure Session.Standing (s t : Session) : Prop where
  memory : t.world.memory = s.world.memory
  regs : t.world.regs = s.world.regs
  tasks : t.world.tasks = s.world.tasks
  pid : t.dbg.process.pid = s.dbg.process.pid
  stop : t.dbg.stopInfo = s.dbg.stopInfo
  reports : t.reports = s.reports

theorem Session.Standing.refl (s : Session) : s.Standing s := ⟨rfl, rfl, rfl, rfl, rfl, rfl⟩

theorem Session.Standing.trans {s t u : Session} (h : s.Standing t) (h' : t.Standing u) :
    s.Standing u :=
  ⟨h'.memory.trans h.memory, h'.regs.trans h.regs, h'.tasks.trans h.tasks, h'.pid.trans h.pid,
    h'.stop.trans h.stop, h'.reports.trans h.reports⟩

/-- What a command that waits does: it reports a new stop, or it raises, and then it has taken
a report or left the tracee as it was. -/
def waited (n k : Nat) (s : Session) : Post WaitCall Exception Session StopInfo where
  returned info t := t.Counted n (k + 1) ∧ t.NewStop n info
  raised _ t := t.Counted n k ∧ (k < t.reports.length ∨ s.Standing t)
  blocked _ _ := True

theorem Session.reports_deliver (s : Session) (d : Delivery) (rest : List Wakeup) :
    (s.deliver d rest).reports = (s.world, d) :: s.reports := rfl

theorem Session.Counted.deliver {s : Session} (h : s.Counted n k) (d : Delivery)
    (rest : List Wakeup) : (s.deliver d rest).Counted n (k + 1) := by
  obtain ⟨hn, hk, hs⟩ := h
  refine ⟨hn, ?_, hs⟩
  rw [Session.reports_deliver, List.length_cons]
  omega

theorem Session.Counted.before {s : Session} (h : s.Counted n (k + 1)) : s.Counted n k :=
  ⟨h.1, Nat.le_of_succ_le h.2.1, h.2.2⟩

theorem keepsCount_adoptTask (tid : Pid) (status : WaitStatus) :
    KeepsCount (adoptTask tid status) := fun _ _ _ h => wp_adoptTask (fun _ => h) fun _ _ => h

theorem keepsCount_announceThread (tid : Pid) : KeepsCount (announceThread tid) :=
  (keepsCount_getEventMessage tid).bind fun _ =>
    KeepsCount.check ((keepsCount_modifyProcess _).bind fun _ => KeepsCount.pure _)

variable {tracees : Tracees}

/-- A wait that returns has taken a report; one that raises may have taken none. -/
theorem waited_waitFor {call : WaitCall} {requested : Pid} {s : Session} (h : s.Counted n k) :
    wp (waitFor tracees call requested)
      ⟨fun _ t => t.Counted n (k + 1),
        fun _ t => t.Counted n k ∧ (k < t.reports.length ∨ s.Standing t), fun _ _ => True⟩ s := by
  unfold waitFor
  rw [wp_bind]
  refine wp_waitpid (fun rest => ⟨h, .inr ⟨rfl, rfl, rfl, rfl, rfl, rfl⟩⟩)
    (fun d rest _ => ?_) trivial
  have hd := Session.Counted.deliver (s := s.waiting call) h d rest
  refine wp_mono (Q := ⟨fun _ t => t.Counted n (k + 1), fun _ t => t.Counted n (k + 1),
    fun _ _ => True⟩) ?_ (fun _ _ ht => ht) (fun _ t ht => ⟨ht.before, .inl ht.2.1⟩)
    (fun _ _ _ => trivial)
  revert hd
  generalize (s.waiting call).deliver d rest = u
  -- what is done with a report takes no other one
  refine fun hd => KeepsCount.bind (keepsCount_adoptTask _ _)
    (fun _ => KeepsCount.bind (keepsCount_modifyProcess _) fun _ => ?_) n (k + 1) u hd
  cases d.status with
  | exited code => exact (keepsCount_modifyProcess _).bind fun _ => KeepsCount.pure _
  | signaled signal => exact (keepsCount_modifyProcess _).bind fun _ => KeepsCount.pure _
  | stopped signal event =>
    exact (keepsCount_modifyProcess _).bind fun _ => KeepsCount.ite
      ((keepsCount_announceThread _).bind fun _ => KeepsCount.pure _) (KeepsCount.pure _)

theorem keepsCount_wait (call : WaitCall) : KeepsCount (wait tracees call) := by
  intro n k s h
  exact wp_mono (waited_waitFor h) (fun _ t ht => ht.before) (fun _ _ ht => ht.1)
    fun _ _ _ => trivial

/-! ## Breakpoints and the watchpoint -/

theorem keepsCount_stoppedTid : KeepsCount stoppedTid :=
  (KeepsCount.view _).bind fun _ => KeepsCount.check (KeepsCount.check (KeepsCount.pure _))

theorem keepsCount_prepareBreakpointHit (address : Addr) (regs : UserRegs) (tid : Pid) :
    KeepsCount (prepareBreakpointHit address regs tid) := by
  refine (KeepsCount.view _).bind fun table => ?_
  cases table[address]? with
  | none => exact KeepsCount.raise _
  | some bp =>
    refine KeepsCount.check ?_
    refine KeepsCount.bind (keepsCount_modifyDebugger (fun _ => rfl) fun _ => rfl) fun _ => ?_
    exact (keepsCount_setRegisters _ _).bind fun _ => (keepsCount_writeByte _ _ _).bind fun _ =>
      keepsCount_modifyDebugger (fun _ => rfl) fun _ => rfl

theorem keepsCount_replaceDebugSlot (tid : Pid) (dr0 dr6 dr7 : Word) :
    KeepsCount (replaceDebugSlot tid dr0 dr6 dr7) :=
  (keepsCount_getDebugRegister _ _).bind fun _ => (keepsCount_setDebugRegister _ _ _).bind fun _ =>
    (keepsCount_setDebugRegister _ _ _).bind fun _ =>
      (keepsCount_setDebugRegister _ _ _).bind fun _ => keepsCount_setDebugRegister _ _ _

theorem keepsCount_restoreWatchpointRegisters : KeepsCount restoreWatchpointRegisters := by
  refine (KeepsCount.view _).bind fun snapshot => ?_
  cases snapshot with
  | none => exact KeepsCount.pure _
  | some snapshot =>
    exact (KeepsCount.view _).bind fun _ => KeepsCount.check (keepsCount_replaceDebugSlot _ _ _ _)

theorem keepsCount_clearWatchpoint : KeepsCount clearWatchpoint :=
  keepsCount_modifyDebugger (fun _ => rfl) fun _ => rfl

/-! ## Reporting a stop -/

theorem Session.Counted.newStop {s : Session} (h : s.Counted n k) (info : StopInfo)
    (hinfo : info.sequence = s.sequence + 1) :
    (numbering n k).returned info
      { s with sequence := s.sequence + 1, dbg := { s.dbg with stopInfo := info } } := by
  obtain ⟨hn, hk, hs, hdomains⟩ := h
  refine ⟨⟨?_, hk, ?_, fun pid domain hdomain => ?_⟩, ?_, rfl⟩
  · show n ≤ s.sequence + 1
    omega
  · exact hinfo.le
  · have := hdomains pid domain hdomain
    show _ ≤ s.sequence + 1
    omega
  · omega

/-- Number a stop, fill in details and record it. -/
theorem numbers_report (reason : StopReason) (value : Nat) (tid : Pid) {f : StopInfo → StopInfo}
    (hf : ∀ info, (f info).sequence = info.sequence) :
    Numbers (do report (f (← makeStop reason value tid))) := by
  intro n k s h
  simp only [wp_bind, wp_makeStop, wp_report]
  exact h.newStop _ (hf _)

theorem Numbers.bind {x : Act α} {f : α → Act StopInfo} (hx : KeepsCount x)
    (hf : ∀ a, Numbers (f a)) : Numbers (x >>= f) := by
  intro n k s h
  rw [wp_bind]
  exact wp_mono (hx n k s h) (fun a t ht => hf a n k t ht) (fun _ _ ht => ht) fun _ _ _ => trivial

theorem Numbers.raise (e : Exception) : Numbers (Command.raise e) := fun _ _ _ h => h

theorem Numbers.check {β : Type} {c : Prop} [Decidable c] {e : Exception} {f : β → Act StopInfo}
    {x : Act StopInfo} (hx : Numbers x) : Numbers (if c then Command.raise e >>= f else x) := by
  split
  · exact fun _ _ _ h => h
  · exact hx

theorem Numbers.ite {c : Prop} [Decidable c] {x y : Act StopInfo} (hx : Numbers x)
    (hy : Numbers y) : Numbers (if c then x else y) := by
  split
  · exact hx
  · exact hy

theorem numbers_processEventStop (kind : ProcessEventKind) (tid parent child : Pid)
    (retainsChild : Bool) : Numbers (processEventStop kind tid parent child retainsChild) :=
  numbers_report .trap sigtrap tid fun _ => rfl

/-! ## Forks -/

theorem keepsCount_killAndRethrow (child : Pid) (e : Exception) :
    KeepsCount (killAndRethrow child e : Act α) :=
  (KeepsCount.handle (keepsCount_detach _ _) fun _ => keepsCount_kill _).bind fun _ =>
    KeepsCount.raise _

theorem keepsCount_detachAndRethrow (child : Pid) (e : Exception) :
    KeepsCount (detachAndRethrow child e : Act α) :=
  (KeepsCount.handle (keepsCount_detach _ _) fun _ => KeepsCount.pure _).bind fun _ =>
    KeepsCount.raise _

theorem keepsCount_copyDebugSlot (parent child : Pid) : KeepsCount (copyDebugSlot parent child) :=
  (keepsCount_getDebugRegister _ _).bind fun _ => (keepsCount_getDebugRegister _ _).bind fun _ =>
    (keepsCount_getDebugRegister _ _).bind fun _ => keepsCount_replaceDebugSlot _ _ _ _

theorem keepsCount_checkRetainable (tid : Pid) : KeepsCount (checkRetainable tid) :=
  (KeepsCount.view _).bind fun _ => KeepsCount.check (KeepsCount.check
    (KeepsCount.check (KeepsCount.ite (KeepsCount.raise _) (KeepsCount.pure _))))

theorem keepsCount_checkFollowable (tid : Pid) : KeepsCount (checkFollowable tid) :=
  (KeepsCount.view _).bind fun _ =>
    KeepsCount.check (KeepsCount.ite (KeepsCount.raise _) (KeepsCount.pure _))

theorem keepsCount_inheritWatchpoint (tid child : Pid) :
    KeepsCount (inheritWatchpoint tid child) := by
  refine (KeepsCount.view _).bind fun d => ?_
  cases d.watchpoint with
  | none => exact KeepsCount.pure _
  | some watchpoint =>
    cases d.watchpointRegisterSnapshot with
    | none => exact KeepsCount.raise _
    | some snapshot =>
      exact KeepsCount.check ((keepsCount_copyDebugSlot _ _).bind fun _ => KeepsCount.pure _)

/-- The child is retained with a stop that was numbered just before. -/
theorem keepsCount_retainChild (tid child : Pid) : KeepsCount (retainChild tid child) := by
  refine (keepsCount_setOptions _).bind fun _ => (keepsCount_inheritWatchpoint _ _).bind
    fun inherited => fun n k s h => ?_
  simp only [wp_bind, wp_makeStop, wp_view, id]
  have hstop : Session.Counted n k { s with sequence := s.sequence + 1 } :=
    h.recount (Nat.le_succ _) rfl rfl rfl
  cases Process.adoptStopped child s.dbg.process.origin with
  | error e => exact hstop
  | ok process =>
    simp only [wp_ite, wp_bind, wp_raise, wp_modifyDebugger]
    split
    · exact hstop
    · obtain ⟨hn, hk, hs, hdomains⟩ := hstop
      refine ⟨hn, hk, hs, fun pid domain hdomain => ?_⟩
      rw [ExtTreeMap.getElem?_insert] at hdomain
      split at hdomain
      · cases hdomain
        exact le_rfl
      · exact hdomains pid domain hdomain

theorem numbers_classifyForkBoth (tid parent child : Pid) :
    Numbers (classifyForkBoth tid parent child) :=
  Numbers.bind (KeepsCount.handle (keepsCount_checkRetainable _) fun _ =>
    keepsCount_killAndRethrow _ _) fun _ =>
  Numbers.bind (KeepsCount.handle (keepsCount_retainChild _ _) fun _ =>
    keepsCount_killAndRethrow _ _) fun _ => numbers_processEventStop _ _ _ _ _

theorem keepsCount_writeOriginalBytes (tid : Pid) : KeepsCount (writeOriginalBytes tid) :=
  (KeepsCount.view _).bind fun _ => KeepsCount.forEach
    (fun _ => KeepsCount.ite (keepsCount_writeByte _ _ _) (KeepsCount.pure _)) _

theorem keepsCount_handOver (tid child : Pid) : KeepsCount (handOver tid child) := by
  refine (keepsCount_setOptions _).bind fun _ => (keepsCount_writeOriginalBytes _).bind fun _ =>
    (KeepsCount.view _).bind fun snapshot => (keepsCount_copyDebugSlot _ _).when.bind fun _ =>
      keepsCount_restoreWatchpointRegisters.when.bind fun _ => (keepsCount_detach _ _).bind fun _ =>
        (keepsCount_tryProcess _).bind fun _ => ?_
  have hrest : KeepsCount (modifyDebugger fun d => { d with
      pendingThreadStarts := ∅
      pendingSignals := ∅
      breakpointRegisterSnapshots := [] }) := keepsCount_modifyDebugger (fun _ => rfl) fun _ => rfl
  exact KeepsCount.ite
    ((keepsCount_modifyDebugger (fun _ => rfl) fun _ => rfl).bind fun _ => hrest)
    (keepsCount_clearWatchpoint.bind fun _ => hrest)

theorem numbers_classifyForkChild (tid parent child : Pid) :
    Numbers (classifyForkChild tid parent child) :=
  Numbers.bind (KeepsCount.handle (keepsCount_checkFollowable _) fun _ =>
    keepsCount_killAndRethrow _ _) fun _ =>
  Numbers.bind (KeepsCount.handle (keepsCount_handOver _ _) fun _ =>
    keepsCount_killAndRethrow _ _) fun _ => numbers_processEventStop _ _ _ _ _

theorem keepsCount_disarmChild (tid child : Pid) : KeepsCount (disarmChild tid child) := by
  refine (KeepsCount.view _).bind fun snapshot => ?_
  cases snapshot with
  | none => exact KeepsCount.pure _
  | some snapshot =>
    exact KeepsCount.ite (keepsCount_replaceDebugSlot _ _ _ _) (KeepsCount.pure _)

theorem numbers_classifyForkParent (tid parent child : Pid) :
    Numbers (classifyForkParent tid parent child) :=
  Numbers.bind (KeepsCount.handle ((keepsCount_writeOriginalBytes _).bind fun _ =>
    (keepsCount_disarmChild _ _).bind fun _ => keepsCount_detach _ _) fun _ =>
      keepsCount_detachAndRethrow _ _) fun _ => numbers_processEventStop _ _ _ _ _

theorem keepsCount_eventChild (tid : Pid) (what : String) : KeepsCount (eventChild tid what) :=
  (keepsCount_getEventMessage _).bind fun _ => KeepsCount.check (KeepsCount.pure _)

theorem keepsCount_waitForUnfollowedChildStop (child : Pid) :
    KeepsCount (waitForUnfollowedChildStop child) :=
  (KeepsCount.read _).bind fun _ => KeepsCount.ite (KeepsCount.raise _) (KeepsCount.pure _)

theorem numbers_classifyFork (tid : Pid) : Numbers (classifyFork tid) := by
  refine Numbers.bind (keepsCount_eventChild _ _) fun child => Numbers.bind (KeepsCount.view _)
    fun parent => Numbers.bind (keepsCount_waitForUnfollowedChildStop _) fun _ =>
      Numbers.bind (KeepsCount.view _) fun policy => ?_
  cases policy with
  | both => exact numbers_classifyForkBoth tid parent child
  | child => exact numbers_classifyForkChild tid parent child
  | parent => exact numbers_classifyForkParent tid parent child

theorem keepsCount_followTransientChild (child : Pid) (statuses : List WaitStatus) :
    KeepsCount (followTransientChild child statuses) := by
  induction statuses with
  | nil => exact KeepsCount.block _
  | cons status rest ih =>
    cases status with
    | exited code => exact KeepsCount.pure _
    | signaled signal => exact KeepsCount.pure _
    | stopped signal event =>
      exact KeepsCount.ite (keepsCount_detach _ _) (KeepsCount.ite (KeepsCount.raise _)
        (KeepsCount.ite (KeepsCount.raise _) ((keepsCount_resume _ _ _ _).bind fun _ => ih)))

theorem keepsCount_runTransientChild (tid child : Pid) :
    KeepsCount (runTransientChild tid child) :=
  (keepsCount_disarmChild _ _).bind fun _ => (keepsCount_setOptions _).bind fun _ =>
    (keepsCount_resume _ _ _ _).bind fun _ => (KeepsCount.read _).bind fun _ =>
      keepsCount_followTransientChild _ _

theorem keepsCount_awaitVforkDone (tid child : Pid) :
    KeepsCount (awaitVforkDone tracees tid child) :=
  (keepsCount_wait _).bind fun _ => KeepsCount.check
    ((keepsCount_getEventMessage _).bind fun _ =>
      KeepsCount.ite (KeepsCount.raise _) (KeepsCount.pure _))

theorem numbers_classifyVfork (tid : Pid) : Numbers (classifyVfork tracees tid) :=
  Numbers.bind (keepsCount_eventChild _ _) fun _ =>
    Numbers.bind (keepsCount_waitForUnfollowedChildStop _) fun _ =>
      Numbers.bind (KeepsCount.handle (keepsCount_runTransientChild _ _) fun _ =>
        keepsCount_killAndRethrow _ _) fun _ =>
      Numbers.bind (keepsCount_resume _ _ _ _) fun _ =>
        Numbers.bind (keepsCount_modifyProcess _) fun _ =>
          Numbers.bind (keepsCount_awaitVforkDone _ _) fun _ =>
            Numbers.bind (KeepsCount.view _) fun _ => numbers_processEventStop _ _ _ _ _

/-! ## Classification -/

/-- What a pass that reports a stop or goes round again does. -/
def numberingIf (n k : Nat) : Post WaitCall Exception Session (Option StopInfo) where
  returned r t := t.Counted n k ∧ ∀ info, r = some info → t.NewStop n info
  raised _ t := t.Counted n k
  blocked _ _ := True

theorem numberingIf_some {x : Act StopInfo} (hx : Numbers x) {s : Session}
    (h : s.Counted n k) : wp (some <$> x) (numberingIf n k) s := by
  rw [wp_map]
  refine wp_mono (hx n k s h) (fun info t ht => ⟨ht.1, fun _ heq => ?_⟩) (fun _ _ ht => ht)
    fun _ _ _ => trivial
  cases heq
  exact ht.2

theorem Session.Counted.erase {s : Session} (h : s.Counted n k) {pid : Pid} {d : Debugger}
    (hstop : d.stopInfo.sequence ≤ s.sequence + 1)
    (hretained : d.retainedProcesses = s.dbg.retainedProcesses.erase pid) :
    Session.Counted n k { s with sequence := s.sequence + 1, dbg := d } := by
  obtain ⟨hn, hk, hs, hdomains⟩ := h
  refine ⟨Nat.le_succ_of_le hn, hk, hstop, fun q other hother => ?_⟩
  simp only [hretained, ExtTreeMap.getElem?_erase] at hother
  split at hother
  · cases hother
  · have := hdomains q other hother
    show _ ≤ s.sequence + 1
    omega

theorem numbers_classifyEnded (event : WaitEvent)
    (processReason finalReason threadReason : StopReason) {s : Session} (h : s.Counted n k) :
    wp (classifyEnded event processReason finalReason threadReason) (numberingIf n k) s := by
  have here : Session.Counted n k { s with dbg := s.dbg.forgetTask event.tid } := h
  have report : ∀ reason, (numberingIf n k).returned
      (some (s.stopInfo reason event.value event.tid))
      ({ s with dbg := s.dbg.forgetTask event.tid }.stopWith
        (s.stopInfo reason event.value event.tid)) := by
    intro reason
    have hnew := here.newStop (s.stopInfo reason event.value event.tid) rfl
    refine ⟨hnew.1, fun info heq => ?_⟩
    cases heq
    exact hnew.2
  refine wp_classifyEnded ?_ ?_ (fun _ _ => report finalReason) (fun _ _ => ⟨here, by simp⟩)
    (fun _ _ => report threadReason)
  · intro survivor domain e _ hdomain _
    have := h.2.2.2 survivor domain hdomain
    exact h.erase (Nat.le_succ_of_le this) rfl
  · intro survivor domain _ hdomain _
    refine ⟨h.erase le_rfl rfl, fun info heq => ?_⟩
    cases heq
    exact ⟨Nat.lt_succ_of_le h.1, rfl⟩

theorem numbers_classifyExec (tid : Pid) : Numbers (classifyExec tid) := by
  refine Numbers.bind (keepsCount_getEventMessage _) fun message => Numbers.check ?_
  refine Numbers.bind (keepsCount_tryProcess _) fun _ => ?_
  refine Numbers.bind (keepsCount_modifyDebugger (fun _ => rfl) fun _ => rfl) fun _ => ?_
  refine Numbers.bind (keepsCount_setOptions _) fun _ => ?_
  refine Numbers.bind (KeepsCount.read _) fun _ => ?_
  refine Numbers.bind (keepsCount_modifyDebugger (fun _ => rfl) fun _ => rfl) fun _ => ?_
  exact numbers_report .exec sigtrap tid fun _ => rfl

theorem keepsCount_classifyClone (event : WaitEvent) : KeepsCount (classifyClone event) := by
  unfold classifyClone
  cases event.newTid with
  | none => exact KeepsCount.raise _
  | some newTid =>
    refine (KeepsCount.view _).bind fun _ => KeepsCount.check ?_
    exact keepsCount_modifyDebugger (fun _ => rfl) fun _ => rfl

theorem numbers_classifyTrap (tid : Pid) : Numbers (classifyTrap tid) := by
  refine Numbers.bind (keepsCount_getRegisters _) fun regs => Numbers.bind (KeepsCount.view _)
    fun _ => Numbers.ite ?_ (numbers_report .trap sigtrap tid fun _ => rfl)
  exact Numbers.bind (keepsCount_prepareBreakpointHit _ _ _) fun _ =>
    numbers_report .breakpoint sigtrap tid fun _ => rfl

/-- A watchpoint stop is numbered but not yet recorded. -/
theorem counted_classifyWatchpointStop (tid : Pid) {s : Session} (h : s.Counted n k) :
    wp (classifyWatchpointStop tid)
      ⟨fun r t => t.Counted n k ∧ ∀ info, r = some info →
          n < info.sequence ∧ info.sequence ≤ t.sequence,
        fun _ t => t.Counted n k, fun _ _ => True⟩ s := by
  simp only [classifyWatchpointStop, wp_bind, wp_view]
  cases s.dbg.ownedWatchpoint tid with
  | none => exact ⟨h, by simp⟩
  | some owned =>
    simp only [wp_bind]
    refine wp_mono (keepsCount_getDebugRegister tid 6 n k s h) (fun dr6 t ht => ?_)
      (fun _ _ ht => ht) fun _ _ _ => trivial
    simp only [wp_ite, wp_pure, wp_bind]
    split
    · exact ⟨ht, by simp⟩
    · refine wp_mono (keepsCount_setDebugRegister tid 6 _ n k t ht) (fun _ u hu => ?_)
        (fun _ _ hu => hu) fun _ _ _ => trivial
      refine ⟨hu.recount (Nat.le_succ _) rfl rfl rfl, fun info heq => ?_⟩
      cases heq
      exact ⟨Nat.lt_succ_of_le hu.1, le_rfl⟩

theorem numbers_classifySignalStop (expectedSingleStep : Bool) (event : WaitEvent) :
    Numbers (classifySignalStop expectedSingleStep event) := by
  refine Numbers.bind (KeepsCount.view _) fun starts => Numbers.ite ?_ (Numbers.ite ?_ ?_)
  · refine Numbers.bind (keepsCount_modifyDebugger (fun _ => rfl) fun _ => rfl) fun _ => ?_
    exact numbers_report .threadCreated event.value event.tid fun _ => rfl
  · refine Numbers.bind (keepsCount_modifyDebugger (fun _ => rfl) fun _ => rfl) fun _ => ?_
    exact numbers_report .signal event.value event.tid (f := id) fun _ => rfl
  · intro n k s h
    rw [wp_bind]
    refine wp_mono (counted_classifyWatchpointStop event.tid h) (fun r t ht => ?_)
      (fun _ _ ht => ht) fun _ _ _ => trivial
    cases r with
    | none =>
      exact Numbers.ite (numbers_report .singleStep sigtrap event.tid (f := id) fun _ => rfl)
        (numbers_classifyTrap event.tid) n k t ht.1
    | some info =>
      obtain ⟨hnew, hold⟩ := ht.2 info rfl
      exact ⟨⟨ht.1.1, ht.1.2.1, hold, ht.1.2.2.2⟩, hnew, rfl⟩

theorem numbers_classifyEvent (expectedSingleStep : Bool) (event : WaitEvent) {s : Session}
    (h : s.Counted n k) :
    wp (classifyEvent tracees expectedSingleStep event) (numberingIf n k) s := by
  unfold classifyEvent
  cases event.kind with
  | exited => exact numbers_classifyEnded event _ _ _ h
  | signaled => exact numbers_classifyEnded event _ _ _ h
  | stopped =>
    cases event.ptraceEvent with
    | exec => exact numberingIf_some (numbers_classifyExec _) h
    | vfork => exact numberingIf_some (numbers_classifyVfork _) h
    | vforkDone => exact h
    | fork => exact numberingIf_some (numbers_classifyFork _) h
    | clone =>
      simp only [wp_bind, wp_pure]
      exact wp_mono (keepsCount_classifyClone event n k s h) (fun _ t ht => ⟨ht, by simp⟩)
        (fun _ _ ht => ht) fun _ _ _ => trivial
    | none => exact numberingIf_some (numbers_classifySignalStop _ _) h
    | other => exact numberingIf_some (numbers_classifySignalStop _ _) h

/-- The loop waits before it does anything, so that every stop comes after a report. -/
theorem waited_waitLoop {expectedSingleStep : Bool} (fuel : Nat) {s : Session}
    (h : s.Counted n k) : wp (waitLoop tracees expectedSingleStep fuel) (waited n k s) s := by
  induction fuel generalizing s k with
  | zero => trivial
  | succ fuel ih =>
    simp only [waitLoop, waitPass, wp_bind]
    refine wp_waitActiveProcess (fun e => ⟨h, .inr (Session.Standing.refl s)⟩) ?_
    refine wp_mono (waited_waitFor h) (fun event t ht => ?_) (fun _ _ ht => ht)
      fun _ _ _ => trivial
    refine wp_mono (numbers_classifyEvent expectedSingleStep event ht) (fun r u hu => ?_)
      (fun _ u hu => ⟨hu.before, .inl hu.2.1⟩) fun _ _ _ => trivial
    cases r with
    | some info => exact ⟨hu.1, hu.2 info rfl⟩
    | none =>
      exact wp_mono (ih hu.1) (fun _ _ hv => ⟨hv.1.before, hv.2⟩)
        (fun _ v hv => ⟨hv.1.before, .inl hv.1.2.1⟩) fun _ _ _ => trivial

/-! ## Resuming -/

theorem Session.standing_resumed (s : Session) (kind : ResumeKind) (tid : Pid) (signal : Nat)
    (signals : ExtTreeMap Pid Nat) (faults : List (Option Nat)) :
    s.Standing (s.resumed kind tid signal signals faults) :=
  ⟨rfl, rfl, rfl, Process.markRunning_pid, rfl, rfl⟩

/-- A wait made once a task has been resumed. -/
theorem waited_resumed {expectedSingleStep : Bool} {s u : Session} (h : u.Counted n k)
    (hstand : s.Standing u) :
    wp (waitAndClassify tracees expectedSingleStep) (waited n k s) u :=
  wp_mono (waited_waitLoop _ h) (fun _ _ ht => ht)
    (fun _ _ ht => ⟨ht.1, ht.2.imp_right hstand.trans⟩) fun _ _ _ => trivial

theorem waited_resumeAndWait {kind : ResumeKind} {policy : SignalPolicy} {s : Session}
    (h : s.Counted n k) : wp (resumeAndWait tracees kind policy) (waited n k s) s :=
  wp_resumeAndWait (fun _ _ => ⟨h, .inr ⟨rfl, rfl, rfl, rfl, rfl, rfl⟩⟩)
    fun _ _ _ _ _ => waited_resumed h (s.standing_resumed _ _ _ _ _)

theorem numbering_finishDisplacedStep {pending : PendingBreakpointStep} {exposeSingleStep : Bool}
    {info : StopInfo} {s : Session} (h : s.Counted n k) (hinfo : s.NewStop n info) :
    wp (finishDisplacedStep pending exposeSingleStep info) (numbering n k) s := by
  have settle : ∀ t : Session, t.Counted n k → t.dbg.stopInfo = s.dbg.stopInfo →
      (numbering n k).returned info { t with dbg := { t.dbg with
        pendingBreakpointStep := none
        stopInfo := if exposeSingleStep ∧ info.reason = .singleStep then info
          else t.dbg.stopInfo } } := by
    intro t ht hstop
    have hseq : (if exposeSingleStep = true ∧ info.reason = .singleStep then info
        else t.dbg.stopInfo).sequence = info.sequence := by
      split
      · rfl
      · rw [hstop]
        exact hinfo.2
    refine ⟨⟨ht.1, ht.2.1, ?_, ht.2.2.2⟩, hinfo.1, hseq⟩
    have := ht.2.2.1
    rw [hstop, hinfo.2] at this
    exact hseq.le.trans this
  have through : ∀ r, wp (reinsertThrough pending.address r >>= fun _ => modifyDebugger fun d =>
      { d with
        pendingBreakpointStep := none
        stopInfo := if exposeSingleStep ∧ info.reason = .singleStep then info else d.stopInfo })
      ⟨fun _ => (numbering n k).returned info, (numbering n k).raised,
        (numbering n k).blocked⟩ s := by
    intro r
    cases r with
    | none => exact settle s h rfl
    | some tid =>
      simp only [reinsertThrough, wp_bind, wp_when, wp_modifyDebugger]
      split
      · refine wp_reinsertBreakpoint (fun _ => settle s h rfl) (fun bp faults _ _ => ?_)
          (fun faults e _ => h)
        exact settle { s.poke tid pending.address int3 with
          faults, dbg := s.dbg.setInstalled pending.address true } h rfl
      · exact settle s h rfl
  simp only [finishDisplacedStep, reinsertTid, wp_bind, wp_view, wp_ite] at through ⊢
  split
  · exact through (some pending.tid)
  · split
    · exact wp_stoppedTid (fun _ _ _ => through _) fun _ _ => h
    · exact through none

theorem waited_stepOver {pending : PendingBreakpointStep} {exposeSingleStep : Bool} {s : Session}
    (h : s.Counted n k) :
    wp (stepOverPendingBreakpoint tracees pending exposeSingleStep) (waited n k s) s := by
  refine wp_stepOverPendingBreakpoint
    (fun _ _ => ⟨h, .inr ⟨rfl, rfl, rfl, rfl, rfl, rfl⟩⟩) fun faults => ?_
  refine wp_mono (waited_resumed h (s.standing_resumed .step pending.tid 0 _ faults)) ?_
    (fun _ _ ht => ht) fun _ _ _ => trivial
  intro info t ht
  dsimp only
  split
  · exact ht
  · exact wp_mono (numbering_finishDisplacedStep ht.1 ht.2) (fun _ _ hu => hu)
      (fun _ _ hu => ⟨hu.before, .inl hu.2.1⟩) fun _ _ _ => trivial

theorem waited_continueExecution {policy : SignalPolicy} {s : Session} (h : s.Counted n k) :
    wp (continueExecution tracees policy) (waited n k s) s := by
  refine wp_continueExecution (fun _ => ⟨h, .inr (Session.Standing.refl s)⟩)
    (fun _ => waited_resumeAndWait h) fun pending _ _ _ _ => ?_
  refine wp_mono (waited_stepOver h) (fun info t ht => ?_) (fun _ _ ht => ht) fun _ _ _ => trivial
  dsimp only
  split
  · exact ht
  · exact wp_mono (waited_resumeAndWait ht.1) (fun _ _ hu => ⟨hu.1.before, hu.2⟩)
      (fun _ _ hu => ⟨hu.1.before, .inl hu.1.2.1⟩) fun _ _ _ => trivial

theorem waited_singleStep {policy : SignalPolicy} {s : Session} (h : s.Counted n k) :
    wp (singleStep tracees policy) (waited n k s) s :=
  wp_singleStep (fun _ => ⟨h, .inr (Session.Standing.refl s)⟩) (fun _ => waited_resumeAndWait h)
    fun _ _ _ _ _ => waited_stepOver h

/-! ## Operations -/

theorem keepsCount_writeDebugSlot (tid : Pid) (disabledDr7 dr0 dr6 dr7 : Word) :
    KeepsCount (writeDebugSlot tid disabledDr7 dr0 dr6 dr7) :=
  (keepsCount_setDebugRegister _ _ _).bind fun _ => (keepsCount_setDebugRegister _ _ _).bind
    fun _ => (keepsCount_setDebugRegister _ _ _).bind fun _ => keepsCount_setDebugRegister _ _ _

theorem keepsCount_addBreakpoint (address : Addr) : KeepsCount (addBreakpoint address) :=
  fun _ _ _ h => wp_addBreakpoint (fun _ _ _ _ _ _ _ _ => h) fun _ _ => h

theorem Session.Counted.eraseBreakpoint {s t : Session} (h : s.Counted n k) {id : Nat}
    {address : Addr} (hsequence : t.sequence = s.sequence) (hreports : t.reports = s.reports)
    (hdbg : t.dbg = (s.dbg.clearPendingStep address).eraseBreakpoint id address) :
    t.Counted n k := by
  unfold Debugger.clearPendingStep at hdbg
  refine h.recount hsequence.ge hreports ?_ ?_ <;> rw [hdbg] <;> split <;> rfl

theorem keepsCount_removeBreakpoint (id : Nat) : KeepsCount (removeBreakpoint id) := by
  intro n k s h
  exact wp_removeBreakpoint (fun _ => h) (fun _ _ _ _ _ _ _ _ => h.eraseBreakpoint rfl rfl rfl)
    (fun _ _ _ => h.eraseBreakpoint rfl rfl rfl) fun _ _ => h

theorem keepsCount_addWriteWatchpoint (address : Addr) (length : Nat) :
    KeepsCount (addWriteWatchpoint address length) := by
  refine keepsCount_stoppedTid.bind fun tid => (KeepsCount.view _).bind fun _ =>
    KeepsCount.check ?_
  cases watchpointLengthEncoding length with
  | none => exact KeepsCount.raise _
  | some encoding =>
    refine KeepsCount.check ((keepsCount_getDebugRegister _ _).bind fun dr0 =>
      (keepsCount_getDebugRegister _ _).bind fun dr6 =>
        (keepsCount_getDebugRegister _ _).bind fun dr7 => KeepsCount.check ?_)
    refine (KeepsCount.handle (keepsCount_writeDebugSlot _ _ _ _ _) fun e =>
      (KeepsCount.handle (keepsCount_writeDebugSlot _ _ _ _ _) fun _ => KeepsCount.pure _).bind
        fun _ => KeepsCount.raise e).bind fun _ => (KeepsCount.view _).bind fun id => ?_
    exact KeepsCount.bind (keepsCount_modifyDebugger (fun _ => rfl) fun _ => rfl)
      fun _ => KeepsCount.pure _

theorem keepsCount_removeWatchpoint (id : Nat) : KeepsCount (removeWatchpoint id) :=
  (KeepsCount.view _).bind fun _ => KeepsCount.ite (KeepsCount.pure _)
    ((KeepsCount.view _).bind fun _ => KeepsCount.check
      (keepsCount_restoreWatchpointRegisters.bind fun _ =>
        keepsCount_clearWatchpoint.bind fun _ => KeepsCount.pure _))

theorem keepsCount_writeMemory (address : Addr) (bytes : List Byte) :
    KeepsCount (writeMemory address bytes) := by
  refine keepsCount_stoppedTid.bind fun _ => KeepsCount.check (KeepsCount.check (KeepsCount.check
    ((KeepsCount.view _).bind fun _ => KeepsCount.check ((KeepsCount.view _).bind fun _ =>
      KeepsCount.check ?_))))
  refine KeepsCount.bind (KeepsCount.forEach (fun cell => ?_) _) fun _ =>
    KeepsCount.forEach (fun cell => ?_) _
  · exact (KeepsCount.view _).bind fun _ =>
      KeepsCount.ite (keepsCount_writeByte _ _ _) (KeepsCount.pure _)
  · exact keepsCount_modifyDebugger (fun _ => rfl) fun _ => rfl

theorem keepsCount_selectThread (tid : Pid) : KeepsCount (selectThread tid) :=
  fun _ _ _ h => wp_selectThread (fun _ => h) fun _ => h

theorem keepsCount_selectProcess (pid : Pid) : KeepsCount (selectProcess pid) := by
  intro n k s h
  refine wp_selectProcess (fun _ => h) (fun domain hdomain _ _ _ => ?_)
    (fun domain e hdomain _ => ?_) fun _ => h
  · refine ⟨Nat.le_succ_of_le h.1, h.2.1, le_rfl, fun q other hother => ?_⟩
    simp only [Debugger.swapped, Debugger.activate, ExtTreeMap.getElem?_insert] at hother
    split at hother
    · cases hother
      exact Nat.le_succ_of_le h.2.2.1
    · exact (h.erase (d := { s.dbg.activate domain with
        retainedProcesses := s.dbg.retainedProcesses.erase pid })
        (Nat.le_succ_of_le (h.2.2.2 pid domain hdomain)) rfl).2.2.2 q other hother
  · have hdomains := h.2.2.2
    refine ⟨h.1, h.2.1, hdomains pid domain hdomain, fun q other hother => ?_⟩
    rw [ExtTreeMap.getElem?_erase] at hother
    split at hother
    · cases hother
    · exact hdomains q other hother

theorem keepsCount_setForkFollowPolicy (policy : ForkFollowPolicy) :
    KeepsCount (setForkFollowPolicy policy) :=
  fun _ _ _ h => wp_setForkFollowPolicy (fun _ => h) fun _ => h

theorem keepsCount_restoreAllBreakpoints : KeepsCount restoreAllBreakpoints := by
  refine keepsCount_stoppedTid.bind fun _ => (KeepsCount.view _).bind fun _ => ?_
  refine KeepsCount.bind (KeepsCount.forEach (fun entry => ?_) _) fun _ =>
    keepsCount_modifyDebugger (fun _ => rfl) fun _ => rfl
  refine KeepsCount.ite ((keepsCount_writeByte _ _ _).bind fun _ => ?_) (KeepsCount.pure _)
  exact keepsCount_modifyDebugger (fun _ => rfl) fun _ => rfl

theorem keepsCount_detachTask (tid : Pid) (signal : Nat) (first : Option Exception) :
    KeepsCount (detachTask tid signal first) := by
  refine KeepsCount.handle ((keepsCount_detach _ _).bind fun _ =>
    (keepsCount_modifyProcess _).bind fun _ => KeepsCount.pure _) fun e => ?_
  cases e with
  | ptraceError operation errno =>
    exact KeepsCount.ite ((keepsCount_modifyProcess _).bind fun _ => KeepsCount.pure _)
      (KeepsCount.pure _)
  | invalidArgument what => exact KeepsCount.pure _
  | logicError what => exact KeepsCount.pure _
  | runtimeError what => exact KeepsCount.pure _

theorem keepsCount_detachTasks (signalTid : Pid) (signal : Nat) (tids : List Pid) :
    ∀ first, KeepsCount (detachTasks signalTid signal tids first) := by
  induction tids with
  | nil => exact fun first => KeepsCount.pure first
  | cons tid rest ih => exact fun first => (keepsCount_detachTask _ _ _).bind ih

theorem keepsCount_detachProcess (signal : Nat) : KeepsCount (detachProcess signal) := by
  refine (KeepsCount.view _).bind fun _ => KeepsCount.check (KeepsCount.check (KeepsCount.check
    ((keepsCount_detachTasks _ _ _ _).bind fun first =>
      (keepsCount_modifyProcess _).bind fun _ => ?_)))
  cases first with
  | some e => exact KeepsCount.raise e
  | none => exact KeepsCount.pure _

theorem keepsCount_detachOperation (policy : SignalPolicy) : KeepsCount (detach policy) := by
  refine (KeepsCount.view _).bind fun _ => KeepsCount.check (KeepsCount.check (KeepsCount.check
    (keepsCount_stoppedTid.bind fun _ => (KeepsCount.view _).bind fun _ =>
      keepsCount_restoreAllBreakpoints.bind fun _ =>
        keepsCount_restoreWatchpointRegisters.bind fun _ =>
          (keepsCount_detachProcess _).bind fun _ => ?_)))
  exact keepsCount_modifyDebugger (fun _ => rfl) fun _ => rfl

theorem KeepsCount.map {β : Type} {x : Act α} (hx : KeepsCount x) (f : α → β) :
    KeepsCount (f <$> x) := by
  intro n k s h
  rw [wp_map]
  exact hx n k s h

theorem KeepsCount.of_waited {x : Act StopInfo}
    (hx : ∀ n k s, s.Counted n k → wp x (waited n k s) s) : KeepsCount x :=
  fun n k s h => wp_mono (hx n k s h) (fun _ _ ht => ht.1.before) (fun _ _ ht => ht.1)
    fun _ _ _ => trivial

/-- No operation loses count. -/
theorem keepsCount_run (op : Operation) : KeepsCount (op.run tracees) := by
  cases op with
  | addBreakpoint address => exact (keepsCount_addBreakpoint address).map _
  | removeBreakpoint id => exact (keepsCount_removeBreakpoint id).map _
  | addWriteWatchpoint address length => exact (keepsCount_addWriteWatchpoint _ _).map _
  | removeWatchpoint id => exact (keepsCount_removeWatchpoint id).map _
  | writeMemory address bytes => exact (keepsCount_writeMemory address bytes).map _
  | continueExecution policy =>
    exact (KeepsCount.of_waited fun _ _ _ => waited_continueExecution).map _
  | singleStep policy => exact (KeepsCount.of_waited fun _ _ _ => waited_singleStep).map _
  | selectThread tid => exact (keepsCount_selectThread tid).map _
  | selectProcess pid => exact (keepsCount_selectProcess pid).map _
  | setForkFollowPolicy policy => exact (keepsCount_setForkFollowPolicy policy).map _
  | detach policy => exact (keepsCount_detachOperation policy).map _

end Commands

end MiniDebugger
