import MiniDebugger.Debugger.Entries
import MiniDebugger.Sessions.Attribution

/-!
# Watchpoints over whole runs

A process has a watchpoint exactly when the registers it displaced are kept, and both are what
`add_write_watchpoint` accepted, also after they have moved to a child or to a retained domain. No id
is given out twice. A stop is reported as a watchpoint hit exactly if the report it comes from is a trap
of the thread that owns the watchpoint, with the hit in its debug status register.
-/

namespace MiniDebugger

open Command
open Function (update)
open Relation (ReflTransGen)

namespace Holding

/-- The watchpoint of a process is in order; `next` has not been given out. -/
structure Watched (next : Nat) (h : Holding) : Prop where
  saved : h.watchpoint.isSome = h.snapshot.isSome
  armable : ∀ w snapshot, h.watchpoint = some w → h.snapshot = some snapshot → w.Armable snapshot
  below : ∀ w, h.watchpoint = some w → w.id < next

variable {h h' : Holding} {next : Nat}

theorem watched_none (hw : h.watchpoint = none) (hs : h.snapshot = none) : h.Watched next := by
  refine ⟨by rw [hw, hs]; rfl, fun w snapshot hw' => ?_, fun w hw' => ?_⟩ <;>
    · rw [hw] at hw'
      cases hw'

theorem Watched.congr (hh : h.Watched next) (hw : h'.watchpoint = h.watchpoint)
    (hs : h'.snapshot = h.snapshot) : h'.Watched next := by
  refine ⟨by rw [hw, hs]; exact hh.saved, fun w snapshot hw' hs' => ?_, fun w hw' => ?_⟩
  · exact hh.armable w snapshot (hw ▸ hw') (hs ▸ hs')
  · exact hh.below w (hw ▸ hw')

theorem Watched.mono (hh : h.Watched next) : h.Watched (next + 1) :=
  ⟨hh.saved, hh.armable, fun w hw => (hh.below w hw).trans (Nat.lt_succ_self _)⟩

/-- The saved registers move to another task. -/
theorem Watched.move (hh : h.Watched next) {tid : Pid} (hw : h'.watchpoint = h.watchpoint)
    (hs : h'.snapshot = h.snapshot.map ({ · with tid })) : h'.Watched next := by
  refine ⟨by rw [hw, hs, Option.isSome_map]; exact hh.saved, fun w snapshot hw' hs' => ?_,
    fun w hw' => hh.below w (hw ▸ hw')⟩
  rw [hs, Option.map_eq_some_iff] at hs'
  obtain ⟨old, hold, rfl⟩ := hs'
  have := hh.armable w old (hw ▸ hw') hold
  exact ⟨this.length, this.aligned, this.free⟩

theorem Watched.inherited (hh : h.Watched next) {child : Pid} : (h.inherited child).Watched next := by
  unfold Holding.inherited
  split
  · exact hh.move rfl rfl
  · exact watched_none rfl rfl

end Holding

namespace Holdings

structure Watched (next : Nat) (H : Holdings) : Prop where
  active : H.active.Watched next
  retained : ∀ pid h, H.retained pid = some h → h.Watched next

theorem Watched.turn {next : Nat} {H K : Holdings} (hH : H.Watched next) (hturn : Turn H K) :
    K.Watched next := by
  cases hturn with
  | marked address installed => exact ⟨hH.active.congr rfl rfl, hH.retained⟩
  | unwatched => exact ⟨Holding.watched_none rfl rfl, hH.retained⟩
  | replaced => exact ⟨Holding.watched_none rfl rfl, hH.retained⟩
  | promoted survivor domain hdomain =>
    exact ⟨hH.retained survivor domain hdomain, fun pid other hother =>
      hH.retained pid other (of_update_none hother).2⟩
  | forked child hnew =>
    refine ⟨hH.active, fun pid other hother => ?_⟩
    obtain ⟨-, rfl⟩ | ⟨-, hother⟩ := of_update_some hother
    · exact hH.active.inherited
    · exact hH.retained pid other hother
  | handed child => exact ⟨hH.active.move rfl rfl, hH.retained⟩

end Holdings

namespace Ledger

def Watched (L : Ledger) : Prop := L.holdings.Watched L.nextWatchpoint

theorem Watched.change {L M : Ledger} (hL : L.Watched) (hchange : Change L M) : M.Watched := by
  cases hchange with
  | turned H hturn => exact Holdings.Watched.turn hL hturn
  | inserted address original hnew => exact ⟨hL.active.congr rfl rfl, hL.retained⟩
  | erased id address hid => exact ⟨hL.active.congr rfl rfl, hL.retained⟩
  | rewritten table hsame => exact ⟨hL.active.congr rfl rfl, hL.retained⟩
  | armed address length snapshot hnone harmable =>
    refine ⟨⟨rfl, ?_, ?_⟩, fun pid h hh => (hL.retained pid h hh).mono⟩
    · rintro _ _ ⟨⟩ ⟨⟩
      exact harmable
    · rintro _ ⟨⟩
      exact Nat.lt_succ_self _
  | swapped old new domain hdomain =>
    refine ⟨hL.retained new domain hdomain, fun pid other hother => ?_⟩
    obtain ⟨-, rfl⟩ | ⟨-, hother⟩ := Holdings.of_update_some hother
    · exact hL.active
    · exact hL.retained pid other (Holdings.of_update_none hother).2

theorem watched_blank : Ledger.blank.Watched :=
  ⟨Holding.watched_none rfl rfl, fun pid h hh => by simp [Ledger.blank] at hh⟩

theorem Watched.changes {L M : Ledger} (hL : L.Watched) (h : ReflTransGen Change L M) :
    M.Watched := by
  induction h with
  | refl => exact hL
  | tail _ hchange ih => exact ih.change hchange

/-- Ids are given out upwards. -/
theorem Change.nextWatchpoint_le {L M : Ledger} (h : Change L M) :
    L.nextWatchpoint ≤ M.nextWatchpoint := by
  cases h <;> simp

theorem nextWatchpoint_le {L M : Ledger} (h : ReflTransGen Change L M) :
    L.nextWatchpoint ≤ M.nextWatchpoint := by
  induction h with
  | refl => exact le_rfl
  | tail _ hchange ih => exact ih.trans hchange.nextWatchpoint_le

end Ledger

/-! ## Ids -/

def Result.watchpoints : Result → List Nat
  | .watchpoint id => [id]
  | _ => []

/-- The watchpoint ids given out in a run, latest first. -/
def watchpointIds (log : List Result) : List Nat := log.flatMap Result.watchpoints

/-- Only `add_write_watchpoint` gives out an id, and it is the next one. -/
theorem wp_run_watchpoints {tracees : Tracees} {s : Session} (op : Operation) :
    wp (op.run tracees) ⟨fun r t => ∀ id ∈ r.watchpoints,
      id = s.dbg.nextWatchpointId ∧ t.dbg.nextWatchpointId = id + 1,
      fun _ _ => True, fun _ _ => True⟩ s := by
  cases op with
  | addWriteWatchpoint address length =>
    simp only [Operation.run, wp_map]
    refine wp_addWriteWatchpoint (fun t snapshot _ _ _ => ?_) fun _ _ _ => trivial
    simp [Result.watchpoints, Debugger.setWatchpoint]
  | _ =>
    simp only [Operation.run, wp_map, Result.watchpoints, List.not_mem_nil, false_implies,
      implies_true]
    exact wp_trivial _ _

/-- In every session of every run the watchpoint of each process is in order, and the ids given out
differ. -/
theorem watchpoints_in_order {tracees : Tracees} {allowed : Operation → Reply → Prop}
    {log : List Result} {s : Session} (h : Run tracees allowed log s) :
    s.dbg.holdings.Watched s.dbg.nextWatchpointId ∧ (watchpointIds log).Nodup ∧
      ∀ id ∈ watchpointIds log, id < s.dbg.nextWatchpointId := by
  refine ⟨Ledger.watched_blank.changes h.changed, ?_⟩
  refine h.invariant (I := fun log s => (watchpointIds log).Nodup ∧
    ∀ id ∈ watchpointIds log, id < s.dbg.nextWatchpointId) (fun _ _ => by simp [watchpointIds]) ?_
  intro log s op script faults ⟨hnodup, hbelow⟩
  have hchanges : wp (op.run tracees) (changing s.dbg.ledger) (s.facing script faults) :=
    changing_run op .refl
  refine wp_mono (wp_and hchanges (wp_run_watchpoints op)) (fun r t ht _ => ?_) (fun e t ht _ => ?_)
    fun _ _ _ => trivial
  · obtain ⟨ht, hids⟩ := ht
    have hle : s.dbg.nextWatchpointId ≤ t.dbg.nextWatchpointId := Ledger.nextWatchpoint_le ht
    refine ⟨?_, fun id hid => ?_⟩
    · have hnew : ∀ id ∈ r.watchpoints, id ∉ watchpointIds log := fun id hid hold =>
        absurd (hbelow id hold) ((hids id hid).1 ▸ lt_irrefl _)
      have hself : r.watchpoints.Nodup := by cases r <;> simp [Result.watchpoints]
      exact hself.append hnodup hnew
    · obtain hid | hid := List.mem_append.mp hid
      · exact (hids id hid).2 ▸ Nat.lt_succ_self id
      · exact (hbelow id hid).trans_le hle
  · exact ⟨hnodup, fun id hid => (hbelow id hid).trans_le (Ledger.nextWatchpoint_le ht.1)⟩

/-- A launched process with a watchpoint. -/
def Session.watching (tracees : Tracees) : Session :=
  (Session.launch 10 (fun _ => some 0x90) {}).after tracees (.addWriteWatchpoint 0x2000 8) []

theorem watchpoints_in_order_launch :
    (Session.watching anyTracees).dbg.holdings.Watched
        (Session.watching anyTracees).dbg.nextWatchpointId ∧
      (Session.watching anyTracees).dbg.watchpoint = some ⟨1, 0x2000, 8⟩ := by
  have h : Run anyTracees (fun _ _ => True) [.watchpoint 1] (Session.watching anyTracees) :=
    (Run.start (started_launch (by decide) _ _)).after _ _ (by decide +kernel) trivial
  exact ⟨(watchpoints_in_order h).1, by decide +kernel⟩

/-! ## Stops -/

/-- A trap of the thread that owns the watchpoint, with the hit in its debug status register; the
first stop of a new thread is no trap. -/
structure Debugger.WatchpointHit (dbg : Debugger) (d : Delivery) : Prop where
  trap : d.status.isTrap = true
  fired : watchpointFired dbg d = true
  started : d.tid ∉ dbg.pendingThreadStarts

/-- The stop names the watchpoint, and the hit has been taken out of the status register. -/
structure Session.NamesWatchpoint (t : Session) (info : StopInfo) (d : Delivery) : Prop where
  tid : info.tid = d.tid
  watchpoint : ∃ w, t.dbg.watchpoint = some w ∧ info.watchpointId = some w.id ∧
    info.watchpointAddress = some w.address
  owner : ∃ snapshot, t.dbg.watchpointRegisterSnapshot = some snapshot ∧ snapshot.tid = d.tid
  cleared : t.world.debug d.tid 6 = d.debug 6 &&& ~~~dr6Breakpoint0

/-- The stop says whether the last report was a watchpoint hit. -/
def Session.TellsWatchpoint (t : Session) (info : StopInfo) : Prop :=
  ∃ dbg world d rest, t.history = .takes dbg world d :: rest ∧
    (info.reason = .watchpoint ↔ dbg.WatchpointHit d) ∧
    (info.reason = .watchpoint → t.NamesWatchpoint info d)

def telling : Post WaitCall Exception Session StopInfo where
  returned info t := t.TellsWatchpoint info
  raised _ _ := True
  blocked _ _ := True

section Stops

variable {tracees : Tracees} {s t u : Session} {dbg : Debugger} {world : World} {d : Delivery}
  {old : List WaitRecord} {info : StopInfo}

theorem Debugger.not_watchpointHit (h : d.status.isTrap = false) :
    ¬dbg.WatchpointHit d := fun hit => by
  have := hit.trap
  rw [h] at this
  cases this

/-- A stop for another reason, after a report that is no watchpoint hit. -/
theorem tells_other (hhistory : t.history = .takes dbg world d :: old)
    (hreason : info.reason ≠ .watchpoint) (hhit : ¬dbg.WatchpointHit d) :
    t.TellsWatchpoint info :=
  ⟨dbg, world, d, _, hhistory, by simp [hreason, hhit], fun h => absurd h hreason⟩

/-- What has no part in what a stop tells. -/
theorem Session.TellsWatchpoint.of_eq (h : t.TellsWatchpoint info) (hhistory : u.history = t.history)
    (hwatchpoint : u.dbg.watchpoint = t.dbg.watchpoint)
    (howner : u.dbg.watchpointRegisterSnapshot = t.dbg.watchpointRegisterSnapshot)
    (hdebug : u.world.debug = t.world.debug) : u.TellsWatchpoint info := by
  obtain ⟨dbg, world, d, rest, ht, hiff, hnames⟩ := h
  refine ⟨dbg, world, d, rest, hhistory.trans ht, hiff, fun hreason => ?_⟩
  obtain ⟨htid, hw, hs, hcleared⟩ := hnames hreason
  exact ⟨htid, hwatchpoint ▸ hw, howner ▸ hs, hdebug ▸ hcleared⟩

/-- The session in which the report `d` is classified: what the debugger knew when it came has not
changed. -/
structure Session.Classifies (s : Session) (dbg : Debugger) (world : World) (d : Delivery)
    (old : List WaitRecord) : Prop where
  history : s.history = .takes dbg world d :: old
  pending : s.dbg.pendingThreadStarts = dbg.pendingThreadStarts
  watchpoint : s.dbg.watchpoint = dbg.watchpoint
  owner : s.dbg.watchpointRegisterSnapshot = dbg.watchpointRegisterSnapshot

theorem ownedWatchpoint_eq_some {tid : Pid} {watchpoint : Watchpoint}
    {snapshot : DebugRegisterSnapshot} (h : dbg.ownedWatchpoint tid = some (watchpoint, snapshot)) :
    dbg.watchpoint = some watchpoint ∧ dbg.watchpointRegisterSnapshot = some snapshot ∧
      snapshot.tid = tid := by
  unfold Debugger.ownedWatchpoint at h
  split at h
  · rename_i hw hs
    split at h
    · cases h
      exact ⟨hw, hs, ‹_›⟩
    · cases h
  · cases h

theorem telling_classifySignalStop {expectedSingleStep : Bool} {signal : Nat} {event : PtraceEvent}
    (h : s.Classifies dbg world d old) (hst : d.status = .stopped signal event)
    (hevent : event = .none ∨ event = .other) (hdebug : s.world.debug d.tid = d.debug) :
    wp (classifySignalStop expectedSingleStep
      { kind := .stopped, value := signal, tid := d.tid, ptraceEvent := event }) telling s := by
  have htrap : d.status.isTrap = (signal == sigtrap) := by
    rcases hevent with rfl | rfl <;> rw [hst] <;> rfl
  have howned : s.dbg.ownedWatchpoint d.tid = dbg.ownedWatchpoint d.tid := by
    unfold Debugger.ownedWatchpoint
    rw [h.watchpoint, h.owner]
  simp only [classifySignalStop, wp_bind, wp_view, wp_ite]
  split
  · rename_i hnew
    have hnew : d.tid ∈ dbg.pendingThreadStarts := h.pending ▸ (by simpa using hnew)
    exact tells_other h.history (by simp) fun hit => hit.started hnew
  rename_i hold
  have hold : d.tid ∉ dbg.pendingThreadStarts := h.pending ▸ (by simpa using hold)
  split
  · rename_i hsignal
    exact tells_other h.history (by simp)
      (Debugger.not_watchpointHit (by simpa [htrap] using hsignal))
  rename_i hsignal
  have hsignal : signal = sigtrap := not_not.mp hsignal
  -- without a hit the stop is a step, a breakpoint or another trap
  have plain : ∀ u : Session, u.history = s.history → ¬dbg.WatchpointHit d →
      if expectedSingleStep = true then wp (makeStop .singleStep sigtrap d.tid >>= report) telling u
        else wp (classifyTrap d.tid) telling u := by
    intro u hu hhit
    have hu : u.history = _ := hu.trans h.history
    split
    · exact wp_makeStop_report (tells_other hu (by simp [Session.stopInfo]) hhit)
    · refine wp_classifyTrap ?_ ?_ fun _ _ _ _ _ => trivial
      · exact fun bp faults info _ _ _ hreason _ _ => tells_other hu (by simp [hreason]) hhit
      · exact fun faults info _ hreason _ => tells_other hu (by simp [hreason]) hhit
  simp only [classifyWatchpointStop, wp_bind, wp_view]
  rcases hown : s.dbg.ownedWatchpoint d.tid with _ | ⟨watchpoint, snapshot⟩
  · simp only [wp_pure, wp_ite]
    refine plain _ rfl fun hit => ?_
    have := hit.fired
    simp [watchpointFired, ← howned, hown] at this
  simp only [Lowlevel.getDebugRegister, wp_bind]
  refine Lowlevel.wp_attempt (fun faults => ?_) fun _ _ => trivial
  simp only [wp_read, wp_ite, wp_pure, hdebug]
  split
  · rename_i hquiet
    refine plain _ rfl fun hit => ?_
    have := hit.fired
    simp [watchpointFired, ← howned, hown, hquiet] at this
  · rename_i hfired
    simp only [Lowlevel.setDebugRegister, wp_bind]
    refine Lowlevel.wp_attempt (fun faults => ?_) fun _ _ => trivial
    have hhit : dbg.WatchpointHit d :=
      ⟨by rw [htrap, hsignal]; rfl, by simpa [watchpointFired, ← howned, hown] using hfired, hold⟩
    obtain ⟨hw, hs, htid⟩ := ownedWatchpoint_eq_some hown
    refine ⟨dbg, world, d, _, h.history, by simp [hhit], fun _ => ⟨rfl, ?_, ⟨snapshot, hs, htid⟩, ?_⟩⟩
    · exact ⟨watchpoint, hw, rfl, rfl⟩
    · simp

theorem telling_classifyVfork {tid : Pid} : wp (classifyVfork tracees tid) telling s := by
  refine wp_classifyVfork (fun _ _ _ => trivial) (fun _ _ => trivial) ?_
  rintro _ faults requests ⟨_, _, _, _, _, _, rfl, -, -⟩
  refine wp_awaitVforkDone (fun _ => trivial) (fun _ _ _ _ _ _ _ _ => trivial)
    (fun _ _ _ _ _ _ _ _ => trivial) ?_ trivial
  intro d rest signal faults hd _ _ hst
  refine tells_other rfl (by simp) (Debugger.not_watchpointHit ?_)
  rw [hst]
  rfl

theorem telling_classifyEnded {event : WaitEvent}
    {processReason finalReason threadReason : StopReason}
    (hreasons : StopReason.watchpoint ∉ [processReason, finalReason, threadReason])
    (hhistory : s.history = .takes dbg world d :: old) (hhit : ¬dbg.WatchpointHit d) :
    wp (classifyEnded event processReason finalReason threadReason)
      ⟨fun r t => ∀ info, r = some info → t.TellsWatchpoint info, fun _ _ => True,
        fun _ _ => True⟩ s := by
  simp only [List.mem_cons, List.not_mem_nil, or_false, not_or] at hreasons
  obtain ⟨hprocess, hfinal, hthread⟩ := hreasons
  refine wp_classifyEnded (fun _ _ _ _ _ _ => trivial) ?_ ?_ ?_ ?_
  · rintro survivor domain - - - _ ⟨⟩
    exact tells_other hhistory (Ne.symm hprocess) hhit
  · rintro - - _ ⟨⟩
    exact tells_other hhistory (Ne.symm hfinal) hhit
  · rintro - - _ ⟨⟩
  · rintro - - _ ⟨⟩
    exact tells_other hhistory (Ne.symm hthread) hhit

theorem telling_waitPass {expectedSingleStep : Bool} :
    wp (waitPass tracees expectedSingleStep)
      ⟨fun r t => ∀ info, r = some info → t.TellsWatchpoint info, fun _ _ => True,
        fun _ _ => True⟩ s := by
  simp only [waitPass, wp_bind]
  refine wp_waitActiveProcess (fun e => trivial) ?_
  refine wp_waitFor (fun _ => trivial) (fun _ _ _ _ _ => trivial) ?_ ?_ ?_
    (fun _ _ _ _ _ _ _ _ _ => trivial) trivial
  · intro d rest event p hd _ hend hkind _ _
    have hhit : ¬s.dbg.WatchpointHit d := Debugger.not_watchpointHit (by
      rcases hst : d.status with code | signal | ⟨signal, event⟩
      · rfl
      · rfl
      · simp [hst, WaitStatus.isStopped] at hend)
    cases hk : event.kind with
    | stopped => exact absurd hk hkind
    | exited =>
      simp only [classifyEvent, hk]
      exact telling_classifyEnded (by decide) rfl hhit
    | signaled =>
      simp only [classifyEvent, hk]
      exact telling_classifyEnded (by decide) rfl hhit
  · intro d rest signal event hd _ hst hne
    have hp : s.world.possible d = true := hd.possible
    have hplain : event ≠ .none → event ≠ .other → ¬s.dbg.WatchpointHit d := by
      refine fun hnone hother => Debugger.not_watchpointHit ?_
      rw [hst]
      cases event <;> first | rfl | exact absurd rfl hnone | exact absurd rfl hother
    have later : ∀ {x : Act StopInfo} {u : Session}, wp x telling u → wp (some <$> x)
        ⟨fun r t => ∀ info, r = some info → t.TellsWatchpoint info, fun _ _ => True,
          fun _ _ => True⟩ u := by
      intro x u h
      rw [wp_map]
      refine wp_mono h (fun info t ht => ?_) (fun _ _ _ => trivial) fun _ _ _ => trivial
      rintro _ ⟨⟩
      exact ht
    cases event with
    | clone => exact absurd rfl hne
    | exec =>
      refine later (wp_classifyExec (World.pos_of_possible hp) ?_ ?_ (fun _ _ _ _ => trivial)
        fun _ _ _ => trivial)
      · exact (World.deliver_message hst).trans_le (World.exec_leader hp hst).2
      · exact fun faults info sequence path hreason _ =>
          tells_other rfl (by simp [hreason]) (hplain (by decide) (by decide))
    | fork =>
      have forked : ∀ {t : Session} {kind tid parent child retains info},
          t.history = .takes s.dbg s.world d :: .waits (.active s.dbg.waitTarget) s.dbg ::
            s.history → info = processEventInfo kind tid parent child retains info.sequence →
          t.TellsWatchpoint info := by
        intro t kind tid parent child retains info hhistory hinfo
        refine tells_other hhistory ?_ (hplain (by decide) (by decide))
        rw [hinfo]
        simp [processEventInfo]
      refine later (wp_classifyFork (fun _ _ => trivial) ?_ ?_ ?_ (fun _ _ _ _ _ => trivial)
        fun _ _ _ _ _ _ _ _ => trivial)
      · rintro t child childStop inherited info - - - ⟨_, _, _, rfl⟩ - - - hinfo
        exact forked rfl hinfo
      · intro child faults sequence debug memory requests info _ _ _ _ _ hinfo
        exact forked rfl hinfo
      · rintro child t info - - ⟨_, _, _, _, _, _, rfl, -, -⟩ hinfo
        exact forked rfl hinfo
    | vfork => exact later telling_classifyVfork
    | vforkDone => trivial
    | none =>
      refine later (telling_classifySignalStop ⟨rfl, rfl, rfl, rfl⟩ hst (.inl rfl) ?_)
      simp [Session.deliver, Session.waiting, Session.withProcess, World.deliver, hst, World.stop]
    | other =>
      refine later (telling_classifySignalStop ⟨rfl, rfl, rfl, rfl⟩ hst (.inr rfl) ?_)
      simp [Session.deliver, Session.waiting, Session.withProcess, World.deliver, hst, World.stop]
  · intro d rest signal faults hd _ hst _ _
    simp only [classifyEvent, wp_bind]
    refine wp_classifyClone rfl (fun _ => ?_) fun _ _ => trivial
    rintro _ ⟨⟩

theorem telling_waitAndClassify {expectedSingleStep : Bool} :
    wp (waitAndClassify tracees expectedSingleStep) telling s := by
  refine wp_waitAndClassify (I := fun _ => True) (fun u _ => ?_) (fun _ _ => trivial) trivial
  refine wp_mono telling_waitPass (fun r t ht => ?_) (fun _ _ _ => trivial) fun _ _ _ => trivial
  cases r with
  | none => trivial
  | some info => exact ht info rfl

theorem telling_resumeAndWait {kind : ResumeKind} {policy : SignalPolicy} :
    wp (resumeAndWait tracees kind policy) telling s :=
  wp_resumeAndWait (fun _ _ => trivial) fun _ _ _ _ _ => telling_waitAndClassify

theorem telling_stepOver {pending : PendingBreakpointStep} {exposeSingleStep : Bool} :
    wp (stepOverPendingBreakpoint tracees pending exposeSingleStep) telling s := by
  refine wp_stepOverPendingBreakpoint (fun _ _ => trivial) fun faults => ?_
  refine wp_mono telling_waitAndClassify (fun info t ht => ?_) (fun _ _ _ => trivial)
    fun _ _ _ => trivial
  dsimp only
  split
  · exact ht
  · exact wp_finishDisplacedStep (fun _ _ _ _ _ _ _ _ => ht.of_eq rfl rfl rfl rfl)
      (fun _ _ => ht.of_eq rfl rfl rfl rfl) fun _ _ _ => trivial

/-- Whatever operation reports a stop, in whatever session: it is reported as a watchpoint hit
exactly if the last report was one, and then it names the watchpoint of the thread that hit it. -/
theorem watchpoint_stops (op : Operation) :
    wp (op.run tracees) ⟨fun r t => ∀ info, r = .stop info → t.TellsWatchpoint info,
      fun _ _ => True, fun _ _ => True⟩ s := by
  have told : ∀ {x : Act StopInfo}, wp x telling s → wp (Result.stop <$> x)
      ⟨fun r t => ∀ info, r = .stop info → t.TellsWatchpoint info, fun _ _ => True,
        fun _ _ => True⟩ s := by
    intro x h
    rw [wp_map]
    refine wp_mono h (fun info t ht => ?_) (fun _ _ _ => trivial) fun _ _ _ => trivial
    rintro _ ⟨⟩
    exact ht
  cases op with
  | continueExecution policy =>
    refine told (wp_continueExecution (fun _ => trivial) (fun _ => telling_resumeAndWait) ?_)
    intro pending _ _ _ _
    refine wp_mono telling_stepOver (fun info t ht => ?_) (fun _ _ _ => trivial)
      fun _ _ _ => trivial
    dsimp only
    split
    · exact ht
    · exact telling_resumeAndWait
  | singleStep policy =>
    exact told (wp_singleStep (fun _ => trivial) (fun _ => telling_resumeAndWait)
      fun _ _ _ _ _ => telling_stepOver)
  | _ =>
    simp only [Operation.run, wp_map, reduceCtorEq, false_implies, implies_true]
    exact wp_trivial _ _

end Stops

end MiniDebugger
