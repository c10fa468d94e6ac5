import MiniDebugger.Debugger.Served

/-!
# What the fork branches do

For each branch of `Fork.lean`, the states in which it can end. A branch that gives up leaves an
`Aftermath`: the debugger's own state is untouched.
-/

namespace MiniDebugger

open Command
open Function (update update_of_ne)

/-- What is left of a fork the debugger did not go along with: the child may be gone from the
traced tasks, and at most the memory of `victim` was written to. -/
def Session.Aftermath (s : Session) (child victim : Pid) (t : Session) : Prop :=
  ∃ faults sequence debug tasks requests memory,
    t = { s with
      faults, sequence
      world := { s.world with debug, tasks, requests, memory } } ∧
    (tasks = s.world.tasks ∨ tasks = s.world.tasks.erase child) ∧
    ∀ p, p ≠ victim → memory p = s.world.memory p

theorem Session.Alike.aftermath {s t : Session} (h : s.Alike t) (child victim : Pid) :
    s.Aftermath child victim t := by
  obtain ⟨faults, sequence, debug, rfl⟩ := h
  exact ⟨faults, sequence, debug, _, _, _, rfl, .inl rfl, fun _ _ => rfl⟩

section Rules

variable {s t : Session} {tid parent child : Pid}

theorem quiet_copyDebugSlot (parent child : Pid) : Quiet (copyDebugSlot parent child) :=
  (Lowlevel.quiet_getDebugRegister _ _).bind fun _ =>
    (Lowlevel.quiet_getDebugRegister _ _).bind fun _ =>
      (Lowlevel.quiet_getDebugRegister _ _).bind fun _ => quiet_replaceDebugSlot _ _ _ _

theorem quiet_disarmChild (tid child : Pid) : Quiet (disarmChild tid child) := by
  intro s
  simp only [disarmChild, wp_bind, wp_view]
  rcases s.dbg.watchpointRegisterSnapshot with _ | snapshot
  · exact refl_of Session.Alike s
  · simp only [wp_ite, wp_pure]
    split
    · exact quiet_replaceDebugSlot _ _ _ _ s
    · exact refl_of Session.Alike s

theorem wp_eventChild {what : String} {Q : Post WaitCall Exception Session Pid}
    (returned : ∀ faults, s.nextFails = false ∧ faults = s.faults.tail →
      s.world.message tid ≠ 0 → s.world.message tid ≤ pidMax →
      Q.returned (s.world.message tid) { s with faults })
    (raised : ∀ faults e, Q.raised e { s with faults }) : wp (eventChild tid what) Q s := by
  unfold eventChild
  rw [wp_bind]
  refine Lowlevel.wp_getEventMessage_tail (fun hread => ?_) (fun _ e _ => raised _ e)
  simp only [wp_bind, wp_ite, wp_raise, wp_pure]
  split
  · exact raised _ _
  · rename_i h
    simp only [not_or, not_lt] at h
    exact returned _ ⟨hread, rfl⟩ h.1 h.2

/-- However a child is got rid of, the error is passed on. -/
theorem wp_killAndRethrow {α : Type} {e : Exception} {victim : Pid} {u : Session}
    {Q : Post WaitCall Exception Session α}
    (hu : ∃ faults sequence debug memory, u = { s with
      faults, sequence, world := { s.world with debug, memory } } ∧
      ∀ p, p ≠ victim → memory p = s.world.memory p)
    (raised : ∀ t, s.Aftermath child victim t → Q.raised e t) :
    wp (killAndRethrow child e) Q u := by
  obtain ⟨faults, sequence, debug, memory, rfl, hmemory⟩ := hu
  simp only [killAndRethrow, killChild, wp_bind, wp_handle]
  refine Lowlevel.wp_detach (fun faults => ?_) (fun faults e' _ => ?_)
  · exact raised _ ⟨faults, _, _, _, _, _, rfl, .inr rfl, hmemory⟩
  · exact raised _ ⟨faults, _, _, _, _, _, rfl, .inl rfl, hmemory⟩

theorem wp_detachAndRethrow {α : Type} {e : Exception} {victim : Pid} {u : Session}
    {Q : Post WaitCall Exception Session α}
    (hu : ∃ faults sequence debug memory, u = { s with
      faults, sequence, world := { s.world with debug, memory } } ∧
      ∀ p, p ≠ victim → memory p = s.world.memory p)
    (raised : ∀ t, s.Aftermath child victim t → Q.raised e t) :
    wp (detachAndRethrow child e) Q u := by
  obtain ⟨faults, sequence, debug, memory, rfl, hmemory⟩ := hu
  simp only [detachAndRethrow, wp_bind, wp_handle]
  refine Lowlevel.wp_detach (fun faults => ?_) (fun faults e' _ => ?_)
  · exact raised _ ⟨faults, _, _, _, _, _, rfl, .inr rfl, hmemory⟩
  · exact raised _ ⟨faults, _, _, _, _, _, rfl, .inl rfl, hmemory⟩

/-- Nothing was written before the child was got rid of. -/
theorem wp_killAndRethrow_of_alike {α : Type} {e : Exception} {u : Session}
    {Q : Post WaitCall Exception Session α} (hu : s.Alike u)
    (raised : ∀ t, (∀ victim, s.Aftermath child victim t) → Q.raised e t) :
    wp (killAndRethrow child e) Q u := by
  obtain ⟨faults, sequence, debug, rfl⟩ := hu
  simp only [killAndRethrow, killChild, wp_bind, wp_handle]
  refine Lowlevel.wp_detach (fun faults => ?_) (fun faults e' _ => ?_)
  · exact raised _ fun _ => ⟨faults, _, _, _, _, _, rfl, .inr rfl, fun _ _ => rfl⟩
  · exact raised _ fun _ => ⟨faults, _, _, _, _, _, rfl, .inl rfl, fun _ _ => rfl⟩

/-- The stop of a fork-like event. -/
def processEventInfo (kind : ProcessEventKind) (tid parent child : Pid) (retainsChild : Bool)
    (sequence : Nat) : StopInfo where
  reason := .trap
  value := sigtrap
  tid
  processEvent := kind
  parentPid := some parent
  childPid := some child
  retainsChild
  sequence

@[simp] theorem wp_processEventStop (kind : ProcessEventKind) (retainsChild : Bool)
    (Q : Post WaitCall Exception Session StopInfo) :
    wp (processEventStop kind tid parent child retainsChild) Q s =
      Q.returned (processEventInfo kind tid parent child retainsChild (s.sequence + 1))
        { s with
          sequence := s.sequence + 1
          dbg := { s.dbg with
            stopInfo :=
              processEventInfo kind tid parent child retainsChild (s.sequence + 1) } } := rfl

/-- The conditions `checkRetainable` checks. -/
structure Debugger.Retainable (d : Debugger) (tid : Pid) : Prop where
  launched : d.process.origin = .launched
  single : d.process.isSingleThread tid = true
  room : 1 + d.retainedProcesses.size < maxProcessDomains
  unarmed : d.breakpointsByAddress.isEmpty = true
  idle : d.pendingBreakpointStep = none

theorem wp_checkRetainable {Q : Post WaitCall Exception Session Unit}
    (returned : s.dbg.Retainable tid → Q.returned () s) (raised : ∀ e, Q.raised e s) :
    wp (checkRetainable tid) Q s := by
  simp only [checkRetainable, wp_bind, wp_view, wp_ite, wp_raise, wp_pure, id]
  split
  · exact raised _
  split
  · exact raised _
  split
  · exact raised _
  split
  · exact raised _
  rename_i hlaunched hsingle hroom hbare
  simp only [not_not, Bool.not_eq_true', Bool.not_eq_false, not_le, not_or] at *
  exact returned ⟨hlaunched, hsingle, hroom, hbare.1, by simpa using hbare.2⟩

theorem wp_inheritWatchpoint
    {Q : Post WaitCall Exception Session (Option (Watchpoint × DebugRegisterSnapshot))}
    (returned : ∀ t inherited, s.Alike t → (∀ w, inherited = some w → w.2.tid = child) →
      Q.returned inherited t)
    (raised : ∀ t e, s.Alike t → Q.raised e t) : wp (inheritWatchpoint tid child) Q s := by
  simp only [inheritWatchpoint, wp_bind, wp_view, id]
  rcases s.dbg.watchpoint with _ | watchpoint
  · exact returned s none (refl_of _ s) (by simp)
  rcases s.dbg.watchpointRegisterSnapshot with _ | snapshot
  · exact raised s _ (refl_of _ s)
  simp only [wp_bind, wp_ite, wp_raise, wp_pure]
  split
  · exact raised s _ (refl_of _ s)
  · exact (quiet_copyDebugSlot _ _).wp (fun _ t h => returned t _ h (by simp))
      (fun e t h _ => raised t e h)

/-- The domain a forked child is retained as. -/
def Debugger.childDomain (d : Debugger) (child : Pid) (stopInfo : StopInfo)
    (inherited : Option (Watchpoint × DebugRegisterSnapshot)) : RetainedProcessDomain where
  process := Process.single child d.process.origin
  stopInfo
  executablePath := d.executablePath
  watchpoint := inherited.map (·.1)
  watchpointRegisterSnapshot := inherited.map (·.2)

theorem wp_classifyForkBoth (victim : Pid) {Q : Post WaitCall Exception Session StopInfo}
    (hpos : 0 < child)
    (retained : ∀ t childStop inherited info, s.Alike t → s.dbg.Retainable tid →
      child ∉ s.dbg.retainedProcesses → (∀ w, inherited = some w → w.2.tid = child) →
      info = processEventInfo .fork tid parent child true info.sequence →
      Q.returned info { t with dbg := { s.dbg with
        retainedProcesses := s.dbg.retainedProcesses.insert child
          (s.dbg.childDomain child childStop inherited)
        stopInfo := info } })
    (raised : ∀ t e, s.Aftermath child victim t → Q.raised e t) :
    wp (classifyForkBoth tid parent child) Q s := by
  simp only [classifyForkBoth, wp_bind, wp_handle]
  refine wp_checkRetainable (fun hok => ?_)
    (fun e => wp_killAndRethrow_of_alike (refl_of _ s) fun t h => raised t e (h victim))
  simp only [retainChild, wp_bind, wp_view]
  refine (Lowlevel.quiet_setOptions child).wp (fun _ t₀ h₀ => ?_)
    (fun e t h _ => wp_killAndRethrow_of_alike h fun t h => raised t e (h victim))
  refine wp_inheritWatchpoint (fun t₁ inherited h₁ hinherited => ?_)
    (fun t e h => wp_killAndRethrow_of_alike (trans_of _ h₀ h) fun t h => raised t e (h victim))
  obtain ⟨faults, sequence, debug, rfl⟩ := trans_of _ h₀ h₁
  simp only [wp_makeStop, Process.adoptStopped, if_neg (not_le.mpr hpos), id, wp_ite, wp_raise,
    wp_bind, wp_modifyDebugger]
  split
  · exact wp_killAndRethrow_of_alike ⟨faults, sequence + 1, debug, rfl⟩
      fun t h => raised t _ (h victim)
  · exact retained { s with faults, sequence := sequence + 2, world := { s.world with debug } } _ _
      _ ⟨_, _, _, rfl⟩ hok (by simpa using ‹_›) hinherited rfl

/-- The conditions `checkFollowable` checks. -/
theorem wp_checkFollowable {Q : Post WaitCall Exception Session Unit}
    (returned : s.dbg.process.isSingleThread tid = true → Q.returned () s)
    (raised : ∀ e, Q.raised e s) : wp (checkFollowable tid) Q s := by
  simp only [checkFollowable, wp_bind, wp_view, wp_ite, wp_raise, wp_pure, id]
  split
  · exact raised _
  split
  · exact raised _
  · rename_i hsingle
    exact returned (by simpa using hsingle)

/-- A breakpoint is in place. -/
def Debugger.Armed (d : Debugger) : Prop := ∃ a, hasEntry d a true = true

/-- The saved bytes go to the memory of the given task only, and there are none to go anywhere
without a breakpoint in place. -/
theorem wp_writeOriginalBytes {Q : Post WaitCall Exception Session Unit}
    (returned : ∀ faults memory,
      (∀ p, p ≠ Lowlevel.space s.world tid → memory p = s.world.memory p) →
      (memory = s.world.memory ∨ s.dbg.Armed) →
      Q.returned () { s with faults, world := { s.world with memory } })
    (raised : ∀ faults memory e,
      (∀ p, p ≠ Lowlevel.space s.world tid → memory p = s.world.memory p) →
      (memory = s.world.memory ∨ s.dbg.Armed) → e.isPtraceError = true →
      Q.raised e { s with faults, world := { s.world with memory } }) :
    wp (writeOriginalBytes tid) Q s := by
  simp only [writeOriginalBytes, wp_bind, wp_view]
  let I : Session → Prop := fun t => ∃ faults memory,
    t = { s with faults, world := { s.world with memory } } ∧
    (∀ p, p ≠ Lowlevel.space s.world tid → memory p = s.world.memory p) ∧
    (memory = s.world.memory ∨ s.dbg.Armed)
  refine wp_mono (wp_forEach (I := I) (E := fun e t => I t ∧ e.isPtraceError = true)
    (B := fun _ _ => False) ?_ s ⟨s.faults, _, rfl, fun _ _ => rfl, .inl rfl⟩) ?_ ?_
    (fun _ _ h => h.elim)
  · rintro entry hentry u ⟨faults, memory, rfl, hmemory, hkept⟩
    simp only [wp_ite, wp_pure]
    split
    · rename_i hin
      have hbp : s.dbg.breakpointsByAddress[entry.1]? = some entry.2 :=
        Std.ExtTreeMap.mem_toList_iff_getElem?_eq_some.mp hentry
      have harmed : s.dbg.Armed := ⟨entry.1, by simp [hasEntry, hbp, hin]⟩
      refine Lowlevel.wp_writeByte (fun faults _ => ⟨faults, _, rfl, fun p hp => ?_, .inr harmed⟩)
        (fun faults e he => ⟨⟨faults, memory, rfl, hmemory, hkept⟩, he⟩)
      rw [update_of_ne (by exact hp)]
      exact hmemory p hp
    · exact ⟨faults, memory, rfl, hmemory, hkept⟩
  · rintro _ t ⟨faults, memory, rfl, hmemory, hkept⟩
    exact returned faults memory hmemory hkept
  · rintro e t ⟨⟨faults, memory, rfl, hmemory, hkept⟩, he⟩
    exact raised faults memory e hmemory hkept he

/-- The debugger after it moved from the process of `tid` to its child. -/
def Debugger.handedOver (d : Debugger) (tid child : Pid) : Debugger :=
  let transferWatchpoint := d.watchpointRegisterSnapshot.any (·.tid = tid)
  { d with
    process := d.process.singleTask child
    watchpoint := if transferWatchpoint then d.watchpoint else none
    watchpointRegisterSnapshot :=
      if transferWatchpoint then d.watchpointRegisterSnapshot.map ({ · with tid := child })
      else none
    pendingThreadStarts := ∅
    pendingSignals := ∅
    breakpointRegisterSnapshots := [] }

/-- The owner of the watchpoint is not there to have its registers restored. -/
def Debugger.LostOwner (d : Debugger) : Prop :=
  ∃ snapshot, d.watchpointRegisterSnapshot = some snapshot ∧
    d.process.taskState snapshot.tid ≠ some .stopped

theorem wp_when_restoreWatchpointRegisters {c : Bool}
    {Q : Post WaitCall Exception Session Unit}
    (returned : ∀ t, s.Alike t → Q.returned () t)
    (raised : ∀ t e, s.Alike t → e.isPtraceError = true ∨ s.dbg.LostOwner → Q.raised e t) :
    wp (when c restoreWatchpointRegisters) Q s := by
  rw [wp_when]
  split
  · exact wp_restoreWatchpointRegisters returned (fun t e h he => raised t e h (.inl he))
      (fun snapshot e hsnap hrunning =>
        raised s e (refl_of _ s) (.inr ⟨snapshot, hsnap, hrunning⟩))
  · exact returned s (refl_of _ s)

/-- What a hand-over that changed the parent's memory and then failed has run into: some request
failed, and if all were `granted`, a byte could not be accessed. -/
structure Debugger.HandOverLost (d : Debugger) (granted : Bool) (e : Exception) : Prop where
  armed : d.Armed
  cause : e.isPtraceError = true ∨ d.LostOwner
  byte : granted = true → e.isPtraceError = true → e.isByteError = true

/-- The options of a forked child cannot be set, or every request after that succeeds. -/
def Session.handOverServed (s : Session) : Bool := s.nextFails || s.served

theorem wp_handOver {Q : Post WaitCall Exception Session Unit} (hpos : 0 < child)
    (returned : ∀ faults sequence debug memory requests,
      (∀ p, p ≠ Lowlevel.space s.world tid → memory p = s.world.memory p) →
      Q.returned () { s with
        faults, sequence
        dbg := s.dbg.handedOver tid child
        world := { s.world with
          debug, memory, requests, tasks := s.world.tasks.erase tid } })
    (kept : ∀ t e, s.Alike t → Q.raised e t)
    (lost : ∀ faults sequence debug memory e,
      (∀ p, p ≠ Lowlevel.space s.world tid → memory p = s.world.memory p) →
      s.dbg.HandOverLost s.handOverServed e →
      Q.raised e { s with faults, sequence, world := { s.world with debug, memory } }) :
    wp (handOver tid child) Q s := by
  have granted : wp (handOver tid child) ⟨fun _ _ => True,
      fun e _ => s.served = true → e.isPtraceError = true → e.isByteError = true,
      fun _ _ => True⟩ s := by
    by_cases hserved : s.served = true
    · exact wp_mono (serves_handOver tid hpos s hserved) (fun _ _ _ => trivial)
        (fun _ _ he _ => he) (fun _ _ _ => trivial)
    · exact wp_mono (wp_trivial _ s) (fun _ _ _ => trivial)
        (fun _ _ _ h => absurd h hserved) (fun _ _ _ => trivial)
  have raised : ∀ faults sequence debug memory e, s.nextFails = false →
      (∀ p, p ≠ Lowlevel.space s.world tid → memory p = s.world.memory p) →
      (memory = s.world.memory ∨ s.dbg.Armed) → e.isPtraceError = true ∨ s.dbg.LostOwner →
      (s.served = true → e.isPtraceError = true → e.isByteError = true) →
      Q.raised e { s with faults, sequence, world := { s.world with debug, memory } } := by
    intro faults sequence debug memory e hset hmemory hkept hcause hbyte
    obtain rfl | harmed := hkept
    · exact kept _ e ⟨faults, sequence, debug, rfl⟩
    · refine lost faults sequence debug memory e hmemory ⟨harmed, hcause, fun h => hbyte ?_⟩
      simpa [Session.handOverServed, hset] using h
  suffices wp (handOver tid child) ⟨Q.returned,
      fun e t => (s.served = true → e.isPtraceError = true → e.isByteError = true) → Q.raised e t,
      Q.blocked⟩ s from
    wp_mono (wp_and this granted) (fun _ _ h => h.1) (fun _ _ h => h.1 h.2) (fun _ _ h => h.1)
  simp only [handOver, Lowlevel.setOptions, wp_bind, wp_view]
  refine Lowlevel.wp_attempt_tail (fun hset => ?_) fun _ _ _ => kept _ _ ⟨_, _, _, rfl⟩
  refine wp_writeOriginalBytes (fun faults memory hmemory hkept => ?_)
    (fun faults memory e hmemory hkept he =>
      raised faults s.sequence s.world.debug memory e hset hmemory hkept (.inl he))
  refine (quiet_copyDebugSlot tid child).when.wp ?_ ?_
  · rintro _ _ ⟨faults, sequence, debug, rfl⟩
    refine wp_when_restoreWatchpointRegisters ?_ ?_
    · rintro _ ⟨faults, sequence, debug, rfl⟩
      refine Lowlevel.wp_detach (fun faults => ?_) ?_
      · refine wp_tryProcess (fun p hp => ?_) (fun e he => ?_)
        · rw [Process.adoptStoppedProcess, if_neg (not_le.mpr hpos)] at hp
          cases hp
          have := returned faults sequence debug memory (.detach tid 0 :: s.world.requests)
            hmemory
          simp only [clearWatchpoint, wp_ite]
          split
          · simpa [Debugger.handedOver, Session.withProcess, *] using this
          · simpa [Debugger.handedOver, Session.withProcess, *] using this
        · rw [Process.adoptStoppedProcess, if_neg (not_le.mpr hpos)] at he
          cases he
      · intro faults e he
        exact raised faults sequence debug memory e hset hmemory hkept (.inl he)
    · rintro _ e ⟨faults, sequence, debug, rfl⟩ he
      exact raised faults sequence debug memory e hset hmemory hkept he
  · rintro e _ ⟨faults, sequence, debug, rfl⟩ he
    exact raised faults sequence debug memory e hset hmemory hkept (.inl he)

theorem wp_classifyForkChild {Q : Post WaitCall Exception Session StopInfo} (hpos : 0 < child)
    (followed : ∀ faults sequence debug memory requests info,
      s.dbg.process.isSingleThread tid = true →
      (∀ p, p ≠ Lowlevel.space s.world tid → memory p = s.world.memory p) →
      info = processEventInfo .fork child parent child false info.sequence →
      Q.returned info { s with
        faults, sequence
        dbg := { s.dbg.handedOver tid child with stopInfo := info }
        world := { s.world with
          debug, memory, requests, tasks := s.world.tasks.erase tid } })
    (refused : ∀ t e, (∀ victim, s.Aftermath child victim t) → Q.raised e t)
    (lost : ∀ t e, s.dbg.process.isSingleThread tid = true →
      s.Aftermath child (Lowlevel.space s.world tid) t →
      s.dbg.HandOverLost s.handOverServed e → Q.raised e t) :
    wp (classifyForkChild tid parent child) Q s := by
  simp only [classifyForkChild, wp_bind, wp_handle]
  refine wp_checkFollowable (fun hsingle => ?_)
    (fun e => wp_killAndRethrow_of_alike (refl_of _ s) fun t h => refused t e h)
  refine wp_handOver hpos ?_
    (fun t e ht => wp_killAndRethrow_of_alike ht fun t h => refused t e h) ?_
  · intro faults sequence debug memory requests hmemory
    exact followed faults (sequence + 1) debug memory requests _ hsingle hmemory rfl
  · intro faults sequence debug memory e hmemory hlost
    exact wp_killAndRethrow ⟨faults, sequence, debug, memory, rfl, hmemory⟩
      (fun t h => lost t e hsingle h hlost)

theorem wp_classifyForkParent {Q : Post WaitCall Exception Session StopInfo}
    (released : ∀ t info, s.Aftermath child (Lowlevel.space s.world child) t →
      info = processEventInfo .fork tid parent child false info.sequence →
      Q.returned info { t with dbg := { s.dbg with stopInfo := info } })
    (raised : ∀ t e, s.Aftermath child (Lowlevel.space s.world child) t → Q.raised e t) :
    wp (classifyForkParent tid parent child) Q s := by
  simp only [classifyForkParent, releaseChild, wp_bind, wp_handle]
  refine wp_writeOriginalBytes ?_ ?_
  · intro faults memory hmemory _
    refine (quiet_disarmChild tid child).wp ?_ ?_
    · rintro _ _ ⟨faults, sequence, debug, rfl⟩
      refine Lowlevel.wp_detach (fun faults => ?_) (fun faults e _ => ?_)
      · exact released { s with
          faults, sequence := sequence + 1
          world := { s.world with
            debug, memory
            tasks := s.world.tasks.erase child
            requests := .detach child 0 :: s.world.requests } } _
          ⟨faults, _, _, _, _, _, rfl, .inr rfl, hmemory⟩ rfl
      · exact wp_detachAndRethrow (s := s) ⟨faults, sequence, debug, memory, rfl, hmemory⟩
          fun t h => raised t e h
    · rintro e _ ⟨faults, sequence, debug, rfl⟩ _
      exact wp_detachAndRethrow (s := s) ⟨faults, sequence, debug, memory, rfl, hmemory⟩
        fun t h => raised t e h
  · intro faults memory e hmemory _ _
    exact wp_detachAndRethrow (s := s) ⟨faults, s.sequence, s.world.debug, memory, rfl, hmemory⟩
      fun t h => raised t e h

/-- The child of a fork is not known, or its options cannot be set, or every request after that
succeeds. -/
def Session.forkServed (s : Session) : Bool :=
  s.nextFails || { s with faults := s.faults.tail }.handOverServed

/-- A fork stop under each policy. -/
theorem wp_classifyFork {Q : Post WaitCall Exception Session StopInfo}
    (unread : ∀ faults e, Q.raised e { s with faults })
    (retained : ∀ t child childStop inherited info, child = (s.world.message tid : Int) →
      0 < child → s.dbg.forkFollowPolicy = .both → s.Alike t →
      s.dbg.Retainable tid → child ∉ s.dbg.retainedProcesses →
      (∀ w, inherited = some w → w.2.tid = child) →
      info = processEventInfo .fork tid s.dbg.process.pid child true info.sequence →
      Q.returned info { t with dbg := { s.dbg with
        retainedProcesses := s.dbg.retainedProcesses.insert child
          (s.dbg.childDomain child childStop inherited)
        stopInfo := info } })
    (followed : ∀ child faults sequence debug memory requests info,
      child = (s.world.message tid : Int) → 0 < child →
      s.dbg.forkFollowPolicy = .child → s.dbg.process.isSingleThread tid = true →
      (∀ p, p ≠ Lowlevel.space s.world tid → memory p = s.world.memory p) →
      info = processEventInfo .fork child s.dbg.process.pid child false info.sequence →
      Q.returned info { s with
        faults, sequence
        dbg := { s.dbg.handedOver tid child with stopInfo := info }
        world := { s.world with
          debug, memory, requests, tasks := s.world.tasks.erase tid } })
    (released : ∀ child t info, child = (s.world.message tid : Int) →
      s.dbg.forkFollowPolicy = .parent →
      s.Aftermath child (Lowlevel.space s.world child) t →
      info = processEventInfo .fork tid s.dbg.process.pid child false info.sequence →
      Q.returned info { t with dbg := { s.dbg with stopInfo := info } })
    (refused : ∀ child t e, child = (s.world.message tid : Int) →
      s.Aftermath child (Lowlevel.space s.world child) t → Q.raised e t)
    (lost : ∀ child t e, child = (s.world.message tid : Int) →
      s.dbg.forkFollowPolicy = .child → s.dbg.process.isSingleThread tid = true →
      s.Aftermath child (Lowlevel.space s.world tid) t →
      s.dbg.HandOverLost s.forkServed e → Q.raised e t) :
    wp (classifyFork tid) Q s := by
  simp only [classifyFork, waitForUnfollowedChildStop, wp_bind, wp_view]
  refine wp_eventChild (fun faults hfaults h0 _ => ?_) unread
  simp only [wp_read, wp_ite, wp_raise, wp_pure]
  split
  · exact unread faults _
  generalize hchild : (s.world.message tid : Int) = child at *
  have hpos : 0 < child := by omega
  have later : ∀ {victim t}, { s with faults }.Aftermath child victim t →
      s.Aftermath child victim t := by
    rintro victim t ⟨faults, sequence, debug, tasks, requests, memory, rfl, ht, hm⟩
    exact ⟨faults, sequence, debug, tasks, requests, memory, rfl, ht, hm⟩
  rcases hpolicy : s.dbg.forkFollowPolicy with _ | _ | _
  · refine wp_classifyForkParent (fun t info h hinfo => ?_) (fun t e h => ?_)
    · exact released child t info rfl hpolicy (later h) hinfo
    · exact refused child t e rfl (later h)
  · refine wp_classifyForkChild hpos ?_ ?_ ?_
    · intro faults sequence debug memory requests info hsingle hmemory hinfo
      exact followed child faults sequence debug memory requests info rfl hpos hpolicy hsingle
        hmemory hinfo
    · intro t e h
      exact refused child t e rfl (later (h _))
    · intro t e hsingle h hlost
      refine lost child t e rfl hpolicy hsingle (later h) { hlost with byte := fun hserved => ?_ }
      obtain ⟨hread, rfl⟩ := hfaults
      simp only [Session.forkServed, hread, Bool.false_or] at hserved
      exact hlost.byte hserved
  · refine wp_classifyForkBoth (Lowlevel.space s.world child) hpos ?_ ?_
    · intro t childStop inherited info h hok hnew hinherited hinfo
      obtain ⟨faults, sequence, debug, rfl⟩ := h
      exact retained { s with faults, sequence, world := { s.world with debug } } child childStop
        inherited info rfl hpos hpolicy ⟨_, _, _, rfl⟩ hok hnew hinherited hinfo
    · intro t e h
      exact refused child t e rfl (later h)

/-! ### `vfork` -/

/-- The session after a vfork child ran: how other tasks were resumed is unchanged. -/
def Session.ChildRan (s : Session) (child : Pid) (t : Session) : Prop :=
  ∃ faults sequence debug tasks requests mode,
    t = { s with
      faults, sequence
      world := { s.world with debug, tasks, requests, mode } } ∧
    (tasks = s.world.tasks ∨ tasks = s.world.tasks.erase child) ∧
    ∀ p, p ≠ child → mode p = s.world.mode p

theorem wp_followTransientChild {statuses : List WaitStatus} {u : Session}
    {Q : Post WaitCall Exception Session Unit}
    (hu : ∃ faults sequence debug requests mode, u = { s with
      faults, sequence, world := { s.world with debug, requests, mode } } ∧
      ∀ p, p ≠ child → mode p = s.world.mode p)
    (returned : ∀ t, s.ChildRan child t → Q.returned () t)
    (raised : ∀ t e, s.ChildRan child t → Q.raised e t)
    (blocked : ∀ t, s.ChildRan child t → Q.blocked (.transientChild child) t) :
    wp (followTransientChild child statuses) Q u := by
  induction statuses generalizing u with
  | nil =>
    obtain ⟨faults, sequence, debug, requests, mode, rfl, hmode⟩ := hu
    exact blocked _ ⟨faults, sequence, debug, _, requests, mode, rfl, .inl rfl, hmode⟩
  | cons status rest ih =>
    obtain ⟨faults, sequence, debug, requests, mode, rfl, hmode⟩ := hu
    have here : ∀ faults, s.ChildRan child { s with
        faults, sequence, world := { s.world with debug, requests, mode } } :=
      fun faults => ⟨faults, sequence, debug, _, requests, mode, rfl, .inl rfl, hmode⟩
    rcases status with code | signal | ⟨signal, event⟩
    · exact returned _ (here faults)
    · exact returned _ (here faults)
    simp only [followTransientChild, wp_ite, wp_raise, wp_bind]
    split
    · refine Lowlevel.wp_detach (fun faults => ?_) (fun faults e _ => raised _ e (here faults))
      exact returned _ ⟨faults, sequence, debug, _, _, mode, rfl, .inr rfl, hmode⟩
    split
    · exact raised _ _ (here faults)
    split
    · exact raised _ _ (here faults)
    refine Lowlevel.wp_resume (fun faults => ?_) (fun faults e _ => raised _ e (here faults))
    refine ih ⟨faults, sequence, debug, _, _, rfl, fun p hp => ?_⟩
    rw [update_of_ne hp]
    exact hmode p hp

theorem wp_runTransientChild {Q : Post WaitCall Exception Session Unit}
    (returned : ∀ t, s.ChildRan child t → Q.returned () t)
    (raised : ∀ t e, s.ChildRan child t → Q.raised e t)
    (blocked : ∀ t, s.ChildRan child t → Q.blocked (.transientChild child) t) :
    wp (runTransientChild tid child) Q s := by
  have alike : ∀ t, s.Alike t → s.ChildRan child t := by
    rintro t ⟨faults, sequence, debug, rfl⟩
    exact ⟨faults, sequence, debug, _, _, _, rfl, .inl rfl, fun _ _ => rfl⟩
  simp only [runTransientChild, wp_bind, wp_read]
  refine (quiet_disarmChild tid child).wp (fun _ t₀ h₀ => ?_)
    (fun e t h _ => raised t e (alike t h))
  refine (Lowlevel.quiet_setOptions child).wp (fun _ t₁ h₁ => ?_)
    (fun e t h _ => raised t e (alike t (trans_of _ h₀ h)))
  obtain ⟨faults, sequence, debug, rfl⟩ := trans_of _ h₀ h₁
  refine Lowlevel.wp_resume (fun faults => ?_)
    (fun faults e _ => raised _ e (alike _ ⟨faults, sequence, debug, rfl⟩))
  exact wp_followTransientChild
    ⟨faults, sequence, debug, _, _, rfl, fun p hp => update_of_ne hp _ _⟩ returned raised blocked

/-- The wait for the end of a `vfork` succeeds on one event only. -/
theorem wp_awaitVforkDone {tracees : Tracees} {Q : Post WaitCall Exception Session Unit}
    (failed : ∀ rest, Q.raised (.runtimeError "waitpid failed")
      { s.waiting .vforkDone with script := rest })
    (unexpected : ∀ d rest t e, Delivered tracees (-1) (s.waiting .vforkDone) d rest →
      d.status.isVforkDone = false ∨ d.tid ∉ s.dbg.process.taskStates →
      (∃ p, (s.dbg.process.Sane → p.Sane) ∧ t.dbg = { s.dbg with process := p }) →
      t.history = ((s.waiting .vforkDone).deliver d rest).history → Q.raised e t)
    (mismatched : ∀ d rest signal faults e, Delivered tracees (-1) (s.waiting .vforkDone) d rest →
      ((s.waiting .vforkDone).deliver d rest).owns d.tid →
      d.status = .stopped signal .vforkDone →
      Q.raised e { ((s.waiting .vforkDone).deliver d rest).withProcess
        ((s.dbg.process.reportedBy d.tid).taskStopped d.tid) with faults })
    (done : ∀ d rest signal faults, Delivered tracees (-1) (s.waiting .vforkDone) d rest →
      ((s.waiting .vforkDone).deliver d rest).owns d.tid → d.tid = tid →
      d.status = .stopped signal .vforkDone →
      Q.returned () { ((s.waiting .vforkDone).deliver d rest).withProcess
        ((s.dbg.process.reportedBy d.tid).taskStopped d.tid) with faults })
    (blocked : Q.blocked .vforkDone (s.waiting .vforkDone)) :
    wp (awaitVforkDone tracees tid child) Q s := by
  simp only [awaitVforkDone, wait, wp_bind]
  refine wp_waitFor ?_ ?_ ?_ ?_ ?_ ?_ blocked
  · intro rest
    exact failed rest
  · intro d rest hd hout _
    exact unexpected d rest _ _ hd (.inr hout) ⟨s.dbg.process, id, rfl⟩ rfl
  · intro d rest event p hd _ hend hkind _ hended
    have hnot : d.status.isVforkDone = false := by
      rcases hst : d.status with code | signal | ⟨signal, event⟩
      · rfl
      · rfl
      · simp [hst, WaitStatus.isStopped] at hend
    simp only [ne_eq, hkind, not_false_eq_true, true_or, if_true, wp_bind, wp_raise]
    exact unexpected d rest _ _ hd (.inl hnot) ⟨p, fun h => h.ended hended, rfl⟩ rfl
  · intro d rest signal event hd howns hst _
    by_cases hdone : event = .vforkDone
    · subst hdone
      by_cases htid : d.tid = tid
      · simp only [htid, ne_eq, not_true_eq_false, or_false, if_false, wp_bind, wp_ite]
        have done := done d rest signal
        have mismatched := mismatched d rest signal
        simp only [htid] at done mismatched
        refine Lowlevel.wp_getEventMessage (fun faults => ?_)
          (fun faults e _ => mismatched faults e hd (htid ▸ howns) hst)
        dsimp only
        split
        · exact mismatched faults _ hd (htid ▸ howns) hst
        · exact done faults hd (htid ▸ howns) trivial hst
      · simp only [ne_eq, htid, not_false_eq_true, true_or, or_true, if_true, wp_bind, wp_raise]
        exact mismatched d rest signal s.faults _ hd howns hst
    · have hnot : d.status.isVforkDone = false := by
        rw [hst]
        cases event <;> first | rfl | exact absurd rfl hdone
      simp only [ne_eq, hdone, not_false_eq_true, or_true, if_true, wp_bind, wp_raise]
      exact unexpected d rest _ _ hd (.inl hnot)
        ⟨_, fun h => (h.reportedBy d.tid).taskStopped d.tid, rfl⟩ rfl
  · intro d rest signal faults hd _ hst _ _
    simp only [ne_eq, reduceCtorEq, not_false_eq_true, or_true, if_true, wp_bind, wp_raise]
    exact unexpected d rest _ _ hd (.inl (by rw [hst]; rfl))
      ⟨_, fun h => ((h.reportedBy d.tid).taskStopped d.tid).track _, rfl⟩ rfl
  · intro d rest signal faults e hd _ hst _
    exact unexpected d rest _ e hd (.inl (by rw [hst]; rfl))
      ⟨_, fun h => (h.reportedBy d.tid).taskStopped d.tid, rfl⟩ rfl

/-- Getting rid of a vfork child that did not behave. -/
theorem Session.ChildRan.detached (h : s.ChildRan child t) {faults : List (Option Nat)}
    {requests : List Request} :
    s.ChildRan child { t with
      faults, world := { t.world with tasks := t.world.tasks.erase child, requests } } := by
  obtain ⟨_, sequence, debug, tasks, _, mode, rfl, htasks, hmode⟩ := h
  refine ⟨faults, sequence, debug, tasks.erase child, requests, mode, rfl, .inr ?_, hmode⟩
  rcases htasks with rfl | rfl
  · rfl
  · apply Std.ExtTreeMap.ext_getElem?
    intro p
    grind

/-- A vfork stop: the child runs on its own, then the parent is resumed and waited for. -/
theorem wp_classifyVfork {tracees : Tracees} {Q : Post WaitCall Exception Session StopInfo}
    (raised : ∀ t e, s.ChildRan (s.world.message tid) t → Q.raised e t)
    (blocked : ∀ t, s.ChildRan (s.world.message tid) t →
      Q.blocked (.transientChild (s.world.message tid)) t)
    (waits : ∀ t faults requests, s.ChildRan (s.world.message tid) t →
      wp (awaitVforkDone tracees tid (s.world.message tid))
        ⟨fun _ u => wp (processEventStop .vfork tid u.dbg.process.pid (s.world.message tid) false)
          Q u, Q.raised, Q.blocked⟩
        { t with
          faults
          dbg := { s.dbg with process := s.dbg.process.markRunning tid }
          world := { t.world with mode := update t.world.mode tid (some .cont), requests } }) :
    wp (classifyVfork tracees tid) Q s := by
  have unread : ∀ faults, s.ChildRan (s.world.message tid) { s with faults } := fun faults =>
    ⟨faults, _, _, _, _, _, rfl, .inl rfl, fun _ _ => rfl⟩
  simp only [classifyVfork, wp_bind]
  refine wp_eventChild (fun faults _ _ _ => ?_) (fun faults e => raised _ e (unread faults))
  simp only [waitForUnfollowedChildStop, wp_bind, wp_read, wp_ite, wp_raise, wp_pure]
  split
  · exact raised _ _ (unread faults)
  generalize hchild : (s.world.message tid : Int) = child at *
  have later : ∀ {t}, { s with faults }.ChildRan child t → s.ChildRan child t := by
    rintro t ⟨faults, sequence, debug, tasks, requests, mode, rfl, htasks, hmode⟩
    exact ⟨faults, sequence, debug, tasks, requests, mode, rfl, htasks, hmode⟩
  rw [wp_handle]
  refine wp_runTransientChild ?_ ?_ ?_
  · intro t ht
    refine Lowlevel.wp_resume (fun faults => ?_) (fun faults e _ => ?_)
    · obtain ⟨_, sequence, debug, tasks, requests, mode, rfl, htasks, hmode⟩ := ht
      exact waits _ faults _ ⟨_, sequence, debug, tasks, requests, mode, rfl, htasks, hmode⟩
    · obtain ⟨_, sequence, debug, tasks, requests, mode, rfl, htasks, hmode⟩ := ht
      exact raised _ e ⟨faults, sequence, debug, tasks, requests, mode, rfl, htasks, hmode⟩
  · intro t e ht
    simp only [killAndRethrow, killChild, wp_bind, wp_handle]
    refine Lowlevel.wp_detach (fun faults => raised _ e (later ht.detached)) (fun faults _ _ => ?_)
    obtain ⟨_, sequence, debug, tasks, requests, mode, rfl, htasks, hmode⟩ := ht
    exact raised _ e ⟨faults, sequence, debug, tasks, _, mode, rfl, htasks, hmode⟩
  · intro t ht
    exact blocked t (later ht)

end Rules

end MiniDebugger
