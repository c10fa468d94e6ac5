import MiniDebugger.Loader.DeferredBreakpoints
import MiniDebugger.Loader.KeptOperations
import MiniDebugger.Loader.ModuleSymbols

/-!
# Deferred breakpoints over whole runs

A run mixes the operations of `DeferredBreakpoints` with those the user has for the debugger itself.
As long as every change of the breakpoint table is `Harmless`, the table accounts for every `INT3`
of the debugger in the tracee; discarding a breakpoint whose module is still mapped is not.
-/

namespace MiniDebugger

open Command
open Std (ExtTreeMap)

/-- The change loses no `INT3`: a breakpoint is armed over another byte, removed while the process
is not running, and discarded when its `INT3` has gone with the memory it was in. -/
def TableRecord.Harmless (start : Pid → Memory) : TableRecord → Prop
  | .arms s address => ownMemory start s.history s.dbg.process.pid address ≠ some int3
  | .removes s _ => s.dbg.process.state ≠ .running
  | .discards s id => (s.dbg.breakpointIds[id]?).all
    (fun address => s.world.memory s.dbg.process.pid address ≠ some int3) = true

instance (start : Pid → Memory) (r : TableRecord) : Decidable (r.Harmless start) := by
  cases r <;> unfold TableRecord.Harmless <;> infer_instance

/-- The table accounts for the planted bytes unless it has been changed harmfully. -/
def DeferredSession.Kept (start : Pid → Memory) (s : DeferredSession) : Prop :=
  (∀ r ∈ s.records, r.Harmless start) → s.session.Kept start

section Commands

variable {start : Pid → Memory} {modules : Modules} {tracees : Tracees} {α : Type}

abbrev KeepsTable (start : Pid → Memory) (x : DeferredAct α) : Prop :=
  Preserves (DeferredSession.Kept start) x

theorem keeps_debugger {x : Act α} (hx : ∀ s : Session, s.Kept start → wp x (keeping start) s) :
    KeepsTable start (debugger x) := by
  intro s hs
  rw [debugger, wp_zoom]
  by_cases hall : ∀ r ∈ s.records, r.Harmless start
  · exact wp_mono (hx _ (hs hall)) (fun _ _ ht _ => ht) (fun _ _ ht _ => ht) fun _ _ _ => trivial
  · exact wp_mono (wp_trivial x _) (fun _ _ _ h => absurd h hall) (fun _ _ _ h => absurd h hall)
      fun _ _ _ => trivial

/-- A change of the table that keeps the account if it is harmless. -/
theorem keeps_recorded {r : Session → TableRecord} {x : Act α}
    (hx : ∀ s : Session, s.Kept start → (r s).Harmless start → wp x (keeping start) s) :
    KeepsTable start (record r >>= fun _ => debugger x) := by
  intro s hs
  simp only [record, debugger, wp_bind, wp_update, wp_zoom]
  by_cases hall : ∀ q ∈ r s.session :: s.records, q.Harmless start
  · have hkept := hs fun q hq => hall q (List.mem_cons_of_mem _ hq)
    exact wp_mono (hx _ hkept (hall _ List.mem_cons_self)) (fun _ _ ht _ => ht)
      (fun _ _ ht _ => ht) fun _ _ _ => trivial
  · exact wp_mono (wp_trivial x _) (fun _ _ _ h => absurd h hall) (fun _ _ _ h => absurd h hall)
      fun _ _ _ => trivial

theorem keeps_arm (address : Addr) : KeepsTable start (arm address) :=
  keeps_recorded fun _ hs hrecord => keeps_addBreakpoint hs hrecord

theorem keeps_disarm (id : Nat) : KeepsTable start (disarm id) :=
  keeps_recorded fun _ hs hrecord => keeps_removeBreakpoint hs hrecord

theorem keeps_discard (id : Nat) : KeepsTable start (discard id) :=
  keeps_recorded fun _ hs hrecord => keeps_discardBreakpoint hs fun _ ha => by
    simpa [TableRecord.Harmless, ha] using hrecord

theorem keeps_view {f : Debugger → α} : KeepsTable start (debugger (view f)) :=
  keeps_debugger fun _ hs => hs

theorem keeps_consult (f : Session → Except Exception α) : KeepsTable start (consult f) := by
  refine (Preserves.read _).bind fun r => ?_
  cases r with
  | ok a => exact Preserves.pure a
  | error e => exact Preserves.raise e

namespace DeferredBreakpoints

theorem keeps_get (f : DeferredBreakpoints → α) : KeepsTable start (get f) := Preserves.read _

theorem keeps_modify (f : DeferredBreakpoints → DeferredBreakpoints) :
    KeepsTable start (modify f) := Preserves.update fun _ hs => hs

theorem keeps_runtimeAddress (a : Word) : KeepsTable start (runtimeAddress modules a) :=
  (keeps_consult _).bind fun _ => Preserves.check (Preserves.pure _)

theorem keeps_read (address : Addr) (length : Nat) :
    KeepsTable start (debugger (readMemory address length)) :=
  keeps_debugger fun _ hs => keeps_readMemory hs

theorem keeps_currentRDebugAddress : KeepsTable start (currentRDebugAddress modules) :=
  (keeps_get _).bind fun _ => (keeps_runtimeAddress _).bind fun _ =>
    ((keeps_read _ _).bind fun _ => Preserves.check (Preserves.pure _)).bind fun _ =>
      Preserves.pure _

theorem keeps_readRDebug (address : Addr) (what : String) :
    KeepsTable start (readRDebug address what) :=
  (keeps_read _ _).bind fun _ => Preserves.check (Preserves.pure _)

theorem keeps_currentLoaderBreakAddress : KeepsTable start currentLoaderBreakAddress := by
  refine (keeps_get _).bind fun address => ?_
  cases address with
  | none => exact Preserves.raise _
  | some address =>
    exact (keeps_readRDebug _ _).bind fun _ => Preserves.check (Preserves.pure _)

theorem keeps_loaderStateIsConsistent : KeepsTable start loaderStateIsConsistent := by
  refine (keeps_get _).bind fun address => ?_
  cases address with
  | none => exact Preserves.pure _
  | some address => exact (keeps_readRDebug _ _).bind fun _ => Preserves.pure _

theorem keeps_resolveTarget (target : DeferredBreakpointTarget) :
    KeepsTable start (resolveTarget modules target) := keeps_consult _

theorem keeps_tryInstallLoaderBreakpoint :
    KeepsTable start (tryInstallLoaderBreakpoint modules) := by
  refine keeps_currentRDebugAddress.bind fun address => ?_
  cases address with
  | none => exact Preserves.pure _
  | some address =>
    exact (keeps_modify _).bind fun _ => keeps_currentLoaderBreakAddress.bind fun _ =>
      (keeps_modify _).bind fun _ => (keeps_arm _).bind fun _ => (keeps_modify _).bind fun _ =>
        Preserves.pure _

theorem keeps_installBootstrapBreakpoint :
    KeepsTable start (installBootstrapBreakpoint modules) :=
  (keeps_get _).bind fun _ => (keeps_runtimeAddress _).bind fun _ => (keeps_modify _).bind fun _ =>
    (keeps_arm _).bind fun _ => keeps_modify _

theorem keeps_ensureMonitoring : KeepsTable start (ensureMonitoring modules) := by
  refine (keeps_get _).bind fun d => Preserves.ite (Preserves.pure _) ?_
  exact keeps_tryInstallLoaderBreakpoint.bind fun _ =>
    Preserves.ite keeps_installBootstrapBreakpoint (Preserves.pure _)

theorem keeps_removeInternalBreakpoint (id : Option Nat)
    (reset : DeferredBreakpoints → DeferredBreakpoints) :
    KeepsTable start (removeInternalBreakpoint id reset) := by
  cases id with
  | none => exact keeps_modify _
  | some id =>
    refine Preserves.bind (Preserves.handle ?_ fun _ => Preserves.pure _) fun _ => keeps_modify _
    exact keeps_view.bind fun _ =>
      Preserves.ite ((keeps_disarm _).bind fun _ => Preserves.pure _) (Preserves.pure _)

theorem keeps_removeLoaderBreakpoint : KeepsTable start removeLoaderBreakpoint :=
  (keeps_get _).bind fun _ => keeps_removeInternalBreakpoint _ _

theorem keeps_removeBootstrapBreakpoint : KeepsTable start removeBootstrapBreakpoint :=
  (keeps_get _).bind fun _ => keeps_removeInternalBreakpoint _ _

theorem keeps_suspendMonitoring : KeepsTable start suspendMonitoring :=
  keeps_removeLoaderBreakpoint.bind fun _ => keeps_removeBootstrapBreakpoint

theorem keeps_stopMonitoringIfIdle : KeepsTable start stopMonitoringIfIdle :=
  (keeps_get _).bind fun _ => Preserves.ite
    (keeps_suspendMonitoring.bind fun _ => keeps_modify _) (Preserves.pure _)

theorem keeps_store (request : DeferredBreakpoint) : KeepsTable start (store request) :=
  keeps_modify _

/-- Giving a request up again. -/
theorem keeps_forget (requestId : Nat) (id : Option Nat) {x : DeferredAct α}
    (hx : KeepsTable start x) :
    KeepsTable start (do
      match id with
      | some id =>
        let _ ← disarm id
      | none => pure ()
      modify fun d => { d with requests := d.requests.erase requestId }
      x) := by
  cases id with
  | none => exact (keeps_modify _).bind fun _ => hx
  | some id => exact (keeps_disarm _).bind fun _ => (keeps_modify _).bind fun _ => hx

theorem keeps_addTarget (target : DeferredBreakpointTarget) :
    KeepsTable start (addTarget modules target) := by
  have rest : ∀ (requestId : Nat) (request : DeferredBreakpoint),
      KeepsTable start (do
        store request
        handle (ensureMonitoring modules) (fun e => do
          match request.breakpointId with
          | some id =>
            let _ ← disarm id
          | none => pure ()
          modify fun d => { d with requests := d.requests.erase requestId }
          raise e)
        return requestId) := fun requestId request =>
    (keeps_store _).bind fun _ => (Preserves.handle keeps_ensureMonitoring fun e =>
      keeps_forget _ _ (Preserves.raise e)).bind fun _ => Preserves.pure _
  refine keeps_view.bind fun _ => Preserves.check ?_
  refine (keeps_get _).bind fun d => Preserves.check ?_
  refine (keeps_modify _).bind fun _ => (keeps_resolveTarget _).bind fun resolved => ?_
  cases resolved with
  | none => exact rest _ _
  | some address => exact (keeps_arm _).bind fun _ => rest _ _

theorem keeps_addSymbol (symbol : String) : KeepsTable start (addSymbol modules symbol) :=
  Preserves.check (keeps_addTarget _)

theorem keeps_addSource (file : String) (line : Nat) :
    KeepsTable start (addSource modules file line) :=
  Preserves.check (Preserves.check (keeps_addTarget _))

theorem keeps_remove (requestId : Nat) : KeepsTable start (remove requestId) := by
  refine (keeps_get _).bind fun requests => ?_
  cases requests[requestId]? with
  | none => exact Preserves.pure _
  | some request =>
    have rest : KeepsTable start (do
        modify fun d => { d with requests := d.requests.erase requestId }
        stopMonitoringIfIdle
        return true) :=
      (keeps_modify _).bind fun _ => keeps_stopMonitoringIfIdle.bind fun _ => Preserves.pure _
    cases hid : request.breakpointId with
    | none => simpa only [hid] using rest
    | some id =>
      simp only [hid]
      exact (keeps_disarm _).bind fun _ => Preserves.check rest

theorem keeps_dropStale (request : DeferredBreakpoint) (id : Nat) :
    KeepsTable start (dropStale request id) :=
  (keeps_discard _).bind fun _ => Preserves.check (keeps_store _)

theorem keeps_armRequest (request : DeferredBreakpoint) (resolved : Option Addr) :
    KeepsTable start (armRequest request resolved) := by
  cases resolved with
  | none => exact Preserves.pure _
  | some address =>
    exact (keeps_store _).bind fun _ => (keeps_arm _).bind fun _ => keeps_store _

theorem keeps_reconcileRequest (request : DeferredBreakpoint) :
    KeepsTable start (reconcileRequest modules request) := by
  refine (keeps_resolveTarget _).bind fun resolved => ?_
  cases request.breakpointId with
  | none => exact keeps_armRequest _ _
  | some id =>
    cases request.address with
    | none => exact Preserves.raise _
    | some address =>
      exact Preserves.ite (Preserves.pure _)
        ((keeps_dropStale _ _).bind fun _ => keeps_armRequest _ _)

theorem keeps_reconcileRequests : KeepsTable start (reconcileRequests modules) :=
  (keeps_get _).bind fun _ => Preserves.forEach keeps_reconcileRequest _

theorem keeps_reconcileIfConsistent : KeepsTable start (reconcileIfConsistent modules) :=
  keeps_loaderStateIsConsistent.bind fun _ =>
    Preserves.ite keeps_reconcileRequests (Preserves.pure _)

theorem keeps_handleInternalStop (stop : StopInfo) :
    KeepsTable start (handleInternalStop modules stop) := by
  refine (keeps_get _).bind fun d => Preserves.ite ?_ (Preserves.ite ?_ (Preserves.raise _))
  · exact keeps_removeBootstrapBreakpoint.bind fun _ => keeps_tryInstallLoaderBreakpoint.bind
      fun _ => Preserves.check keeps_reconcileIfConsistent
  · exact keeps_reconcileIfConsistent

theorem keeps_continueLoop :
    ∀ n policy, KeepsTable start (continueLoop modules tracees n policy) := by
  intro n
  induction n with
  | zero => exact fun policy => keeps_view.bind fun _ => Preserves.block _
  | succ n ih =>
    intro policy
    refine (keeps_debugger fun _ hs => MiniDebugger.keeps_continueExecution hs).bind fun stop => ?_
    refine (keeps_get _).bind fun _ => Preserves.ite ?_ ?_
    · exact keeps_suspendMonitoring.bind fun _ => Preserves.pure _
    · exact (keeps_handleInternalStop _).bind fun _ => ih _

theorem keeps_continueExecution (policy : SignalPolicy) :
    KeepsTable start (continueExecution modules tracees policy) :=
  keeps_ensureMonitoring.bind fun _ => (Preserves.read _).bind fun _ => keeps_continueLoop _ _

end DeferredBreakpoints

end Commands

/-! ## Runs -/

/-- What the user can ask for while deferred breakpoints are in use. -/
inductive DeferredOperation where
  | addSymbol (symbol : String)
  | addSource (file : String) (line : Nat)
  | remove (requestId : Nat)
  | continueExecution (policy : SignalPolicy)
  /-- Destroy the controller and make a new one. -/
  | renew (metadata : LoaderMetadata)
  | addBreakpoint (address : Addr)
  | removeBreakpoint (id : Nat)
  | addWriteWatchpoint (address : Addr) (length : Nat)
  | removeWatchpoint (id : Nat)
  | resume (policy : SignalPolicy)
  | singleStep (policy : SignalPolicy)
  | selectThread (tid : Pid)

def DeferredOperation.run (modules : Modules) (tracees : Tracees) :
    DeferredOperation → DeferredAct Unit
  | .addSymbol symbol => (fun _ => ()) <$> DeferredBreakpoints.addSymbol modules symbol
  | .addSource file line => (fun _ => ()) <$> DeferredBreakpoints.addSource modules file line
  | .remove requestId => (fun _ => ()) <$> DeferredBreakpoints.remove requestId
  | .continueExecution policy =>
    (fun _ => ()) <$> DeferredBreakpoints.continueExecution modules tracees policy
  | .renew metadata => do
    DeferredBreakpoints.suspendMonitoring
    DeferredBreakpoints.modify fun _ => { metadata }
  | .addBreakpoint address => (fun _ => ()) <$> arm address
  | .removeBreakpoint id => (fun _ => ()) <$> disarm id
  | .addWriteWatchpoint address length =>
    (fun _ => ()) <$> debugger (MiniDebugger.addWriteWatchpoint address length)
  | .removeWatchpoint id => (fun _ => ()) <$> debugger (MiniDebugger.removeWatchpoint id)
  | .resume policy => (fun _ => ()) <$> debugger (MiniDebugger.continueExecution tracees policy)
  | .singleStep policy => (fun _ => ()) <$> debugger (MiniDebugger.singleStep tracees policy)
  | .selectThread tid => debugger (MiniDebugger.selectThread tid)

/-- The session an operation meets. -/
def DeferredSession.facing (s : DeferredSession) (script : List Wakeup)
    (faults : List (Option Nat)) : DeferredSession :=
  { s with session := s.session.facing script faults }

/-- A session reached from a launched or attached process with this memory. -/
inductive DeferredRun (modules : Modules) (tracees : Tracees) :
    (Pid → Memory) → DeferredSession → Prop
  | start {s : Session} (metadata : LoaderMetadata) (h : Started s) :
    DeferredRun modules tracees s.world.memory ⟨{ metadata }, s, []⟩
  | returned {start : Pid → Memory} {s t : DeferredSession} {op : DeferredOperation}
    {script : List Wakeup} {faults : List (Option Nat)} (h : DeferredRun modules tracees start s)
    (hrun : op.run modules tracees (s.facing script faults) = .returned () t) :
    DeferredRun modules tracees start t
  | raised {start : Pid → Memory} {s t : DeferredSession} {op : DeferredOperation}
    {script : List Wakeup} {faults : List (Option Nat)} {e : Exception}
    (h : DeferredRun modules tracees start s)
    (hrun : op.run modules tracees (s.facing script faults) = .raised e t) :
    DeferredRun modules tracees start t

section Runs

variable {start : Pid → Memory} {modules : Modules} {tracees : Tracees} {s : DeferredSession}

theorem keeps_operation (op : DeferredOperation) :
    KeepsTable start (op.run modules tracees) := by
  have done : ∀ {α : Type} {x : DeferredAct α}, KeepsTable start x →
      KeepsTable start ((fun _ => ()) <$> x) := fun hx s hs => by
    rw [wp_map]
    exact hx s hs
  cases op with
  | addSymbol symbol => exact done (DeferredBreakpoints.keeps_addSymbol _)
  | addSource file line => exact done (DeferredBreakpoints.keeps_addSource _ _)
  | remove requestId => exact done (DeferredBreakpoints.keeps_remove _)
  | continueExecution policy => exact done (DeferredBreakpoints.keeps_continueExecution _)
  | renew metadata =>
    exact DeferredBreakpoints.keeps_suspendMonitoring.bind fun _ =>
      DeferredBreakpoints.keeps_modify _
  | addBreakpoint address => exact done (keeps_arm _)
  | removeBreakpoint id => exact done (keeps_disarm _)
  | addWriteWatchpoint address length =>
    exact done (keeps_debugger fun _ hs => keeps_addWriteWatchpoint hs)
  | removeWatchpoint id => exact done (keeps_debugger fun _ hs => keeps_removeWatchpoint hs)
  | resume policy => exact done (keeps_debugger fun _ hs => keeps_continueExecution hs)
  | singleStep policy => exact done (keeps_debugger fun _ hs => keeps_singleStep hs)
  | selectThread tid => exact keeps_debugger fun _ hs => keeps_selectThread hs

theorem DeferredSession.Kept.facing (h : s.Kept start) (script : List Wakeup)
    (faults : List (Option Nat)) : (s.facing script faults).Kept start := fun hall =>
  ⟨(h hall).policy, (h hall).alone, (h hall).group, (h hall).accounted⟩

theorem DeferredRun.kept (h : DeferredRun modules tracees start s) : s.Kept start := by
  induction h with
  | start metadata h => exact fun _ => kept_started h
  | returned _ hrun ih => exact wp_returned (keeps_operation _ _ (ih.facing _ _)) hrun
  | raised _ hrun ih => exact wp_raised (keeps_operation _ _ (ih.facing _ _)) hrun

/-- The table accounts for every `INT3` of the debugger as long as no breakpoint is discarded while
its `INT3` is still there, none is removed from a running process and none is armed over an `INT3`
of the tracee. -/
theorem deferred_int3_accounted (h : DeferredRun modules tracees start s)
    (hharmless : ∀ r ∈ s.records, r.Harmless start) (hlive : s.session.dbg.process.live) :
    Accounted s.session.dbg.breakpointsByAddress
      (s.session.world.memory s.session.dbg.process.pid)
      (ownMemory start s.session.history s.session.dbg.process.pid) :=
  (h.kept hharmless).accounted hlive

end Runs

/-! ## A plugin whose file is gone -/

/-- The session after an operation. -/
def DeferredSession.after (s : DeferredSession) (modules : Modules) (op : DeferredOperation)
    (script : List Wakeup) : DeferredSession :=
  (op.run modules anyTracees (s.facing script [])).state

theorem DeferredRun.after {modules : Modules} {start : Pid → Memory} {s : DeferredSession}
    (h : DeferredRun modules anyTracees start s) (op : DeferredOperation) (script : List Wakeup)
    (hrun : (op.run modules anyTracees (s.facing script [])).call? = none) :
    DeferredRun modules anyTracees start (s.after modules op script) := by
  unfold DeferredSession.after
  cases ho : op.run modules anyTracees (s.facing script []) with
  | returned r t => exact h.returned ho
  | raised e t => exact h.raised ho
  | blocked w t => rw [ho] at hrun; cases hrun

namespace Plugin

/-- A zeroed memory, but for a `DT_DEBUG` slot at `0x2000`, which points to an `r_debug` at `0x3000`
with `r_brk` at `0x4000`. -/
def memory : Memory := fun a =>
  some (if a = 0x2001 then 0x30 else if a = 0x3000 then 1 else if a = 0x3011 then 0x40 else 0)

/-- The plugin has a function `target` at `0x10100`. -/
def files : SymbolFiles where
  sameFile left right := decide (left = right)
  elf path :=
    if path = "/opt/plugin.so" then
      .ok (⟨path, path, .dyn, 0⟩, [⟨"target", 0x100, 16, sttFunc, stbGlobal⟩])
    else .error (.runtimeError "failed to open file")

/-- The process with these lines in `/proc/<pid>/maps`. -/
def tracee (s : Session) (lines : List MapsLine) : Tracee where
  state := s.dbg.process.state
  pid := s.dbg.process.pid
  activeTid := s.dbg.process.currentTid
  stopSequence := s.sequence
  registers := s.world.regs s.dbg.process.currentTid
  readMemory _ _ := .ok []
  maps := some lines

/-- Once the tracee has run, the plugin is mapped as the given lines say. -/
def modules (later : List MapsLine) : Modules where
  loadBias _ := .ok 0
  findModuleSymbolByName s name :=
    (tracee s (if s.history.isEmpty then [⟨0x10000, 0x11000, 0, "/opt/plugin.so"⟩]
      else later)).findModuleSymbolByName files (⟨"/opt/main", "/opt/main", .exec, 0⟩, []) name
  findModuleSourceByFileLine _ _ _ := .ok none

/-- A request for `target`, a stop in the loader after which the memory has changed, and a signal. -/
def session (later : List MapsLine) (effect : Memory → Memory) : DeferredSession :=
  ((DeferredSession.mk { metadata := ⟨0x1000, 0x2000⟩ } (Session.launch 10 memory {}) []).after
    (modules later) (.addSymbol "target") []).after (modules later) (.continueExecution .suppress)
      [.report { tid := 10, status := .stopped sigtrap .none, cause := .int3 0x4000
                 regs := { rip := 0x4001 }, effect },
       .report { tid := 10, status := .stopped sigtrap .none, cause := .step },
       .report { tid := 10, status := .stopped 10 .none }]

/-- The pages of the plugin go away. -/
def unload : Memory → Memory := fun m a => if 0x10000 ≤ a ∧ a < 0x11000 then none else m a

/-- The lines of an unlinked plugin. -/
def unlinked : List MapsLine := [⟨0x10000, 0x11000, 0, "/opt/plugin.so (deleted)"⟩]

theorem run (later : List MapsLine) (effect : Memory → Memory)
    (hrequest : (((DeferredOperation.addSymbol "target").run (modules later) anyTracees)
      (DeferredSession.facing ⟨{ metadata := ⟨0x1000, 0x2000⟩ }, Session.launch 10 memory {}, []⟩
        [] [])).call? = none)
    (hcontinue : (((DeferredOperation.continueExecution .suppress).run (modules later) anyTracees)
      (((DeferredSession.mk { metadata := ⟨0x1000, 0x2000⟩ }
        (Session.launch 10 memory {}) []).after (modules later) (.addSymbol "target") []).facing
        [.report { tid := 10, status := .stopped sigtrap .none, cause := .int3 0x4000
                   regs := { rip := 0x4001 }, effect },
         .report { tid := 10, status := .stopped sigtrap .none, cause := .step },
         .report { tid := 10, status := .stopped 10 .none }] [])).call? = none) :
    DeferredRun (modules later) anyTracees (fun _ => memory) (session later effect) :=
  ((DeferredRun.start _ (started_launch (by decide) _ _)).after _ _ hrequest).after _ _ hcontinue

end Plugin

/-- Unloading the plugin: its breakpoint is discarded after its pages have gone. -/
theorem deferred_int3_accounted_unloaded :
    Accounted (Plugin.session [] Plugin.unload).session.dbg.breakpointsByAddress
        ((Plugin.session [] Plugin.unload).session.world.memory
          (Plugin.session [] Plugin.unload).session.dbg.process.pid)
        (ownMemory (fun _ => Plugin.memory) (Plugin.session [] Plugin.unload).session.history
          (Plugin.session [] Plugin.unload).session.dbg.process.pid) ∧
      (Plugin.session [] Plugin.unload).session.world.memory 10 0x10100 = none :=
  ⟨deferred_int3_accounted (Plugin.run _ _ (by decide +kernel) (by decide +kernel))
    (by decide +kernel) (by decide +kernel), by decide +kernel⟩

/-- The file of the plugin has been unlinked, but its pages are still mapped: the lookup fails, the
breakpoint is discarded and its `INT3` stays behind. -/
theorem unlinked_plugin_keeps_int3 :
    ¬∀ (modules : Modules) (start : Pid → Memory) (s : DeferredSession),
      DeferredRun modules anyTracees start s → s.session.dbg.process.live →
      Accounted s.session.dbg.breakpointsByAddress
        (s.session.world.memory s.session.dbg.process.pid)
        (ownMemory start s.session.history s.session.dbg.process.pid) := by
  intro h
  have hrun := Plugin.run Plugin.unlinked id (by decide +kernel)
    (by decide +kernel)
  obtain ⟨bp, hbp, -⟩ := (h _ _ _ hrun (by decide +kernel)).owned 0x10100
    ⟨by decide +kernel, by decide +kernel⟩
  exact absurd (Option.isSome_of_eq_some hbp) (by decide +kernel)

end MiniDebugger
