import MiniDebugger.Dwarf.Reader
import MiniDebugger.Debugger.Runs

/-!
# Deferred breakpoints

`DeferredBreakpoints` keeps requests for breakpoints in modules that may not be loaded yet. It stops
the dynamic loader with a breakpoint of its own whenever the list of modules changes and then looks
every request up again: `reconcileRequests` arms what has appeared and forgets what has gone.

What the lookups find depends on files and on `/proc/<pid>/maps`, which are not part of the model of
the kernel; `Modules` gives their answers in every session.
-/

namespace MiniDebugger

open Command
open Std (ExtTreeMap)

inductive DeferredBreakpointTargetKind where
  | symbol | source
  deriving DecidableEq, Repr

/-- Equality of targets is `same_target`. -/
structure DeferredBreakpointTarget where
  kind : DeferredBreakpointTargetKind
  name : String
  line : Nat := 0
  deriving DecidableEq, Repr

structure DeferredBreakpoint where
  requestId : Nat
  target : DeferredBreakpointTarget
  breakpointId : Option Nat := none
  address : Option Addr := none
  deriving DecidableEq, Repr

/-- `LoaderMetadata`, as `read_loader_metadata` reads it from the executable. -/
structure LoaderMetadata where
  entryVirtualAddress : Word
  dtDebugValueVirtualAddress : Word

structure DeferredBreakpoints where
  metadata : LoaderMetadata
  requests : ExtTreeMap Nat DeferredBreakpoint := ∅
  nextRequestId : Nat := 1
  rDebugAddress : Option Addr := none
  bootstrapBreakpointId : Option Nat := none
  bootstrapBreakpointAddress : Option Addr := none
  loaderBreakpointId : Option Nat := none
  loaderBreakpointAddress : Option Addr := none

/-- What the files and mappings of the active process answer. -/
structure Modules where
  /-- `executable_.load_bias(debugger_.pid())` -/
  loadBias : Session → Except Exception Word
  findModuleSymbolByName : Session → String → Except Exception (Option Addr)
  findModuleSourceByFileLine : Session → String → Nat → Except Exception (Option Addr)

/-- A change of the breakpoint table that `DeferredBreakpoints` is about to ask for. -/
inductive TableRecord where
  | arms (s : Session) (address : Addr)
  | removes (s : Session) (id : Nat)
  | discards (s : Session) (id : Nat)

structure DeferredSession where
  deferred : DeferredBreakpoints
  session : Session
  /-- What was asked of the breakpoint table so far, latest first. The code cannot read it. -/
  records : List TableRecord := []

abbrev DeferredAct := Command WaitCall Exception DeferredSession

/-- A call of the debugger. -/
def debugger {α : Type} (x : Act α) : DeferredAct α :=
  zoom (·.session) (fun s t => { s with session := t }) x

/-- A lookup in the files and mappings. -/
def consult {α : Type} (f : Session → Except Exception α) : DeferredAct α := do
  match ← read fun s => f s.session with
  | .ok a => return a
  | .error e => raise e

def record (f : Session → TableRecord) : DeferredAct Unit :=
  update fun s => { s with records := f s.session :: s.records }

/-- `debugger_.add_breakpoint(address)` -/
def arm (address : Addr) : DeferredAct Nat := do
  record (.arms · address)
  debugger (addBreakpoint address)

/-- `debugger_.remove_breakpoint(id)` -/
def disarm (id : Nat) : DeferredAct Bool := do
  record (.removes · id)
  debugger (removeBreakpoint id)

/-- `debugger_.discard_breakpoint(id)` -/
def discard (id : Nat) : DeferredAct Bool := do
  record (.discards · id)
  debugger (discardBreakpoint id)

/-- `sizeof(r_debug)` -/
def rDebugSize : Nat := 40

/-- `rendezvous.r_version`, a signed `int` -/
def rVersion (bytes : List Byte) : Int := (BitVec.ofNat 32 (littleEndian (bytes.take 4))).toInt

/-- `rendezvous.r_brk` -/
def rBrk (bytes : List Byte) : Addr := BitVec.ofNat 64 (littleEndian ((bytes.drop 16).take 8))

/-- `rendezvous.r_state` -/
def rState (bytes : List Byte) : Nat := littleEndian ((bytes.drop 24).take 4)

/-- `RT_CONSISTENT` -/
def rtConsistent : Nat := 0

namespace DeferredBreakpoints

def get {α : Type} (f : DeferredBreakpoints → α) : DeferredAct α := read fun s => f s.deferred

def modify (f : DeferredBreakpoints → DeferredBreakpoints) : DeferredAct Unit :=
  update fun s => { s with deferred := f s.deferred }

def runtimeAddress (modules : Modules) (virtualAddress : Word) : DeferredAct Addr := do
  let bias ← consult modules.loadBias
  if 2 ^ 64 - 1 - bias.toNat < virtualAddress.toNat then
    raise (.runtimeError "loader runtime address overflows address space")
  return bias + virtualAddress

def readU64 (address : Addr) : DeferredAct Word := do
  let bytes ← debugger (readMemory address 8)
  if bytes.length ≠ 8 then raise (.runtimeError "failed to read loader pointer from tracee")
  return BitVec.ofNat 64 (littleEndian bytes)

def currentRDebugAddress (modules : Modules) : DeferredAct (Option Addr) := do
  let slot ← runtimeAddress modules (← get (·.metadata.dtDebugValueVirtualAddress))
  let value ← readU64 slot
  return if value = 0 then none else some value

/-- The bytes of `r_debug`. -/
def readRDebug (address : Addr) (what : String) : DeferredAct (List Byte) := do
  let bytes ← debugger (readMemory address rDebugSize)
  if bytes.length ≠ rDebugSize then raise (.runtimeError what)
  return bytes

def currentLoaderBreakAddress : DeferredAct Addr := do
  match ← get (·.rDebugAddress) with
  | none => raise (.logicError "r_debug address is not initialized")
  | some address =>
    let rendezvous ← readRDebug address "failed to read r_debug rendezvous"
    if rVersion rendezvous ≤ 0 ∨ rBrk rendezvous = 0 then
      raise (.runtimeError "dynamic loader rendezvous is not initialized")
    return rBrk rendezvous

def loaderStateIsConsistent : DeferredAct Bool := do
  match ← get (·.rDebugAddress) with
  | none => return false
  | some address =>
    let rendezvous ← readRDebug address "failed to read r_debug state"
    return decide (rState rendezvous = rtConsistent)

def resolveTarget (modules : Modules) (target : DeferredBreakpointTarget) :
    DeferredAct (Option Addr) :=
  consult fun s => match target.kind with
    | .symbol => modules.findModuleSymbolByName s target.name
    | .source => modules.findModuleSourceByFileLine s target.name target.line

/-! ## The breakpoint in the loader -/

def tryInstallLoaderBreakpoint (modules : Modules) : DeferredAct Bool := do
  match ← currentRDebugAddress modules with
  | none => return false
  | some address =>
    modify ({ · with rDebugAddress := some address })
    let loaderBreak ← currentLoaderBreakAddress
    modify ({ · with loaderBreakpointAddress := some loaderBreak })
    let id ← arm loaderBreak
    modify ({ · with loaderBreakpointId := some id })
    return true

def installBootstrapBreakpoint (modules : Modules) : DeferredAct Unit := do
  let entry ← runtimeAddress modules (← get (·.metadata.entryVirtualAddress))
  modify ({ · with bootstrapBreakpointAddress := some entry })
  let id ← arm entry
  modify ({ · with bootstrapBreakpointId := some id })

def ensureMonitoring (modules : Modules) : DeferredAct Unit := do
  let d ← get id
  if d.requests.isEmpty ∨ d.loaderBreakpointId.isSome ∨ d.bootstrapBreakpointId.isSome then
    return ()
  if !(← tryInstallLoaderBreakpoint modules) then installBootstrapBreakpoint modules

/-- Take the breakpoint away if the process is stopped; `reset` clears its two fields. -/
def removeInternalBreakpoint (id : Option Nat)
    (reset : DeferredBreakpoints → DeferredBreakpoints) : DeferredAct Unit := do
  match id with
  | none => modify reset
  | some id =>
    handle
      (do
        if (← debugger (view (·.process.state))) = .stopped then
          let _ ← disarm id)
      (fun _ => pure ())
    modify reset

def removeLoaderBreakpoint : DeferredAct Unit := do
  removeInternalBreakpoint (← get (·.loaderBreakpointId))
    ({ · with loaderBreakpointId := none, loaderBreakpointAddress := none })

def removeBootstrapBreakpoint : DeferredAct Unit := do
  removeInternalBreakpoint (← get (·.bootstrapBreakpointId))
    ({ · with bootstrapBreakpointId := none, bootstrapBreakpointAddress := none })

def suspendMonitoring : DeferredAct Unit := do
  removeLoaderBreakpoint
  removeBootstrapBreakpoint

def stopMonitoringIfIdle : DeferredAct Unit := do
  if (← get (·.requests)).isEmpty then
    suspendMonitoring
    modify ({ · with rDebugAddress := none })

/-! ## Requests -/

/-- Write a request back into `requests_`. -/
def store (request : DeferredBreakpoint) : DeferredAct Unit :=
  modify fun d => { d with requests := d.requests.insert request.requestId request }

def addTarget (modules : Modules) (target : DeferredBreakpointTarget) : DeferredAct Nat := do
  if (← debugger (view (·.process.state))) ≠ .stopped then
    raise (.logicError "deferred breakpoints can only be modified while stopped")
  let d ← get id
  if d.requests.toList.any (fun entry => entry.2.target = target) then
    raise (.invalidArgument "a deferred breakpoint request already exists for that target")
  let requestId := d.nextRequestId
  modify ({ · with nextRequestId := requestId + 1 })
  let request : DeferredBreakpoint ← do
    match ← resolveTarget modules target with
    | none => pure { requestId, target }
    | some address =>
      let id ← arm address
      pure { requestId, target, breakpointId := some id, address := some address }
  store request
  handle (ensureMonitoring modules) (fun e => do
    match request.breakpointId with
    | some id =>
      let _ ← disarm id
    | none => pure ()
    modify fun d => { d with requests := d.requests.erase requestId }
    raise e)
  return requestId

def addSymbol (modules : Modules) (symbol : String) : DeferredAct Nat := do
  if symbol.isEmpty then raise (.invalidArgument "deferred symbol must not be empty")
  addTarget modules { kind := .symbol, name := symbol }

def addSource (modules : Modules) (file : String) (line : Nat) : DeferredAct Nat := do
  if file.isEmpty then raise (.invalidArgument "deferred source file must not be empty")
  if line = 0 then raise (.invalidArgument "deferred source line must be non-zero")
  addTarget modules { kind := .source, name := file, line }

def remove (requestId : Nat) : DeferredAct Bool := do
  match (← get (·.requests))[requestId]? with
  | none => return false
  | some request =>
    match request.breakpointId with
    | some id =>
      if !(← disarm id) then
        raise (.logicError "resolved deferred breakpoint disappeared from debugger state")
    | none => pure ()
    modify fun d => { d with requests := d.requests.erase requestId }
    stopMonitoringIfIdle
    return true

/-- Forget the breakpoint of a request whose target is no longer where it was. -/
def dropStale (request : DeferredBreakpoint) (id : Nat) : DeferredAct Unit := do
  if !(← discard id) then
    raise (.logicError "stale deferred breakpoint disappeared from debugger state")
  store { request with breakpointId := none, address := none }

/-- Arm a request at the address its target resolved to. -/
def armRequest (request : DeferredBreakpoint) (resolved : Option Addr) : DeferredAct Unit := do
  match resolved with
  | none => return ()
  | some address =>
    let request := { request with breakpointId := none, address := some address }
    store request
    let id ← arm address
    store { request with breakpointId := some id }

/-- The loop body of `reconcile_requests`. -/
def reconcileRequest (modules : Modules) (request : DeferredBreakpoint) : DeferredAct Unit := do
  let resolved ← resolveTarget modules request.target
  match request.breakpointId with
  | none => armRequest request resolved
  | some id =>
    match request.address with
    | none => raise (.logicError "resolved deferred breakpoint has no address")
    | some address =>
      if resolved = some address then return ()
      dropStale request id
      armRequest request resolved

def reconcileRequests (modules : Modules) : DeferredAct Unit := do
  let requests ← get (·.requests)
  forEach (reconcileRequest modules) (requests.toList.map (·.2))

/-! ## Continuing -/

def isInternalStop (d : DeferredBreakpoints) (stop : StopInfo) : Bool :=
  stop.reason = .breakpoint && stop.breakpointAddress.any fun address =>
    d.bootstrapBreakpointAddress = some address || d.loaderBreakpointAddress = some address

/-- `if (loader_state_is_consistent()) reconcile_requests();` -/
def reconcileIfConsistent (modules : Modules) : DeferredAct Unit := do
  if ← loaderStateIsConsistent then reconcileRequests modules

def handleInternalStop (modules : Modules) (stop : StopInfo) : DeferredAct Unit := do
  let d ← get id
  if d.bootstrapBreakpointAddress.isSome ∧
      stop.breakpointAddress = d.bootstrapBreakpointAddress then
    removeBootstrapBreakpoint
    if !(← tryInstallLoaderBreakpoint modules) then
      raise (.runtimeError "DT_DEBUG was not initialized before executable entry")
    reconcileIfConsistent modules
  else if d.loaderBreakpointAddress.isSome ∧
      stop.breakpointAddress = d.loaderBreakpointAddress then
    reconcileIfConsistent modules
  else raise (.logicError "attempted to handle a non-internal breakpoint stop")

/-- The loop of `continue_execution` with a bound on its passes. Every pass uses up a report. -/
def continueLoop (modules : Modules) (tracees : Tracees) : Nat → SignalPolicy →
    DeferredAct StopInfo
  | 0, _ => do block (← debugger (view (·.waitCall)))
  | n + 1, policy => do
    let stop ← debugger (MiniDebugger.continueExecution tracees policy)
    if !(← get (·.isInternalStop stop)) then
      suspendMonitoring
      return stop
    handleInternalStop modules stop
    continueLoop modules tracees n .suppress

def continueExecution (modules : Modules) (tracees : Tracees) (policy : SignalPolicy) :
    DeferredAct StopInfo := do
  ensureMonitoring modules
  let passes ← read fun s => s.session.script.length + 1
  continueLoop modules tracees passes policy

end DeferredBreakpoints

end MiniDebugger
