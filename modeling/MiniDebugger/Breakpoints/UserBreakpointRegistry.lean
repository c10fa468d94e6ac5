import MiniDebugger.Loader.DeferredBreakpoints

/-!
# The breakpoints of the user

`UserBreakpointRegistry` numbers the breakpoints a user sets and remembers, process by process, what
stands behind each: a breakpoint of the debugger, or a request that waits for a module to be loaded.
The command loop sets, lists and deletes them by number, and tells the registry when the image of
the active process has been replaced.
-/

namespace MiniDebugger

open Command
open Std (ExtTreeMap)

inductive UserBreakpointState where
  | pending | enabled | temporarilyRestored
  deriving DecidableEq, Repr

structure UserBreakpoint where
  id : Nat
  expression : String
  address : Option Addr := none
  state : UserBreakpointState
  deriving DecidableEq, Repr

inductive BackendKind where
  | managed | deferred
  deriving DecidableEq, Repr

/-- `UserBreakpointRegistry::Entry` -/
structure UserEntry where
  expression : String
  kind : BackendKind
  backendId : Nat
  deriving DecidableEq, Repr

/-- `UserBreakpointRegistry::DomainState`, what there is for one process. -/
structure DomainState where
  deferred : Option DeferredBreakpoints := none
  entries : ExtTreeMap Nat UserEntry := ∅

structure UserBreakpointRegistry where
  domains : ExtTreeMap Pid DomainState := ∅
  nextId : Nat := 1

structure UserSession where
  registry : UserBreakpointRegistry
  session : Session

abbrev UserAct := Command WaitCall Exception UserSession

namespace UserSession

/-- `debugger_.pid()` -/
def pid (u : UserSession) : Pid := u.session.dbg.process.pid

/-- `active_domain_if_present()` -/
def activeDomainIfPresent (u : UserSession) : Option DomainState := u.registry.domains[u.pid]?

def setDomain (u : UserSession) (pid : Pid) (domain : DomainState) : UserSession :=
  { u with registry := { u.registry with domains := u.registry.domains.insert pid domain } }

/-- `domains_[pid]`, which is there from now on. -/
def domain (u : UserSession) (pid : Pid) : DomainState := (u.registry.domains[pid]?).getD {}

end UserSession

namespace UserBreakpointRegistry

/-- A call of the debugger. -/
def onDebugger {α : Type} (x : Act α) : UserAct α :=
  zoom (·.session) (fun u t => { u with session := t }) x

/-- A call of the controller in the domain of `pid`, which is `c`. -/
def onDeferred {α : Type} (pid : Pid) (c : DeferredBreakpoints) (x : DeferredAct α) : UserAct α :=
  zoom (fun u => ⟨c, u.session, []⟩) (fun u t =>
    { u.setDomain pid { u.domain pid with deferred := some t.deferred } with session := t.session })
    x

/-- A lookup in the files and mappings. -/
def lookUp {α : Type} (f : Session → Except Exception α) : UserAct α := do
  match ← read fun u => f u.session with
  | .ok a => return a
  | .error e => raise e

/-- `next_id_++`, and the new entry in the domain of `pid`. -/
def emplace (pid : Pid) (entry : UserEntry) : UserAct Nat := do
  let id ← read (·.registry.nextId)
  update fun u => { u with registry := { u.registry with nextId := id + 1 } }
  update fun u => u.setDomain pid
    { u.domain pid with entries := (u.domain pid).entries.insertIfNew id entry }
  return id

/-! ## Setting -/

def addAddress (address : Addr) (expression : String) : UserAct Nat := do
  let backendId ← onDebugger (addBreakpoint address)
  emplace (← read (·.pid)) { expression, kind := .managed, backendId }

/-- `ensure_deferred(active_domain())`; `loaderMetadata` reads the executable. -/
def ensureDeferred (loaderMetadata : Session → Except Exception LoaderMetadata) (pid : Pid) :
    UserAct DeferredBreakpoints := do
  update fun u => u.setDomain pid (u.domain pid)
  match (← read (·.domain pid)).deferred with
  | some c => return c
  | none =>
    let metadata ← lookUp loaderMetadata
    let c : DeferredBreakpoints := { metadata }
    update fun u => u.setDomain pid { u.domain pid with deferred := some c }
    return c

/-- A breakpoint whose target has not been found; `add` makes the request. -/
def addDeferred (loaderMetadata : Session → Except Exception LoaderMetadata)
    (add : DeferredAct Nat) (expression : String) : UserAct Nat := do
  let pid ← read (·.pid)
  let c ← ensureDeferred loaderMetadata pid
  let backendId ← onDeferred pid c add
  emplace pid { expression, kind := .deferred, backendId }

section

variable (modules : Modules) (loaderMetadata : Session → Except Exception LoaderMetadata)

def addSymbol (symbol : String) : UserAct Nat := do
  if symbol.isEmpty then raise (.invalidArgument "breakpoint symbol must not be empty")
  match ← lookUp (modules.findModuleSymbolByName · symbol) with
  | some address => addAddress address symbol
  | none => addDeferred loaderMetadata (DeferredBreakpoints.addSymbol modules symbol) symbol

def addSource (file : String) (line : Nat) (expression : String) : UserAct Nat := do
  if file.isEmpty then raise (.invalidArgument "breakpoint source file must not be empty")
  if line = 0 then raise (.invalidArgument "breakpoint source line must be non-zero")
  match ← lookUp (modules.findModuleSourceByFileLine · file line) with
  | some address => addAddress address expression
  | none =>
    addDeferred loaderMetadata (DeferredBreakpoints.addSource modules file line) expression

end

/-! ## Deleting -/

def eraseEntry (pid : Pid) (id : Nat) : UserAct Unit :=
  update fun u => u.setDomain pid { u.domain pid with entries := (u.domain pid).entries.erase id }

/-- Take away what stands behind an entry. -/
def removeBackend (pid : Pid) (domain : DomainState) (entry : UserEntry) : UserAct Bool :=
  match entry.kind with
  | .managed => onDebugger (removeBreakpoint entry.backendId)
  | .deferred =>
    match domain.deferred with
    | none => raise (.logicError "deferred user breakpoint has no loader controller")
    | some c => onDeferred pid c (DeferredBreakpoints.remove entry.backendId)

def remove (id : Nat) : UserAct Bool := do
  let pid ← read (·.pid)
  match ← read (·.activeDomainIfPresent) with
  | none => return false
  | some domain =>
    match domain.entries[id]? with
    | none => return false
    | some entry =>
      if !(← removeBackend pid domain entry) then
        raise (.logicError "user breakpoint backend disappeared from registry ownership")
      eraseEntry pid id
      return true

/-- The destructor of the controller takes its breakpoints out of the loader. -/
def onImageReplaced : UserAct Unit := do
  let pid ← read (·.pid)
  match ← read (·.activeDomainIfPresent) with
  | none => return ()
  | some domain =>
    match domain.deferred with
    | none => pure ()
    | some c => onDeferred pid c DeferredBreakpoints.suspendMonitoring
    update fun u => u.setDomain pid {}

/-! ## Listing -/

/-- The state of a breakpoint of the debugger. -/
def managedState (bp : Breakpoint) : UserBreakpointState :=
  if bp.installed then .enabled else .temporarilyRestored

/-- `debugger_.breakpoints()`, searched for an id. -/
def findManaged (d : Debugger) (id : Nat) : Option Breakpoint :=
  (d.breakpointsByAddress.toList.map (·.2)).find? (·.id = id)

def snapshot (d : Debugger) (id : Nat) (entry : UserEntry) (domain : DomainState) :
    Except Exception UserBreakpoint :=
  match entry.kind with
  | .managed =>
    match findManaged d entry.backendId with
    | none =>
      .error (.logicError "managed breakpoint disappeared from user registry ownership")
    | some bp =>
      .ok
        { id
          expression := entry.expression
          address := some bp.address
          state := managedState bp }
  | .deferred =>
    match domain.deferred with
    | none => .error (.logicError "deferred user breakpoint has no loader controller")
    | some c =>
      match (c.requests.toList.map (·.2)).find? (·.requestId = entry.backendId) with
      | none =>
        .error (.logicError "deferred breakpoint disappeared from user registry ownership")
      | some request =>
        match request.breakpointId, request.address with
        | some backendId, some address =>
          match findManaged d backendId with
          | none => .error
              (.logicError "resolved deferred breakpoint disappeared from debugger ownership")
          | some bp => .ok
              { id
                expression := entry.expression
                address := some address
                state := managedState bp }
        | _, _ => .ok { id, expression := entry.expression, state := .pending }

def breakpoint (u : UserSession) (id : Nat) : Except Exception (Option UserBreakpoint) :=
  match u.activeDomainIfPresent with
  | none => .ok none
  | some domain =>
    match domain.entries[id]? with
    | none => .ok none
    | some entry => some <$> snapshot u.session.dbg id entry domain

def breakpoints (u : UserSession) : Except Exception (List UserBreakpoint) :=
  match u.activeDomainIfPresent with
  | none => .ok []
  | some domain =>
    domain.entries.toList.mapM fun entry => snapshot u.session.dbg entry.1 entry.2 domain

/-- The loop of `has_pending`, which stops at the first pending breakpoint. -/
def anyPending (d : Debugger) (domain : DomainState) :
    List (Nat × UserEntry) → Except Exception Bool
  | [] => .ok false
  | entry :: rest => do
    let bp ← snapshot d entry.1 entry.2 domain
    if bp.state = .pending then return true
    anyPending d domain rest

def hasPending (u : UserSession) : Except Exception Bool :=
  match u.activeDomainIfPresent with
  | none => .ok false
  | some domain => anyPending u.session.dbg domain domain.entries.toList

/-! ## The command loop -/

def continueExecution (modules : Modules) (tracees : Tracees) (policy : SignalPolicy) :
    UserAct StopInfo := do
  let pid ← read (·.pid)
  match (← read (·.activeDomainIfPresent)).bind (·.deferred) with
  | some c => onDeferred pid c (DeferredBreakpoints.continueExecution modules tracees policy)
  | none => onDebugger (MiniDebugger.continueExecution tracees policy)

/-- `refresh_image`, as far as the registry is concerned. -/
def refreshImage (info : StopInfo) : UserAct Unit := do
  if info.reason = .exec then onImageReplaced

end UserBreakpointRegistry

/-- What `break` is given, as `try_parse_address` and `try_parse_source_spec` tell it apart. -/
inductive BreakLocation where
  | address (value : Addr) (text : String)
  | source (file : String) (line : Nat) (text : String)
  | symbol (name : String)

/-- The commands that have to do with breakpoints or move the tracee by instructions. -/
inductive UserCommand where
  | continue
  | stepi
  | break (location : BreakLocation)
  | delete (id : Nat)
  | process (pid : Pid)
  | thread (tid : Pid)
  | followForkMode (policy : ForkFollowPolicy)
  | memory (address : Addr) (bytes : List Byte)

namespace UserCommand

open UserBreakpointRegistry

variable (modules : Modules) (loaderMetadata : Session → Except Exception LoaderMetadata)
  (tracees : Tracees)

/-- What is thrown inside is printed. -/
def reported (x : UserAct Unit) : UserAct Unit := handle x fun _ => return ()

def addAt : BreakLocation → UserAct Nat
  | .address value text => addAddress value text
  | .source file line text => addSource modules loaderMetadata file line text
  | .symbol name => addSymbol modules loaderMetadata name

/-- Set a breakpoint and look it up to print it. -/
def setBreakpoint (location : BreakLocation) : UserAct Unit := do
  let id ← addAt modules loaderMetadata location
  match ← read (breakpoint · id) with
  | .error e => raise e
  | .ok none => raise (.logicError "new user breakpoint disappeared")
  | .ok (some _) => return ()

/-- `stepi` is refused while a breakpoint is pending. -/
def stepInstruction : UserAct Unit := do
  match ← read hasPending with
  | .error e => raise e
  | .ok true => return ()
  | .ok false => refreshImage (← onDebugger (singleStep tracees .suppress))

def run : UserCommand → UserAct Unit
  | .continue => do
    refreshImage (← UserBreakpointRegistry.continueExecution modules tracees .suppress)
  | .stepi => stepInstruction tracees
  | .break location => reported (setBreakpoint modules loaderMetadata location)
  | .delete id => do
    let _ ← UserBreakpointRegistry.remove id
  | .process pid => reported (onDebugger (selectProcess pid))
  | .thread tid => reported (onDebugger (selectThread tid))
  | .followForkMode policy => reported (onDebugger (setForkFollowPolicy policy))
  | .memory address bytes => reported (onDebugger (writeMemory address bytes))

end UserCommand

end MiniDebugger
