import MiniDebugger.Command
import MiniDebugger.Core.Readers
import MiniDebugger.Unwind.CallRows

/-!
# Inspecting a core

`CoreInspectionSession` keeps a selected thread with its frames, a selected frame and, where one
has been chosen, a selected inline context. Its operations either select something or only look;
looking is left to the readers of debug information, which see the selected frame and the selected
inline context and change neither.
-/

namespace MiniDebugger

/-! ## Checks on frames -/

/-- `validate_snapshot_inspection_frame` -/
def validateSnapshotInspectionFrame (snapshot : CoreSnapshot)
    (frame : SnapshotInspectionFrameContext) : Except Exception Unit :=
  if frame.ownerSnapshot ≠ snapshot.address then
    throw (.logicError "snapshot inspection frame belongs to a different CoreSnapshot owner")
  else do
    let thread ← snapshot.thread frame.threadTid
    let data := snapshot.threads.get thread
    if frame.threadSignalNumber ≠ data.signalNumber ∨
        frame.originRuntimePc ≠ data.registers.rip ∨
        frame.originStackPointer ≠ data.registers.rsp ∨
        frame.originFramePointer ≠ some data.registers.rbp then
      throw (.logicError "snapshot inspection frame thread identity does not match its owner")
    else if frame.runtimePc = 0 ∨ frame.stackPointer = 0 ∨ frame.modulePath = "" then
      throw (.invalidArgument "snapshot inspection frame is incomplete")
    else if frame.index = 0 ∧ frame.pcOwnership ≠ .exactInstruction then
      throw (.logicError "snapshot frame zero must own an exact instruction PC")
    else return ()

/-- `validate_snapshot_frame_lookup_pc` -/
def validateSnapshotFrameLookupPc (frame : SnapshotInspectionFrameContext) :
    Except Exception Unit := do
  let lookupPc ← snapshotFrameLookupPc frame
  if frame.pcOwnership = .exactInstruction then
    if lookupPc ≠ frame.runtimePc then
      throw (.logicError "exact snapshot lookup PC changed runtime identity")
    else return ()
  else if frame.index = 0 then
    throw (.logicError "snapshot frame zero cannot own a return-address PC")
  else if frame.runtimePc ≤ lookupPc ∨ lookupPc + 1 ≠ frame.runtimePc then
    throw (.logicError "historical snapshot lookup PC is not the return call site")
  else return ()

/-! ## The session -/

structure SourceLocation where
  file : String
  line : Word
  column : Word
  deriving DecidableEq, Repr

structure InlineCallsiteContext where
  dieOffset : Nat
  depth : Nat
  modulePath : String
  name : String
  callSite : SourceLocation
  deriving DecidableEq, Repr

/-- What a session is asked to look at. -/
inductive Inspection where
  | findSymbol (runtimePc : Word)
  | findSource (runtimePc : Word)
  | findFrameSymbol (frame : SnapshotInspectionFrameContext)
  | findFrameSource (frame : SnapshotInspectionFrameContext)
  | readMemory (address : Word) (length : Nat)
  | selectedFrame
  | inlineContexts
  | locals
  | inspectValue (name : String)
  | dereferenceValue (name : String)
  | inspectPointerMember (name memberName : String)
  | dereferencePointerMember (name memberName : String)
  | inspectAggregateMember (name memberName : String)
  | inspectNestedAggregateMember (name aggregateMemberName terminalMemberName : String)
  | inspectUnionMember (name memberName : String)
  | inspectArrayElement (name : String) (index : Nat)
  | dereferenceAggregateMember (name memberName : String)

/-- The files of a session as their readers see them. -/
structure SessionFiles extends Files where
  /-- `resolve_debug_file` -/
  resolveDebugFile : String → Except Exception String
  /-- The loop of `discover_inline_call_chain` over the units of a debug file, for an address of
  the module with the given path. -/
  inlineUnits : String → Word → String → Except Exception (List InlineCallsiteContext)
  /-- What is found at an address: `find_symbol`, `find_source` and `read_memory`. -/
  lookup : CoreSnapshot → Inspection → Word → Except Exception Unit
  /-- What the evaluators find for a frame, below the inline DIE if there is one. -/
  evaluate : CoreSnapshot → Inspection → SnapshotInspectionFrameContext → Option Nat →
    Except Exception Unit

/-- `discover_inline_call_chain` -/
def discoverInlineCallChain (files : SessionFiles) (snapshot : CoreSnapshot)
    (frame : SnapshotInspectionFrameContext) :
    Except Exception (List InlineCallsiteContext) := do
  validateSnapshotInspectionFrame snapshot frame
  validateSnapshotFrameLookupPc frame
  let lookupPc ← snapshotFrameLookupPc frame
  let owner ← resolveSnapshotModuleAddress snapshot files.toFiles lookupPc
  if owner.modulePath ≠ frame.modulePath then
    throw (.logicError "snapshot inline discovery module ownership changed")
  let debugPath ← files.resolveDebugFile owner.modulePath
  files.inlineUnits debugPath owner.virtualAddress owner.modulePath

structure CoreInspectionSession where
  snapshot : CoreSnapshot
  startupInfo : Option CoreStartupInfo
  maxFrames : Nat
  selectedThreadTid : Pid
  trace : SnapshotInspectionTrace
  selectedFrameIndex : Nat := 0
  selectedInlineContext : Option InlineCallsiteContext := none
  selectedInlineContextIndex : Option Nat := none

namespace CoreInspectionSession

variable (files : SessionFiles)

/-- Code of a session; it never blocks. -/
abbrev SessionM := Command Empty Exception CoreInspectionSession

/-! ### Looking -/

/-- `selected_frame`; `at` throws `std::out_of_range`. -/
def selectedFrame (session : CoreInspectionSession) :
    Except Exception SnapshotInspectionFrameContext :=
  match session.trace.frames[session.selectedFrameIndex]? with
  | none => throw (.logicError "vector::_M_range_check")
  | some frame => return frame

def validateSelectedFrame (session : CoreInspectionSession)
    (frame : SnapshotInspectionFrameContext) : Except Exception Unit := do
  validateSnapshotInspectionFrame session.snapshot frame
  validateSnapshotFrameLookupPc frame
  if frame.threadTid ≠ session.selectedThreadTid then
    throw (.logicError "selected core frame belongs to a different thread")

def inlineContexts (session : CoreInspectionSession) :
    Except Exception (List InlineCallsiteContext) := do
  let frame ← session.selectedFrame
  session.validateSelectedFrame frame
  discoverInlineCallChain files session.snapshot frame

/-- The shape of `locals`, `inspect_value` and their relatives: they evaluate in the selected
frame, below the selected inline context if there is one. -/
def evaluateSelected (session : CoreInspectionSession) (call : Inspection) :
    Except Exception Unit := do
  let frame ← session.selectedFrame
  session.validateSelectedFrame frame
  match session.selectedInlineContext with
  | none => files.evaluate session.snapshot call frame none
  | some context =>
    if context.modulePath ≠ frame.modulePath then
      throw (.logicError "selected inline context belongs to a different module")
    else files.evaluate session.snapshot call frame (some context.dieOffset)

/-- What an inspection call throws, if anything. -/
def inspect (session : CoreInspectionSession) : Inspection → Except Exception Unit
  | call@(.findSymbol runtimePc) => files.lookup session.snapshot call runtimePc
  | call@(.findSource runtimePc) => files.lookup session.snapshot call runtimePc
  | call@(.readMemory address _) => files.lookup session.snapshot call address
  | call@(.findFrameSymbol frame) => do
    session.validateSelectedFrame frame
    files.lookup session.snapshot call (← snapshotFrameLookupPc frame)
  | call@(.findFrameSource frame) => do
    session.validateSelectedFrame frame
    files.lookup session.snapshot call (← snapshotFrameLookupPc frame)
  | .selectedFrame => do let _ ← session.selectedFrame
  | .inlineContexts => do let _ ← session.inlineContexts files
  | call => session.evaluateSelected files call

/-! ### Selecting -/

def clearInlineContext : SessionM Unit := do
  Command.update fun session => { session with selectedInlineContext := none }
  Command.update fun session => { session with selectedInlineContextIndex := none }

def selectInlineContext (index : Nat) : SessionM Unit := do
  let session ← Command.read id
  let contexts ← Command.ofExcept (session.inlineContexts files)
  match contexts[index]? with
  | none => Command.raise (.logicError "core inline-context index is out of range")
  | some context => do
    Command.update fun session => { session with selectedInlineContext := some context }
    Command.update fun session => { session with selectedInlineContextIndex := some index }

/-- The frames of a thread of the snapshot. -/
def framesOfThread (session : CoreInspectionSession) (tid : Pid) :
    Except Exception SnapshotInspectionTrace := do
  let thread ← session.snapshot.thread tid
  buildSnapshotInspectionFrames session.snapshot files.toFiles thread session.maxFrames

def selectThread (tid : Pid) : SessionM Unit := do
  let session ← Command.read id
  let nextTrace ← Command.ofExcept (session.framesOfThread files tid)
  match nextTrace.frames.head? with
  | none =>
    Command.raise (.runtimeError "core thread inspection produced no snapshot frames")
  | some front => do
    Command.ofExcept (validateSnapshotInspectionFrame session.snapshot front)
    Command.ofExcept (validateSnapshotFrameLookupPc front)
    Command.update fun session => { session with trace := nextTrace }
    Command.update fun session => { session with selectedThreadTid := tid }
    Command.update fun session => { session with selectedFrameIndex := 0 }
    clearInlineContext

def selectFrame (index : Nat) : SessionM Unit := do
  let session ← Command.read id
  match session.trace.frames[index]? with
  | none => Command.raise (.logicError "core frame index is out of range")
  | some frame => do
    Command.ofExcept (validateSnapshotInspectionFrame session.snapshot frame)
    Command.ofExcept (validateSnapshotFrameLookupPc frame)
    if frame.threadTid ≠ session.selectedThreadTid then
      Command.raise (.logicError "core frame belongs to a different selected thread")
    else do
      Command.update fun session => { session with selectedFrameIndex := index }
      clearInlineContext

/-! ### Opening a core -/

def validateFrames (session : CoreInspectionSession) :
    List SnapshotInspectionFrameContext → Except Exception Unit
  | [] => return ()
  | frame :: frames => do
    validateSnapshotInspectionFrame session.snapshot frame
    validateSnapshotFrameLookupPc frame
    validateFrames session frames

def validateTrace (session : CoreInspectionSession) : Except Exception Unit :=
  match session.trace.frames with
  | [] => throw (.runtimeError "core inspection produced no snapshot frames")
  | front :: frames => do
    session.validateFrames (front :: frames)
    if front.threadTid ≠ session.selectedThreadTid then
      throw (.logicError "core inspection trace belongs to a different thread")
    else return ()

/-- The constructor, on the bytes of the core and the address the snapshot gets. -/
def create (bytes : List Byte) (maxFrames address : Nat) :
    Except Exception CoreInspectionSession := do
  let core ← CoreSnapshot.parse bytes
  let snapshot : CoreSnapshot := { core.toCoreSnapshot with address }
  let startupInfo ← readCoreStartupInfo bytes snapshot
  -- `crashed_thread` is the front of the threads; `parse` has found one
  if hthreads : 0 < snapshot.threads.length then
    let trace ← buildSnapshotInspectionFrames snapshot files.toFiles ⟨0, hthreads⟩ maxFrames
    let session : CoreInspectionSession :=
      { snapshot, startupInfo, maxFrames, selectedThreadTid := core.crashedTid, trace }
    session.validateTrace
    return session
  else throw (.runtimeError "ELF core lacks NT_PRSTATUS registers")

end CoreInspectionSession

/-! ## Sequences of calls -/

inductive SessionCall where
  | selectThread (tid : Pid)
  | selectFrame (index : Nat)
  | selectInlineContext (index : Nat)
  | clearInlineContext
  | inspect (call : Inspection)

def SessionCall.run (files : SessionFiles) :
    SessionCall → CoreInspectionSession.SessionM Unit
  | .selectThread tid => CoreInspectionSession.selectThread files tid
  | .selectFrame index => CoreInspectionSession.selectFrame index
  | .selectInlineContext index => CoreInspectionSession.selectInlineContext files index
  | .clearInlineContext => CoreInspectionSession.clearInlineContext
  | .inspect call => do
    let session ← Command.read id
    Command.ofExcept (session.inspect files call)

/-- The session after some calls, whether they returned or threw. -/
def CoreInspectionSession.after (files : SessionFiles) (session : CoreInspectionSession) :
    List SessionCall → CoreInspectionSession
  | [] => session
  | call :: calls => after files (call.run files session).state calls

end MiniDebugger
