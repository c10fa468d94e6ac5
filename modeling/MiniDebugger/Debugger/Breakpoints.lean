import MiniDebugger.Debugger.Wait

/-!
# Software breakpoints and memory writes

The breakpoint table owns the byte under each `INT3`. An entry that has just been hit is
temporarily restored (`installed = false`) until the displaced step over it has been made, and
`pendingBreakpointStep` names it.
-/

namespace MiniDebugger

open Command

def stoppedTid : Act Pid := do
  let process ← view (·.process)
  if process.state ≠ .stopped then raise (.logicError "operation requires a stopped tracee")
  let tid := process.currentTid
  if tid ≤ 0 ∨ process.taskState tid ≠ some .stopped then
    raise (.logicError "no active stopped tracee thread")
  return tid

def registers : Act UserRegs := do
  Lowlevel.getRegisters (← stoppedTid)

def readMemory (address : Addr) (length : Nat) : Act (List Byte) := do
  Lowlevel.readMemory (← stoppedTid) address length

def breakpointRegisterSnapshot (tid : Pid) (address : Addr) : Act (Option UserRegs) :=
  view fun d => d.breakpointRegisterSnapshots.lookup (tid, address)

def addBreakpoint (address : Addr) : Act Nat := do
  let policy ← view (·.forkFollowPolicy)
  let retained ← view (·.retainedProcesses)
  if policy = .both ∧ retained.isEmpty then
    raise (.logicError
      "process-scoped managed breakpoints can only be armed after fork retention")
  let tid ← stoppedTid
  let table ← view (·.breakpointsByAddress)
  if table.contains address then
    raise (.invalidArgument "a breakpoint already exists at that address")
  let original ← Lowlevel.readByte tid address
  Lowlevel.writeByte tid address int3
  let id ← view (·.nextBreakpointId)
  modifyDebugger fun d => { d with
    nextBreakpointId := id + 1
    breakpointsByAddress := d.breakpointsByAddress.insert address ⟨id, address, original, true⟩
    breakpointIds := d.breakpointIds.insert id address }
  return id

/-- Forget a pending displaced step over `address`. -/
def Debugger.clearPendingStep (d : Debugger) (address : Addr) : Debugger :=
  if d.pendingBreakpointStep.any (·.address = address) then
    { d with pendingBreakpointStep := none }
  else d

/-- Drop a breakpoint from both tables. -/
def Debugger.eraseBreakpoint (d : Debugger) (id : Nat) (address : Addr) : Debugger :=
  { d with
    breakpointsByAddress := d.breakpointsByAddress.erase address
    breakpointIds := d.breakpointIds.erase id }

def removeBreakpoint (id : Nat) : Act Bool := do
  let ids ← view (·.breakpointIds)
  match ids[id]? with
  | none => return false
  | some address =>
    let table ← view (·.breakpointsByAddress)
    let process ← view (·.process)
    match table[address]? with
    | some bp =>
      if bp.installed ∧ process.state = .stopped then
        Lowlevel.writeByte (← stoppedTid) address bp.originalByte
    | none => pure ()
    modifyDebugger fun d => (d.clearPendingStep address).eraseBreakpoint id address
    return true

/-- Forget a breakpoint without touching the tracee. -/
def discardBreakpoint (id : Nat) : Act Bool := do
  let ids ← view (·.breakpointIds)
  match ids[id]? with
  | none => return false
  | some address =>
    modifyDebugger fun d => (d.clearPendingStep address).eraseBreakpoint id address
    return true

def breakpoints : Act (List Breakpoint) :=
  view fun d => d.breakpointsByAddress.toList.map (·.2)

def Debugger.setInstalled (d : Debugger) (address : Addr) (installed : Bool) : Debugger :=
  { d with
    breakpointsByAddress :=
      d.breakpointsByAddress.modify address fun bp => { bp with installed } }

def restoreBreakpoint (tid : Pid) (address : Addr) (bp : Breakpoint) : Act Unit := do
  if bp.installed then
    Lowlevel.writeByte tid address bp.originalByte
    modifyDebugger (·.setInstalled address false)

def restoreAllBreakpoints : Act Unit := do
  let tid ← stoppedTid
  let table ← view (·.breakpointsByAddress)
  forEach (fun entry => restoreBreakpoint tid entry.1 entry.2) table.toList
  modifyDebugger fun d => { d with pendingBreakpointStep := none }

def reinsertBreakpoint (address : Addr) (tid : Pid) : Act Unit := do
  let table ← view (·.breakpointsByAddress)
  match table[address]? with
  | none => return ()
  | some bp =>
    if bp.installed then return ()
    Lowlevel.writeByte tid address int3
    modifyDebugger (·.setInstalled address true)

def Debugger.saveRegisterSnapshot (d : Debugger) (tid : Pid) (address : Addr)
    (regs : UserRegs) : Debugger :=
  { d with
    breakpointRegisterSnapshots :=
      ((tid, address), regs) ::
        d.breakpointRegisterSnapshots.filter (fun entry => entry.1 ≠ (tid, address)) }

def Debugger.discardBreakpointRegisterSnapshots (d : Debugger) (tid : Pid) :
    RegisterSnapshots :=
  d.breakpointRegisterSnapshots.filter (fun entry => entry.1.1 ≠ tid)

/-- Rewind the thread onto the breakpoint it hit and put the original byte back under it. -/
def prepareBreakpointHit (address : Addr) (regs : UserRegs) (tid : Pid) : Act Unit := do
  let table ← view (·.breakpointsByAddress)
  match table[address]? with
  | some bp =>
    if !bp.installed then
      raise (.logicError "attempted to prepare an unknown breakpoint hit")
    let regs := { regs with rip := address }
    modifyDebugger (·.saveRegisterSnapshot tid address regs)
    Lowlevel.setRegisters tid regs
    Lowlevel.writeByte tid address bp.originalByte
    modifyDebugger fun d =>
      { d.setInstalled address false with pendingBreakpointStep := some ⟨address, tid⟩ }
  | none => raise (.logicError "attempted to prepare an unknown breakpoint hit")

/-! ## `write_memory` -/

/-- `kMaxMemoryWriteBytes` -/
def maxMemoryWriteBytes : Nat := 4096

def rangeContains (address : Addr) (length : Nat) (target : Addr) : Bool :=
  length ≠ 0 ∧ address ≤ target ∧ (target - address).toNat < length

/-- The addresses a write of `bytes` covers, with the byte for each. -/
def cells (address : Addr) (bytes : List Byte) : List (Addr × Byte) :=
  bytes.mapIdx fun offset byte => (address + BitVec.ofNat 64 offset, byte)

/-- Is there a breakpoint at `address` whose `INT3` is (or is not) in place? -/
def hasEntry (d : Debugger) (address : Addr) (installed : Bool) : Bool :=
  (d.breakpointsByAddress[address]?).any fun bp => bp.installed == installed

/-- A byte under an `INT3` goes to the saved byte instead of the tracee. -/
def writeCell (tid : Pid) (cell : Addr × Byte) : Act Unit := do
  if !(← view (hasEntry · cell.1 true)) then Lowlevel.writeByte tid cell.1 cell.2

def updateSavedByte (cell : Addr × Byte) : Act Unit :=
  modifyDebugger fun d => { d with
    breakpointsByAddress :=
      d.breakpointsByAddress.modify cell.1 fun bp => { bp with originalByte := cell.2 } }

def writeMemory (address : Addr) (bytes : List Byte) : Act Unit := do
  let tid ← stoppedTid
  if bytes.isEmpty then
    raise (.invalidArgument "memory write must contain at least one byte")
  if maxMemoryWriteBytes < bytes.length then
    raise (.invalidArgument "memory write exceeds the 4096-byte bound")
  if 2 ^ 64 - 1 - (bytes.length - 1) < address.toNat then
    raise (.invalidArgument "memory write range overflows the address space")
  let pending ← view (·.pendingBreakpointStep)
  if pending.any (fun step => rangeContains address bytes.length step.address) then
    raise (.logicError
      "cannot write memory overlapping a pending breakpoint displaced step")
  let dbg ← view id
  if (cells address bytes).any (fun cell => hasEntry dbg cell.1 false) then
    raise (.logicError
      "cannot write memory overlapping a temporarily restored breakpoint byte")
  let savedByteUpdates := (cells address bytes).filter fun cell => hasEntry dbg cell.1 true
  forEach (writeCell tid) (cells address bytes)
  forEach updateSavedByte savedByteUpdates

end MiniDebugger
