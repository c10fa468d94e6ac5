import MiniDebugger.Debugger.BreakpointRules

/-!
# The hardware write watchpoint

One watchpoint in debug-register slot 0 of the thread that was selected when it was set. The
registers it displaced are kept in `watchpointRegisterSnapshot`.
-/

namespace MiniDebugger

open Command

/-- `kDr6Breakpoint0` -/
def dr6Breakpoint0 : Word := 1

/-- `kDr7Slot0EnableMask | kDr7Slot0ControlMask` -/
def dr7Slot0Mask : Word := 0x3 ||| (0xf <<< 16)

/-- `kDr7Slot0EnableMask` -/
def dr7Slot0EnableMask : Word := 0x3

def watchpointLengthEncoding : Nat → Option Word
  | 1 => some 0
  | 2 => some 1
  | 4 => some 3
  | 8 => some 2
  | _ => none

/-- Program slot 0, leaving it disabled while the address changes. -/
def writeDebugSlot (tid : Pid) (disabledDr7 dr0 dr6 dr7 : Word) : Act Unit := do
  Lowlevel.setDebugRegister tid 7 disabledDr7
  Lowlevel.setDebugRegister tid 0 dr0
  Lowlevel.setDebugRegister tid 6 dr6
  Lowlevel.setDebugRegister tid 7 dr7

/-- Reprogram slot 0 of a task, disabling it first on top of its current control register. -/
def replaceDebugSlot (tid : Pid) (dr0 dr6 dr7 : Word) : Act Unit := do
  let current ← Lowlevel.getDebugRegister tid 7
  writeDebugSlot tid (current &&& ~~~dr7Slot0Mask) dr0 dr6 dr7

def addWriteWatchpoint (address : Addr) (length : Nat) : Act Nat := do
  let tid ← stoppedTid
  if (← view (·.watchpoint)).isSome then
    raise (.invalidArgument "only one hardware watchpoint is currently supported")
  match watchpointLengthEncoding length with
  | none =>
    raise (.invalidArgument "write watchpoint length must be 1, 2, 4, or 8 bytes")
  | some lengthEncoding =>
    if address.toNat % length ≠ 0 then
      raise (.invalidArgument "write watchpoint address must be naturally aligned")
    let dr0 ← Lowlevel.getDebugRegister tid 0
    let dr6 ← Lowlevel.getDebugRegister tid 6
    let dr7 ← Lowlevel.getDebugRegister tid 7
    if dr7 &&& dr7Slot0EnableMask ≠ 0 then
      raise (.runtimeError "hardware debug-register slot 0 is already in use")
    let disabledDr7 := dr7 &&& ~~~dr7Slot0Mask
    let configuredDr7 := disabledDr7 ||| 1 ||| (1 <<< 16) ||| (lengthEncoding <<< 18)
    handle (writeDebugSlot tid disabledDr7 address (dr6 &&& ~~~dr6Breakpoint0) configuredDr7)
      (fun e => do
        handle (writeDebugSlot tid disabledDr7 dr0 dr6 dr7) (fun _ => pure ())
        raise e)
    let id ← view (·.nextWatchpointId)
    modifyDebugger fun d => { d with
      nextWatchpointId := id + 1
      watchpoint := some ⟨id, address, length⟩
      watchpointRegisterSnapshot := some ⟨tid, dr0, dr6, dr7⟩ }
    return id

def restoreWatchpointRegisters : Act Unit := do
  match ← view (·.watchpointRegisterSnapshot) with
  | none => return ()
  | some snapshot =>
    let process ← view (·.process)
    if process.taskState snapshot.tid ≠ some .stopped then
      raise (.logicError "watchpoint owner thread must be stopped before restore")
    replaceDebugSlot snapshot.tid snapshot.dr0 snapshot.dr6 snapshot.dr7

def clearWatchpoint : Act Unit :=
  modifyDebugger fun d => { d with watchpoint := none, watchpointRegisterSnapshot := none }

def removeWatchpoint (id : Nat) : Act Bool := do
  let watchpoint ← view (·.watchpoint)
  if !watchpoint.any (·.id = id) then return false
  let process ← view (·.process)
  if process.state ≠ .stopped then
    raise (.logicError "watchpoints can only be modified while the tracee is stopped")
  restoreWatchpointRegisters
  clearWatchpoint
  return true

/-- The watchpoint and saved registers when `tid` owns them. -/
def Debugger.ownedWatchpoint (d : Debugger) (tid : Pid) :
    Option (Watchpoint × DebugRegisterSnapshot) :=
  match d.watchpoint, d.watchpointRegisterSnapshot with
  | some watchpoint, some snapshot =>
    if snapshot.tid = tid then some (watchpoint, snapshot) else none
  | _, _ => none

def classifyWatchpointStop (tid : Pid) : Act (Option StopInfo) := do
  match ← view (·.ownedWatchpoint tid) with
  | none => return none
  | some (watchpoint, _) =>
    let dr6 ← Lowlevel.getDebugRegister tid 6
    if dr6 &&& dr6Breakpoint0 = 0 then return none
    Lowlevel.setDebugRegister tid 6 (dr6 &&& ~~~dr6Breakpoint0)
    let info ← makeStop .watchpoint sigtrap tid
    return some { info with
      watchpointId := some watchpoint.id
      watchpointAddress := some watchpoint.address }

/-! ## What they do -/

section Rules

variable {s : Session} {tid : Pid}

theorem quiet_writeDebugSlot (tid : Pid) (disabledDr7 dr0 dr6 dr7 : Word) :
    Quiet (writeDebugSlot tid disabledDr7 dr0 dr6 dr7) :=
  (Lowlevel.quiet_setDebugRegister tid 7 disabledDr7).bind fun _ =>
    (Lowlevel.quiet_setDebugRegister tid 0 dr0).bind fun _ =>
      (Lowlevel.quiet_setDebugRegister tid 6 dr6).bind fun _ =>
        Lowlevel.quiet_setDebugRegister tid 7 dr7

theorem quiet_replaceDebugSlot (tid : Pid) (dr0 dr6 dr7 : Word) :
    Quiet (replaceDebugSlot tid dr0 dr6 dr7) :=
  (Lowlevel.quiet_getDebugRegister tid 7).bind fun _ => quiet_writeDebugSlot _ _ _ _ _

/-- The watchpoint fields after a watchpoint has been set through `tid`. -/
def Debugger.setWatchpoint (d : Debugger) (watchpoint : Watchpoint)
    (snapshot : DebugRegisterSnapshot) : Debugger :=
  { d with
    nextWatchpointId := d.nextWatchpointId + 1
    watchpoint := some watchpoint
    watchpointRegisterSnapshot := some snapshot }

theorem wp_addWriteWatchpoint {address : Addr} {length : Nat}
    {Q : Post WaitCall Exception Session Nat}
    (added : ∀ t snapshot, s.Alike t →
      s.dbg.process.taskState s.dbg.process.currentTid = some .stopped →
      snapshot.tid = s.dbg.process.currentTid →
      Q.returned s.dbg.nextWatchpointId { t with
        dbg := s.dbg.setWatchpoint ⟨s.dbg.nextWatchpointId, address, length⟩ snapshot })
    (raised : ∀ t e, s.Alike t → Q.raised e t) :
    wp (addWriteWatchpoint address length) Q s := by
  simp only [addWriteWatchpoint, wp_bind]
  refine wp_stoppedTid (fun _ _ htask => ?_) (fun what _ => raised s _ (refl_of _ s))
  simp only [wp_view, wp_ite]
  split
  · exact raised s _ (refl_of _ s)
  rcases watchpointLengthEncoding length with _ | lengthEncoding
  · exact raised s _ (refl_of _ s)
  simp only [wp_bind, wp_ite, wp_raise]
  split
  · exact raised s _ (refl_of _ s)
  refine (Lowlevel.quiet_getDebugRegister _ 0).wp (fun dr0 t₀ h₀ => ?_)
    (fun e t h _ => raised t e h)
  refine (Lowlevel.quiet_getDebugRegister _ 6).wp (fun dr6 t₁ h₁ => ?_)
    (fun e t h _ => raised t e (trans_of _ h₀ h))
  have h₁ := trans_of _ h₀ h₁
  refine (Lowlevel.quiet_getDebugRegister _ 7).wp (fun dr7 t₂ h₂ => ?_)
    (fun e t h _ => raised t e (trans_of _ h₁ h))
  have h₂ := trans_of _ h₁ h₂
  dsimp only
  split
  · exact raised t₂ _ h₂
  rw [wp_handle]
  refine (quiet_writeDebugSlot _ _ _ _ _).wp (fun _ t₃ h₃ => ?_) (fun e t₃ h₃ _ => ?_)
  · obtain ⟨_, _, _, rfl⟩ := trans_of _ h₂ h₃
    exact added _ ⟨_, dr0, dr6, dr7⟩ ⟨_, _, _, rfl⟩ htask rfl
  · -- the registers are put back on a best-effort basis before the error is passed on
    have h₃ := trans_of _ h₂ h₃
    simp only [wp_bind, wp_handle]
    exact (quiet_writeDebugSlot _ _ _ _ _).wp
      (fun _ t h => raised t _ (trans_of _ h₃ h)) (fun _ t h _ => raised t _ (trans_of _ h₃ h))

theorem wp_restoreWatchpointRegisters {Q : Post WaitCall Exception Session Unit}
    (returned : ∀ t, s.Alike t → Q.returned () t)
    (raised : ∀ t e, s.Alike t → e.isPtraceError = true → Q.raised e t)
    (running : ∀ snapshot e, s.dbg.watchpointRegisterSnapshot = some snapshot →
      s.dbg.process.taskState snapshot.tid ≠ some .stopped → Q.raised e s) :
    wp restoreWatchpointRegisters Q s := by
  simp only [restoreWatchpointRegisters, wp_bind, wp_view]
  rcases hsnap : s.dbg.watchpointRegisterSnapshot with _ | snapshot
  · exact returned s (refl_of _ s)
  · simp only [wp_ite, wp_bind, wp_view, wp_raise]
    split
    · exact running snapshot _ hsnap ‹_›
    · exact (quiet_replaceDebugSlot _ _ _ _).wp (fun _ t h => returned t h)
        (fun e t h he => raised t e h he)

theorem wp_removeWatchpoint {id : Nat} {Q : Post WaitCall Exception Session Bool}
    (unknown : Q.returned false s)
    (removed : ∀ t, s.Alike t → Q.returned true { t with
      dbg := { s.dbg with watchpoint := none, watchpointRegisterSnapshot := none } })
    (raised : ∀ t e, s.Alike t → Q.raised e t) : wp (removeWatchpoint id) Q s := by
  simp only [removeWatchpoint, wp_bind, wp_view, wp_ite, wp_raise, wp_pure]
  split
  · exact unknown
  split
  · exact raised s _ (refl_of _ s)
  refine wp_restoreWatchpointRegisters (fun t h => ?_) (fun t e h _ => raised t e h)
    (fun _ e _ _ => raised s e (refl_of _ s))
  obtain ⟨_, _, _, rfl⟩ := h
  exact removed _ ⟨_, _, _, rfl⟩

theorem wp_classifyWatchpointStop {Q : Post WaitCall Exception Session (Option StopInfo)}
    (none : ∀ t, s.Alike t → ((s.dbg.ownedWatchpoint tid).isSome = true →
      s.world.debug tid 6 &&& dr6Breakpoint0 = 0) → Q.returned none t)
    (hit : ∀ t info, s.Alike t → (s.dbg.ownedWatchpoint tid).isSome = true →
      s.world.debug tid 6 &&& dr6Breakpoint0 ≠ 0 → info.reason = .watchpoint →
      info.tid = tid → Q.returned (some info) t)
    (raised : ∀ t e, s.Alike t → e.isPtraceError = true → Q.raised e t) :
    wp (classifyWatchpointStop tid) Q s := by
  simp only [classifyWatchpointStop, wp_bind, wp_view]
  rcases howned : s.dbg.ownedWatchpoint tid with _ | ⟨watchpoint, snapshot⟩
  · exact none s (refl_of _ s) (by simp [howned])
  · simp only [Lowlevel.getDebugRegister, wp_bind, wp_ite, wp_pure]
    refine Lowlevel.wp_attempt (fun faults => ?_)
      (fun faults errno => raised _ _ ⟨faults, _, _, rfl⟩ rfl)
    simp only [wp_read]
    split
    · exact none _ ⟨faults, _, _, rfl⟩ fun _ => ‹_›
    · rename_i hdr
      refine (Lowlevel.quiet_setDebugRegister _ _ _).wp (fun _ t h => ?_) (fun e t h he => ?_)
      · obtain ⟨_, _, _, rfl⟩ := h
        exact hit _ _ ⟨_, _, _, rfl⟩ (by rw [howned]; rfl) hdr rfl rfl
      · obtain ⟨_, _, _, rfl⟩ := h
        exact raised _ e ⟨_, _, _, rfl⟩ he

end Rules

end MiniDebugger
