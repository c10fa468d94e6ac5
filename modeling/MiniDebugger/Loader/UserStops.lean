import MiniDebugger.Loader.LoneTable
import MiniDebugger.Loader.Ownership
import MiniDebugger.Loader.Reconciliation

/-!
# The breakpoints of the user and those of `DeferredBreakpoints`

Both stand in one table, which takes one entry for each address. `DeferredBreakpoints` records the
address of a breakpoint of its own before the debugger accepts it, so that after a refusal it takes
stops at that address for its own. `DeferredOperation.Orderly` rules this out, and in orderly runs
the fields of the controller agree with the table.
-/

namespace MiniDebugger

open Command
open Std (ExtTreeMap)

namespace DeferredBreakpoints

/-- Each internal breakpoint has an address exactly if it has an id. -/
def Paired (d : DeferredBreakpoints) : Prop :=
  d.loaderBreakpointAddress.isSome = d.loaderBreakpointId.isSome ∧
    d.bootstrapBreakpointAddress.isSome = d.bootstrapBreakpointId.isSome

instance (d : DeferredBreakpoints) : Decidable d.Paired :=
  inferInstanceAs (Decidable (_ ∧ _))

/-- The address is recorded for an internal breakpoint. -/
def Records (d : DeferredBreakpoints) (a : Addr) : Prop :=
  d.loaderBreakpointAddress = some a ∨ d.bootstrapBreakpointAddress = some a

/-- Requests wait for the loader and it is not watched yet. -/
def Unmonitored (d : DeferredBreakpoints) : Prop :=
  ¬(d.requests.isEmpty ∨ d.loaderBreakpointId.isSome ∨ d.bootstrapBreakpointId.isSome)

instance (d : DeferredBreakpoints) : Decidable d.Unmonitored :=
  inferInstanceAs (Decidable (¬_))

variable (modules : Modules) (tracees : Tracees)

/-! ## The commands in parts -/

/-- `tryInstallLoaderBreakpoint` as far as the address. -/
def loaderAddress : DeferredAct (Option Addr) := do
  match ← currentRDebugAddress modules with
  | none => return none
  | some address =>
    modify ({ · with rDebugAddress := some address })
    return some (← currentLoaderBreakAddress)

/-- The rest of `tryInstallLoaderBreakpoint`. -/
def armLoader (a : Addr) : DeferredAct Bool := do
  modify ({ · with loaderBreakpointAddress := some a })
  let id ← arm a
  modify ({ · with loaderBreakpointId := some id })
  return true

/-- `installBootstrapBreakpoint` as far as the address. -/
def entryAddress : DeferredAct Addr := do
  runtimeAddress modules (← get (·.metadata.entryVirtualAddress))

/-- The rest of `installBootstrapBreakpoint`. -/
def armBootstrap (a : Addr) : DeferredAct Unit := do
  modify ({ · with bootstrapBreakpointAddress := some a })
  let id ← arm a
  modify ({ · with bootstrapBreakpointId := some id })

/-- `addTarget` until the request is stored. -/
def openRequest (target : DeferredBreakpointTarget) : DeferredAct DeferredBreakpoint := do
  if (← debugger (view (·.process.state))) ≠ .stopped then
    raise (.logicError "deferred breakpoints can only be modified while stopped")
  let d ← get id
  if d.requests.toList.any (fun entry => entry.2.target = target) then
    raise (.invalidArgument "a deferred breakpoint request already exists for that target")
  let requestId := d.nextRequestId
  modify ({ · with nextRequestId := requestId + 1 })
  let request : DeferredBreakpoint ← do
    match ← resolveTarget modules target with
    | none => pure { requestId, target }
    | some address =>
      let id ← arm address
      pure { requestId, target, breakpointId := some id, address := some address }
  store request
  return request

/-- What `addTarget` does when the loader cannot be watched. -/
def rollBack (request : DeferredBreakpoint) (e : Exception) : DeferredAct Unit := do
  match request.breakpointId with
  | some id =>
    let _ ← disarm id
  | none => pure ()
  modify fun d => { d with requests := d.requests.erase request.requestId }
  raise e

section

variable {modules : Modules} {s : DeferredSession}

theorem wp_tryInstallLoaderBreakpoint (Q : Post WaitCall Exception DeferredSession Bool) :
    wp (tryInstallLoaderBreakpoint modules) Q s = wp (loaderAddress modules)
      ⟨fun r t => r.elim (Q.returned false t) fun a => wp (armLoader a) Q t, Q.raised,
        Q.blocked⟩ s := by
  simp only [tryInstallLoaderBreakpoint, loaderAddress, wp_bind]
  congr 2
  funext r t
  cases r with
  | none => rfl
  | some a =>
    simp only [wp_bind, wp_pure, armLoader]
    rfl

theorem wp_installBootstrapBreakpoint (Q : Post WaitCall Exception DeferredSession Unit) :
    wp (installBootstrapBreakpoint modules) Q s = wp (entryAddress modules)
      ⟨fun a t => wp (armBootstrap a) Q t, Q.raised, Q.blocked⟩ s := by
  simp only [installBootstrapBreakpoint, entryAddress, armBootstrap, wp_bind]

theorem wp_addTarget (target : DeferredBreakpointTarget)
    (Q : Post WaitCall Exception DeferredSession Nat) :
    wp (addTarget modules target) Q s = wp (openRequest modules target)
      ⟨fun request t => wp (handle (ensureMonitoring modules) (rollBack request))
        ⟨fun _ => Q.returned request.requestId, Q.raised, Q.blocked⟩ t, Q.raised, Q.blocked⟩ s := by
  simp only [addTarget, openRequest, wp_bind, wp_ite, wp_raise]
  congr 2
  funext state t
  split
  · rfl
  congr 2
  funext d t
  split
  · rfl
  congr 2
  funext _ t
  congr 2
  funext resolved t
  cases resolved with
  | none => simp only [wp_bind, wp_pure, wp_handle, rollBack, store, modify, wp_update]
  | some address => simp only [wp_bind, wp_pure, wp_handle, rollBack, store, modify, wp_update]

end

/-! ## Where internal breakpoints are set and stops are consumed -/

/-- `ensureMonitoring` comes to set a breakpoint at `a` in the session `u`. -/
inductive Ensures (s : DeferredSession) (a : Addr) (u : DeferredSession) : Prop
  | loader (hneeded : s.deferred.Unmonitored)
      (haddress : loaderAddress modules s = .returned (some a) u)
  | bootstrap {t : DeferredSession} (hneeded : s.deferred.Unmonitored)
      (hearly : loaderAddress modules s = .returned none t)
      (haddress : entryAddress modules t = .returned a u)

/-- The stop is at the bootstrap breakpoint. -/
def AtBootstrap (d : DeferredBreakpoints) (stop : StopInfo) : Prop :=
  d.bootstrapBreakpointAddress.isSome ∧ stop.breakpointAddress = d.bootstrapBreakpointAddress

/-- `handleInternalStop` comes to set the breakpoint in the loader. -/
def Reinstalls (stop : StopInfo) (s : DeferredSession) (a : Addr) (u : DeferredSession) : Prop :=
  s.deferred.AtBootstrap stop ∧ ∃ t, removeBootstrapBreakpoint s = .returned () t ∧
    loaderAddress modules t = .returned (some a) u

/-- `handleInternalStop` comes to reconcile the requests. -/
inductive Reconciles (stop : StopInfo) (s u : DeferredSession) : Prop
  | bootstrap {t t' : DeferredSession} (hstop : s.deferred.AtBootstrap stop)
      (hremoved : removeBootstrapBreakpoint s = .returned () t)
      (hinstalled : tryInstallLoaderBreakpoint modules t = .returned true t')
      (hconsistent : loaderStateIsConsistent t' = .returned true u)
  | loader (hstop : ¬s.deferred.AtBootstrap stop)
      (hconsistent : loaderStateIsConsistent s = .returned true u)

/-- The passes of the loop of `continueExecution`, with the policy of the next one. -/
inductive Passes : DeferredSession → SignalPolicy → DeferredSession → SignalPolicy → Prop
  | refl (s : DeferredSession) (policy : SignalPolicy) : Passes s policy s policy
  | pass {s t u v : DeferredSession} {policy next : SignalPolicy} {stop : StopInfo}
      (h : Passes s policy t next)
      (hstop : debugger (MiniDebugger.continueExecution tracees next) t = .returned stop u)
      (hinternal : u.deferred.isInternalStop stop = true)
      (hhandled : handleInternalStop modules stop u = .returned () v) :
      Passes s policy v .suppress

/-- `continueExecution` takes the stop for an internal one in the session `u`. -/
def Consumes (s : DeferredSession) (policy : SignalPolicy) (stop : StopInfo)
    (u : DeferredSession) : Prop :=
  ∃ s' t next, ensureMonitoring modules s = .returned () s' ∧
    Passes modules tracees s' policy t next ∧
    debugger (MiniDebugger.continueExecution tracees next) t = .returned stop u ∧
    u.deferred.isInternalStop stop = true

end DeferredBreakpoints

open DeferredBreakpoints

/-- The debugger will accept a breakpoint at the address: there is none yet, and the byte can be
read and replaced. -/
structure Session.Admits (s : Session) (a : Addr) : Prop where
  ready : s.dbg.process.Ready
  policy : ¬(s.dbg.forkFollowPolicy = .both ∧ s.dbg.retainedProcesses.isEmpty = true)
  free : a ∉ s.dbg.breakpointsByAddress
  bytes : ∃ original t u,
    Lowlevel.readByte s.dbg.process.currentTid a s = .returned original t ∧
    Lowlevel.writeByte s.dbg.process.currentTid a int3 t = .returned () u

/-- The byte under the breakpoint can be written back. -/
def Session.Restores (s : Session) (id : Nat) : Prop :=
  ∀ a bp, s.dbg.breakpointIds[id]? = some a → s.dbg.breakpointsByAddress[a]? = some bp →
    s.dbg.process.Ready ∧
      ∃ u, Lowlevel.writeByte s.dbg.process.currentTid a bp.originalByte s = .returned () u

/-- Every target resolves to the address its request is armed at, if it is. -/
def DeferredSession.Resolved (modules : Modules) (s : DeferredSession) : Prop :=
  ∀ r ∈ s.requests, ∀ x t, resolveTarget modules r.target s = .returned x t →
    x = r.breakpointId.bind fun _ => r.address

namespace DeferredOperation

/-- The target of an operation that adds a request. -/
def target? : DeferredOperation → Option DeferredBreakpointTarget
  | .addSymbol symbol => if symbol.isEmpty then none else some { kind := .symbol, name := symbol }
  | .addSource file line =>
    if file.isEmpty ∨ line = 0 then none else some { kind := .source, name := file, line }
  | _ => none

/-- The ids of breakpoints that the operation hands to the user. -/
def issues (op : DeferredOperation) (s : DeferredSession) : List Nat :=
  match op with
  | .addBreakpoint _ => [s.next]
  | _ => []

variable (modules : Modules) (tracees : Tracees) (op : DeferredOperation) (s : DeferredSession)

/-- The operation comes to set an internal breakpoint at `a` in the session `u`. -/
inductive Installs (a : Addr) (u : DeferredSession) : Prop
  | adding {target : DeferredBreakpointTarget} {request : DeferredBreakpoint} {t : DeferredSession}
      (htarget : op.target? = some target)
      (hopen : openRequest modules target s = .returned request t) (h : Ensures modules t a u)
  | continuing {policy : SignalPolicy} (hop : op = .continueExecution policy)
      (h : Ensures modules s a u)
  | reinstalling {policy : SignalPolicy} {stop : StopInfo} {t : DeferredSession}
      (hop : op = .continueExecution policy) (hstop : Consumes modules tracees s policy stop t)
      (h : Reinstalls modules stop t a u)

/-- What has to hold before an operation for the controller to keep its state in order. -/
structure Orderly : Prop where
  /-- The debugger accepts the internal breakpoints. -/
  installs : ∀ a u, op.Installs modules tracees s a u → u.session.Admits a
  /-- The user adds no breakpoint at an internal address from which the entry has gone. -/
  foreign : ∀ a, op = .addBreakpoint a → s.deferred.Records a → a ∈ s.table
  /-- A request that has to be given up again can be. -/
  givesUp : ∀ target request t e u id, op.target? = some target →
    openRequest modules target s = .returned request t →
    ensureMonitoring modules t = .raised e u → request.breakpointId = some id →
    u.session.Restores id
  /-- A `continueExecution` that throws finds every request where it is. -/
  steady : ∀ policy e t stop u v, op = .continueExecution policy →
    op.run modules tracees s = .raised e t → Consumes modules tracees s policy stop u →
    Reconciles modules stop u v → v.Resolved modules

/-- The controller keeps its state in order: an exception leaves the fields of the internal
breakpoints together and the requests as they were, no stop at a breakpoint of the user is
consumed, and continuing does not fail over a breakpoint that is in the way. -/
structure Sound (users : List Nat) : Prop where
  raised : ∀ e t, op.run modules tracees s = .raised e t →
    t.deferred.Paired ∧ t.deferred.requests = s.deferred.requests
  stops : ∀ policy stop u a bp, op = .continueExecution policy →
    Consumes modules tracees s policy stop u → stop.breakpointAddress = some a →
    u.table[a]? = some bp → bp.id ∉ users
  installs : ∀ policy a u, op = .continueExecution policy → op.Installs modules tracees s a u →
    ∃ id t, arm a u = .returned id t

end DeferredOperation

/-- A session reached by operations before each of which `allowed` holds, with the ids of the
breakpoints that the user has set directly. -/
inductive UserRun (modules : Modules) (tracees : Tracees)
    (allowed : DeferredOperation → DeferredSession → Prop) : List Nat → DeferredSession → Prop
  | start {s : Session} (metadata : LoaderMetadata) (h : Started s) :
    UserRun modules tracees allowed [] ⟨{ metadata }, s, []⟩
  | returned {users : List Nat} {s t : DeferredSession} {op : DeferredOperation}
    {script : List Wakeup} {faults : List (Option Nat)}
    (h : UserRun modules tracees allowed users s) (hallowed : allowed op (s.facing script faults))
    (hrun : op.run modules tracees (s.facing script faults) = .returned () t) :
    UserRun modules tracees allowed (op.issues (s.facing script faults) ++ users) t
  | raised {users : List Nat} {s t : DeferredSession} {op : DeferredOperation}
    {script : List Wakeup} {faults : List (Option Nat)} {e : Exception}
    (h : UserRun modules tracees allowed users s) (hallowed : allowed op (s.facing script faults))
    (hrun : op.run modules tracees (s.facing script faults) = .raised e t) :
    UserRun modules tracees allowed users t

/-! ## The invariant -/

/-- The fields of the internal breakpoints are set together, and where they say one is, no
breakpoint of the user stands. -/
structure DeferredSession.Managed (users : List Nat) (s : DeferredSession) : Prop where
  policy : s.session.dbg.forkFollowPolicy = .parent
  alone : s.session.dbg.retainedProcesses = ∅
  issued : ∀ (a : Addr) (bp : Breakpoint), s.table[a]? = some bp → bp.id < s.next
  known : ∀ id ∈ users, id < s.next
  paired : s.deferred.Paired
  apart : ∀ (a : Addr) (bp : Breakpoint), s.deferred.Records a → s.table[a]? = some bp →
    bp.id ∉ users

/-- Only `rDebugAddress` may have changed in the controller, and nothing in the debugger. -/
def DeferredSession.Same (s t : DeferredSession) : Prop :=
  t.session.dbg = s.session.dbg ∧ ∃ r, t.deferred = { s.deferred with rDebugAddress := r }

instance : Std.Refl DeferredSession.Same where
  refl _ := ⟨rfl, _, rfl⟩

instance : IsTrans DeferredSession DeferredSession.Same where
  trans := by
    rintro s t u ⟨hdbg, r, hdeferred⟩ ⟨hdbg', r', hdeferred'⟩
    exact ⟨hdbg'.trans hdbg, r', by rw [hdeferred', hdeferred]⟩

section Invariant

variable {users : List Nat} {K : ExtTreeMap Nat DeferredBreakpoint → Nat → Prop}
  {modules : Modules} {tracees : Tracees} {s t : DeferredSession} {α : Type}

/-- The command keeps the controller in order, and `K` of the requests and their counter. -/
abbrev KeepsOrder (users : List Nat) (K : ExtTreeMap Nat DeferredBreakpoint → Nat → Prop)
    (x : DeferredAct α) : Prop :=
  Preserves (fun s => s.Managed users ∧ K s.deferred.requests s.deferred.nextRequestId) x

theorem DeferredSession.Managed.same (h : s.Managed users) (ht : s.Same t) : t.Managed users := by
  obtain ⟨hdbg, r, hdeferred⟩ := ht
  refine ⟨hdbg ▸ h.policy, hdbg ▸ h.alone, ?_, ?_, ?_, ?_⟩
  · simpa only [DeferredSession.table, DeferredSession.next, hdbg] using h.issued
  · simpa only [DeferredSession.next, hdbg] using h.known
  · rw [hdeferred]
    exact h.paired
  · intro a bp hrec hbp
    rw [hdeferred] at hrec
    rw [DeferredSession.table, hdbg] at hbp
    exact h.apart a bp hrec hbp

theorem keepsOrder_of_within {x : DeferredAct α} {E : Exception → Prop}
    (hx : Within DeferredSession.Same E x) : KeepsOrder users K x := by
  rintro s ⟨h, hK⟩
  have keep : ∀ t, s.Same t →
      t.Managed users ∧ K t.deferred.requests t.deferred.nextRequestId := by
    intro t ht
    refine ⟨h.same ht, ?_⟩
    obtain ⟨-, r, hdeferred⟩ := ht
    rwa [hdeferred]
  exact hx.wp (fun _ t ht => keep t ht) fun _ t ht _ => keep t ht

/-! ## Looking up -/

/-- Commands that only look. -/
abbrev Looks (x : DeferredAct α) : Prop := Within DeferredSession.Same (fun _ => True) x

theorem looks_raise (e : Exception) : Looks (Command.raise e : DeferredAct α) :=
  fun s => ⟨refl_of DeferredSession.Same s, trivial⟩

theorem looks_check {β : Type} {c : Prop} [Decidable c] {e : Exception} {f : β → DeferredAct α}
    {x : DeferredAct α} (hx : Looks x) :
    Looks (if c then Command.raise e >>= f else x) := by
  intro s
  rw [wp_ite]
  split
  · exact ⟨refl_of DeferredSession.Same s, trivial⟩
  · exact hx s

theorem looks_consult (f : Session → Except Exception α) : Looks (consult f) := by
  refine (Within.read _).bind fun r => ?_
  cases r with
  | ok a => exact Within.pure a
  | error e => exact looks_raise e

theorem looks_readMemory (address : Addr) (length : Nat) :
    Looks (debugger (readMemory address length)) := by
  intro s
  rw [debugger, wp_zoom]
  have alike : ∀ t, s.session.Alike t → s.Same { s with session := t } := by
    rintro t ⟨_, _, _, rfl⟩
    exact ⟨rfl, _, rfl⟩
  exact (within_readMemory address length).wp (fun _ t ht => alike t ht)
    fun _ t ht _ => ⟨alike t ht, trivial⟩

theorem looks_runtimeAddress (a : Word) : Looks (runtimeAddress modules a) :=
  (looks_consult _).bind fun _ => looks_check (Within.pure _)

theorem looks_readRDebug (address : Addr) (what : String) : Looks (readRDebug address what) :=
  (looks_readMemory _ _).bind fun _ => looks_check (Within.pure _)

theorem looks_currentRDebugAddress : Looks (currentRDebugAddress modules) :=
  (Within.read _).bind fun _ => (looks_runtimeAddress _).bind fun _ =>
    ((looks_readMemory _ _).bind fun _ => looks_check (Within.pure _)).bind fun _ =>
      Within.pure _

theorem looks_currentLoaderBreakAddress : Looks currentLoaderBreakAddress := by
  refine (Within.read _).bind fun address => ?_
  cases address with
  | none => exact looks_raise _
  | some address => exact (looks_readRDebug _ _).bind fun _ => looks_check (Within.pure _)

theorem looks_loaderStateIsConsistent : Looks loaderStateIsConsistent := by
  refine (Within.read _).bind fun address => ?_
  cases address with
  | none => exact Within.pure _
  | some address => exact (looks_readRDebug _ _).bind fun _ => Within.pure _

theorem looks_loaderAddress : Looks (loaderAddress modules) := by
  refine looks_currentRDebugAddress.bind fun address => ?_
  cases address with
  | none => exact Within.pure _
  | some address =>
    refine Within.bind (Within.update fun s => ⟨rfl, _, rfl⟩) fun _ => ?_
    exact looks_currentLoaderBreakAddress.bind fun _ => Within.pure _

theorem looks_entryAddress : Looks (entryAddress modules) :=
  (Within.read _).bind fun _ => looks_runtimeAddress _

/-! ## The table -/

/-- No entry has been added. -/
theorem DeferredSession.Managed.shrink (h : s.Managed users) (hdeferred : t.deferred = s.deferred)
    (ht : t.session.Confined s.session.dbg.heldIds s.next) : t.Managed users := by
  have old : ∀ (a : Addr) (bp : Breakpoint), t.table[a]? = some bp →
      ∃ bp', s.table[a]? = some bp' ∧ bp'.id = bp.id := fun a bp hbp =>
    Option.map_eq_some_iff.mp (ht.entries a bp hbp)
  refine ⟨ht.policy, ht.alone, fun a bp hbp => ?_, fun id hid => ?_, hdeferred ▸ h.paired,
    fun a bp hrec hbp => ?_⟩
  · obtain ⟨bp', hbp', hid⟩ := old a bp hbp
    exact hid ▸ (h.issued a bp' hbp').trans_eq ht.next.symm
  · exact (h.known id hid).trans_eq ht.next.symm
  · obtain ⟨bp', hbp', hid⟩ := old a bp hbp
    rw [hdeferred] at hrec
    exact hid ▸ h.apart a bp' hrec hbp'

theorem DeferredSession.Managed.confined (h : s.Managed users) :
    s.session.Confined s.session.dbg.heldIds s.next := Session.confined h.policy h.alone

/-- A call of the debugger that adds no entry. -/
theorem keepsOrder_debugger {x : Act α}
    (hx : ∀ (held : Addr → Option Nat) (next : Nat) (u : Session), u.Confined held next →
      wp x (confining held next) u) : KeepsOrder users K (debugger x) := by
  rintro s ⟨h, hK⟩
  rw [debugger, wp_zoom]
  exact wp_mono (hx _ _ _ h.confined) (fun _ u hu => ⟨h.shrink rfl hu, hK⟩)
    (fun _ u hu => ⟨h.shrink rfl hu, hK⟩) fun _ _ _ => trivial

theorem wp_arm {a : Addr} {Q : Post WaitCall Exception DeferredSession Nat}
    (armed : ∀ t original, t.deferred = s.deferred →
      t.session.dbg = s.session.dbg.insertBreakpoint a original → a ∉ s.table →
      Q.returned s.next t)
    (refused : ∀ t e, t.deferred = s.deferred → t.session.dbg = s.session.dbg → Q.raised e t) :
    wp (arm a) Q s := by
  simp only [arm, record, debugger, wp_bind, wp_update, wp_zoom]
  exact wp_addBreakpoint (fun faults original _ _ _ hfree _ _ => armed _ original rfl rfl hfree)
    fun faults e => refused _ e rfl rfl

/-- The debugger sets the breakpoints it accepts. -/
theorem wp_arm_of_admits {a : Addr} (h : s.session.Admits a) :
    wp (arm a) ⟨fun _ _ => True, fun _ _ => False, fun _ _ => False⟩ s := by
  obtain ⟨hready, hpolicy, hfree, original, u, v, hread, hwrite⟩ := h
  have hfree : s.session.dbg.breakpointsByAddress.contains a = false := by
    rw [← Bool.not_eq_true, ExtTreeMap.contains_iff_mem]
    exact hfree
  simp only [arm, record, debugger, addBreakpoint, wp_bind, wp_update, wp_zoom, wp_view, wp_ite,
    wp_raise, if_neg hpolicy]
  refine wp_stoppedTid (fun _ _ _ => ?_) fun _ hnot => hnot hready
  simp only [hfree, Bool.false_eq_true, if_false]
  rw [wp_of_returned hread]
  dsimp only
  rw [wp_of_returned hwrite]
  trivial

theorem wp_disarm {id : Nat} {Q : Post WaitCall Exception DeferredSession Bool}
    (unknown : ∀ t, t.deferred = s.deferred → t.session.dbg = s.session.dbg → Q.returned false t)
    (removed : ∀ t a, t.deferred = s.deferred →
      t.session.dbg = (s.session.dbg.clearPendingStep a).eraseBreakpoint id a → Q.returned true t)
    (refused : ∀ t e, t.deferred = s.deferred → t.session.dbg = s.session.dbg → Q.raised e t) :
    wp (disarm id) Q s := by
  simp only [disarm, record, debugger, wp_bind, wp_update, wp_zoom]
  exact wp_removeBreakpoint (fun _ => unknown _ rfl rfl)
    (fun a _ _ _ _ _ _ _ => removed _ a rfl rfl) (fun a _ _ => removed _ a rfl rfl)
    fun faults e => refused _ e rfl rfl

theorem wp_disarm_of_restores {id : Nat} (h : s.session.Restores id) :
    wp (disarm id) ⟨fun _ _ => True, fun _ _ => False, fun _ _ => False⟩ s := by
  simp only [disarm, record, debugger, removeBreakpoint, wp_bind, wp_update, wp_zoom, wp_view]
  rcases hid : s.session.dbg.breakpointIds[id]? with _ | a
  · trivial
  · simp only [wp_bind, wp_view]
    rcases hbp : s.session.dbg.breakpointsByAddress[a]? with _ | bp
    · trivial
    · obtain ⟨hready, u, hwrite⟩ := h a bp hid hbp
      simp only [wp_ite, wp_bind]
      split
      · refine wp_stoppedTid (fun _ _ _ => ?_) fun _ hnot => hnot hready
        dsimp only
        rw [wp_of_returned hwrite]
        trivial
      · trivial

theorem DeferredSession.Managed.same_dbg (h : s.Managed users) (hdeferred : t.deferred = s.deferred)
    (hdbg : t.session.dbg = s.session.dbg) : t.Managed users := h.same ⟨hdbg, _, hdeferred⟩

theorem DeferredSession.Managed.erase (h : s.Managed users) {id : Nat} {a : Addr}
    (hdeferred : t.deferred = s.deferred)
    (hdbg : t.session.dbg = (s.session.dbg.clearPendingStep a).eraseBreakpoint id a) :
    t.Managed users := by
  have hstep : t.session.dbg.forkFollowPolicy = s.session.dbg.forkFollowPolicy ∧
      t.session.dbg.retainedProcesses = s.session.dbg.retainedProcesses ∧
      t.session.dbg.nextBreakpointId = s.session.dbg.nextBreakpointId ∧
      t.session.dbg.breakpointsByAddress = s.session.dbg.breakpointsByAddress.erase a := by
    rw [hdbg]
    unfold Debugger.clearPendingStep
    split <;> exact ⟨rfl, rfl, rfl, rfl⟩
  obtain ⟨hpolicy, hretained, hnext, htable⟩ := hstep
  refine h.shrink hdeferred ⟨hpolicy.trans h.policy, hretained.trans h.alone, ?_, hnext⟩
  intro a' bp hbp
  rw [htable, ExtTreeMap.getElem?_erase] at hbp
  split at hbp
  · cases hbp
  · exact h.confined.entries a' bp hbp

/-- A new breakpoint, at whose address an internal one may be recorded. -/
theorem DeferredSession.Managed.insert (h : s.Managed users) {a : Addr} {original : Byte}
    (hdbg : t.session.dbg = s.session.dbg.insertBreakpoint a original)
    (hpaired : t.deferred.Paired)
    (hrecords : ∀ a', t.deferred.Records a' → a' = a ∨ s.deferred.Records a') :
    t.Managed users := by
  have htable : t.table = s.table.insert a ⟨s.next, a, original, true⟩ := by
    rw [DeferredSession.table, hdbg]
    rfl
  have hnext : t.next = s.next + 1 := by
    rw [DeferredSession.next, hdbg]
    rfl
  refine ⟨by rw [hdbg]; exact h.policy, by rw [hdbg]; exact h.alone, fun a' bp hbp => ?_,
    fun id hid => ?_, hpaired, fun a' bp hrec hbp => ?_⟩
  · rw [htable, ExtTreeMap.getElem?_insert] at hbp
    split at hbp
    · cases hbp
      exact hnext ▸ Nat.lt_succ_self _
    · have := h.issued a' bp hbp
      omega
  · have := h.known id hid
    omega
  · rw [htable, ExtTreeMap.getElem?_insert] at hbp
    split at hbp
    · cases hbp
      exact fun hin => (h.known _ hin).false
    · rename_i hne
      have hne : a' ≠ a := fun heq => hne (by simp [heq])
      exact h.apart a' bp ((hrecords a' hrec).resolve_left hne) hbp

/-- A breakpoint of the user, at an address that is not recorded. -/
theorem DeferredSession.Managed.insert_user (h : s.Managed users) {a : Addr} {original : Byte}
    (hdeferred : t.deferred = s.deferred)
    (hdbg : t.session.dbg = s.session.dbg.insertBreakpoint a original)
    (hforeign : ¬s.deferred.Records a) : t.Managed (s.next :: users) := by
  have ht : t.Managed users :=
    h.insert hdbg (hdeferred ▸ h.paired) fun a' ha' => .inr (hdeferred ▸ ha')
  have htable : t.table = s.table.insert a ⟨s.next, a, original, true⟩ := by
    rw [DeferredSession.table, hdbg]
    rfl
  have hnext : t.next = s.next + 1 := by
    rw [DeferredSession.next, hdbg]
    rfl
  refine ⟨ht.policy, ht.alone, ht.issued, fun id hid => ?_, ht.paired, fun a' bp hrec hbp => ?_⟩
  · rcases List.mem_cons.mp hid with rfl | hid
    · omega
    · exact ht.known id hid
  · intro hin
    rcases List.mem_cons.mp hin with hid | hin
    · rw [hdeferred] at hrec
      have hne : a ≠ a' := by
        rintro rfl
        exact hforeign hrec
      rw [htable, ExtTreeMap.getElem?_insert, if_neg (by simpa using hne)] at hbp
      exact (h.issued a' bp hbp).ne hid
    · exact ht.apart a' bp hrec hbp hin

theorem keepsOrder_arm (a : Addr) : KeepsOrder users K (arm a) := by
  rintro s ⟨h, hK⟩
  refine wp_arm (fun t original hdeferred hdbg _ => ?_) fun t e hdeferred hdbg => ?_
  · exact ⟨h.insert hdbg (hdeferred ▸ h.paired) fun a' ha' => .inr (hdeferred ▸ ha'),
      hdeferred ▸ hK⟩
  · exact ⟨h.same_dbg hdeferred hdbg, hdeferred ▸ hK⟩

theorem keepsOrder_discard (id : Nat) : KeepsOrder users K (discard id) := by
  rintro s ⟨h, hK⟩
  simp only [discard, record, debugger, discardBreakpoint, wp_bind, wp_update, wp_zoom, wp_view]
  rcases s.session.dbg.breakpointIds[id]? with _ | a
  · exact ⟨h.same_dbg rfl rfl, hK⟩
  · exact ⟨h.erase rfl rfl, hK⟩

/-! ## Watching the loader -/

/-- Nothing is raised, and the requests stay as they are. -/
def settled (users : List Nat) (s : DeferredSession) :
    Post WaitCall Exception DeferredSession Unit where
  returned _ t := t.Managed users ∧ t.deferred.requests = s.deferred.requests ∧
    t.deferred.nextRequestId = s.deferred.nextRequestId
  raised _ _ := False
  blocked _ _ := False

/-- Removing an internal breakpoint always comes to forgetting it. -/
theorem wp_removeInternalBreakpoint {id : Option Nat}
    {reset : DeferredBreakpoints → DeferredBreakpoints}
    {Q : Post WaitCall Exception DeferredSession Unit} (h : s.Managed users)
    (forgotten : ∀ t : DeferredSession, t.deferred = s.deferred → t.Managed users →
      Q.returned () { t with deferred := reset s.deferred }) :
    wp (removeInternalBreakpoint id reset) Q s := by
  have done : ∀ t : DeferredSession, t.deferred = s.deferred → t.Managed users →
      Q.returned () { t with deferred := reset t.deferred } := fun t hdeferred ht => by
    rw [hdeferred]
    exact forgotten t hdeferred ht
  cases id with
  | none => exact done s rfl h
  | some id =>
    simp only [removeInternalBreakpoint, DeferredBreakpoints.modify, debugger, view, wp_bind,
      wp_handle, wp_zoom, wp_read, wp_ite, wp_pure, wp_update]
    split
    · exact wp_disarm (fun t hdeferred hdbg => done t hdeferred (h.same_dbg hdeferred hdbg))
        (fun t a hdeferred hdbg => done t hdeferred (h.erase hdeferred hdbg))
        fun t e hdeferred hdbg => done t hdeferred (h.same_dbg hdeferred hdbg)
    · exact done _ rfl (h.same_dbg rfl rfl)

theorem wp_removeLoaderBreakpoint (h : s.Managed users) :
    wp removeLoaderBreakpoint (settled users s) s := by
  simp only [removeLoaderBreakpoint, DeferredBreakpoints.get, wp_bind, wp_read]
  refine wp_removeInternalBreakpoint h fun t hdeferred ht => ⟨⟨ht.policy, ht.alone, ht.issued,
    ht.known, ⟨rfl, h.paired.2⟩, fun a bp hrec hbp => ?_⟩, rfl, rfl⟩
  refine ht.apart a bp (.inr ?_) hbp
  rw [hdeferred]
  exact hrec.resolve_left (by rintro ⟨⟩)

theorem wp_removeBootstrapBreakpoint (h : s.Managed users) :
    wp removeBootstrapBreakpoint (settled users s) s := by
  simp only [removeBootstrapBreakpoint, DeferredBreakpoints.get, wp_bind, wp_read]
  refine wp_removeInternalBreakpoint h fun t hdeferred ht => ⟨⟨ht.policy, ht.alone, ht.issued,
    ht.known, ⟨h.paired.1, rfl⟩, fun a bp hrec hbp => ?_⟩, rfl, rfl⟩
  refine ht.apart a bp (.inl ?_) hbp
  rw [hdeferred]
  exact hrec.resolve_right (by rintro ⟨⟩)

theorem wp_suspendMonitoring (h : s.Managed users) :
    wp suspendMonitoring (settled users s) s := by
  simp only [suspendMonitoring, wp_bind]
  refine wp_mono (wp_removeLoaderBreakpoint h) (fun _ t ht => ?_) (fun _ _ ht => ht)
    fun _ _ ht => ht
  exact wp_mono (wp_removeBootstrapBreakpoint ht.1)
    (fun _ u hu => ⟨hu.1, hu.2.1.trans ht.2.1, hu.2.2.trans ht.2.2⟩) (fun _ _ hu => hu)
    fun _ _ hu => hu

/-- `suspendMonitoring` returns from any session. -/
theorem wp_suspendMonitoring_of_any (s : DeferredSession) :
    wp suspendMonitoring ⟨fun _ _ => True, fun _ _ => False, fun _ _ => False⟩ s := by
  have hremoved : ∀ (id : Option Nat) reset t, wp (removeInternalBreakpoint id reset)
      ⟨fun _ _ => True, fun _ _ => False, fun _ _ => False⟩ t := by
    intro id reset t
    cases id with
    | none => trivial
    | some id =>
      simp only [removeInternalBreakpoint, DeferredBreakpoints.modify, debugger, wp_bind, wp_handle,
        wp_zoom, wp_view, wp_ite, wp_pure, wp_update]
      split
      · exact wp_disarm (fun _ _ _ => trivial) (fun _ _ _ _ => trivial) fun _ _ _ _ => trivial
      · trivial
  simp only [suspendMonitoring, removeLoaderBreakpoint, removeBootstrapBreakpoint,
    DeferredBreakpoints.get, wp_bind, wp_read]
  exact wp_mono (hremoved _ _ _) (fun _ t _ => hremoved _ _ t) (fun _ _ h => h) fun _ _ h => h

theorem wp_stopMonitoringIfIdle (h : s.Managed users) :
    wp stopMonitoringIfIdle (settled users s) s := by
  simp only [stopMonitoringIfIdle, DeferredBreakpoints.get, DeferredBreakpoints.modify, wp_bind,
    wp_read, wp_ite, wp_pure, wp_update]
  split
  · refine wp_mono (wp_suspendMonitoring h) (fun _ t ht => ?_) (fun _ _ ht => ht)
      fun _ _ ht => ht
    exact ⟨ht.1.same ⟨rfl, _, rfl⟩, ht.2⟩
  · exact ⟨h, rfl, rfl⟩

theorem wp_armLoader (h : s.Managed users) {a : Addr} (hd : s.session.Admits a) :
    wp (armLoader a) ⟨fun r t => r = true ∧ t.Managed users ∧
      t.deferred.requests = s.deferred.requests ∧
      t.deferred.nextRequestId = s.deferred.nextRequestId, fun _ _ => False,
      fun _ _ => False⟩ s := by
  simp only [armLoader, DeferredBreakpoints.modify, wp_bind, wp_update, wp_pure]
  refine wp_mono (wp_and (wp_arm_of_admits hd) (wp_arm
    (Q := ⟨fun id t => t.deferred = { s.deferred with loaderBreakpointAddress := some a } ∧
      ∃ original, t.session.dbg = s.session.dbg.insertBreakpoint a original,
      fun _ _ => True, fun _ _ => True⟩)
    (fun t original hdeferred hdbg _ => ⟨hdeferred, original, hdbg⟩) fun _ _ _ _ => trivial))
    ?_ (fun _ _ ht => ht.1) fun _ _ ht => ht.1
  rintro id t ⟨-, hdeferred, original, hdbg⟩
  dsimp only
  rw [hdeferred]
  exact ⟨trivial, h.insert hdbg ⟨rfl, h.paired.2⟩ fun a' ha' =>
    ha'.elim (fun heq => .inl (Option.some.inj heq).symm) fun hb => .inr (.inr hb), rfl, rfl⟩

theorem wp_armBootstrap (h : s.Managed users) {a : Addr} (hd : s.session.Admits a) :
    wp (armBootstrap a) (settled users s) s := by
  simp only [armBootstrap, DeferredBreakpoints.modify, wp_bind, wp_update]
  refine wp_mono (wp_and (wp_arm_of_admits hd) (wp_arm
    (Q := ⟨fun id t => t.deferred = { s.deferred with bootstrapBreakpointAddress := some a } ∧
      ∃ original, t.session.dbg = s.session.dbg.insertBreakpoint a original,
      fun _ _ => True, fun _ _ => True⟩)
    (fun t original hdeferred hdbg _ => ⟨hdeferred, original, hdbg⟩) fun _ _ _ _ => trivial))
    ?_ (fun _ _ ht => ht.1) fun _ _ ht => ht.1
  rintro id t ⟨-, hdeferred, original, hdbg⟩
  dsimp only
  rw [hdeferred]
  exact ⟨h.insert hdbg ⟨h.paired.1, rfl⟩ fun a' ha' =>
    ha'.elim (fun hl => .inr (.inl hl)) fun heq => .inl (Option.some.inj heq).symm, rfl, rfl⟩

/-- However the command ends, the controller is in order. -/
def ordered (users : List Nat) (K : ExtTreeMap Nat DeferredBreakpoint → Nat → Prop) {α : Type} :
    Post WaitCall Exception DeferredSession α where
  returned _ t := t.Managed users ∧ K t.deferred.requests t.deferred.nextRequestId
  raised _ t := t.Managed users ∧ K t.deferred.requests t.deferred.nextRequestId
  blocked _ _ := True

theorem ordered_tryInstallLoaderBreakpoint (h : s.Managed users)
    (hK : K s.deferred.requests s.deferred.nextRequestId)
    (hadmits : ∀ a u, loaderAddress modules s = .returned (some a) u → u.session.Admits a) :
    wp (tryInstallLoaderBreakpoint modules) (ordered users K) s := by
  rw [wp_tryInstallLoaderBreakpoint]
  refine wp_mono_eq (keepsOrder_of_within looks_loaderAddress s ⟨h, hK⟩) (fun r u hu ht => ?_)
    (fun _ _ _ ht => ht) fun _ _ _ ht => ht
  cases r with
  | none => exact ht
  | some a =>
    refine wp_mono (wp_armLoader ht.1 (hadmits a u hu)) (fun _ v hv => ?_)
      (fun _ _ hv => hv.elim) fun _ _ hv => hv.elim
    exact ⟨hv.2.1, hv.2.2.1 ▸ hv.2.2.2 ▸ ht.2⟩

theorem ordered_ensureMonitoring (h : s.Managed users)
    (hK : K s.deferred.requests s.deferred.nextRequestId)
    (hadmits : ∀ a u, Ensures modules s a u → u.session.Admits a) :
    wp (ensureMonitoring modules) (ordered users K) s := by
  simp only [ensureMonitoring, DeferredBreakpoints.get, wp_bind, wp_read, wp_ite, wp_pure, id_eq]
  split
  · exact ⟨h, hK⟩
  rename_i hneeded
  rw [wp_tryInstallLoaderBreakpoint]
  refine wp_mono_eq (keepsOrder_of_within looks_loaderAddress s ⟨h, hK⟩) (fun r u hu ht => ?_)
    (fun _ _ _ ht => ht) fun _ _ _ ht => ht
  cases r with
  | none =>
    show wp (installBootstrapBreakpoint modules) _ u
    rw [wp_installBootstrapBreakpoint]
    refine wp_mono_eq (keepsOrder_of_within looks_entryAddress u ht) (fun a v hv hv' => ?_)
      (fun _ _ _ ht => ht) fun _ _ _ ht => ht
    refine wp_mono (wp_armBootstrap hv'.1 (hadmits a v (.bootstrap hneeded hu hv)))
      (fun _ w hw => ?_) (fun _ _ hw => hw.elim) fun _ _ hw => hw.elim
    exact ⟨hw.1, hw.2.1 ▸ hw.2.2 ▸ hv'.2⟩
  | some a =>
    refine wp_mono (wp_armLoader ht.1 (hadmits a u (.loader hneeded hu))) ?_
      (fun _ _ hv => hv.elim) fun _ _ hv => hv.elim
    rintro r v ⟨rfl, hv, hrequests, hnext⟩
    exact ⟨hv, hrequests ▸ hnext ▸ ht.2⟩

/-! ## Requests -/

/-- The ids of the requests have been issued. -/
def Numbered (requests : ExtTreeMap Nat DeferredBreakpoint) (next : Nat) : Prop :=
  ∀ (n : Nat) (r : DeferredBreakpoint), requests[n]? = some r → n < next ∧ r.requestId < next

theorem Numbered.insert {requests : ExtTreeMap Nat DeferredBreakpoint} {next : Nat}
    {request : DeferredBreakpoint} (h : Numbered requests next) (hid : request.requestId < next) :
    Numbered (requests.insert request.requestId request) next := by
  intro n r hr
  rw [ExtTreeMap.getElem?_insert] at hr
  split at hr
  · rename_i heq
    cases hr
    have heq : request.requestId = n := by simpa using heq
    exact ⟨heq ▸ hid, hid⟩
  · exact h n r hr

theorem Numbered.erase {requests : ExtTreeMap Nat DeferredBreakpoint} {next : Nat}
    (h : Numbered requests next) (n : Nat) : Numbered (requests.erase n) next := by
  intro m r hr
  rw [ExtTreeMap.getElem?_erase] at hr
  split at hr
  · cases hr
  · exact h m r hr

theorem Numbered.mono {requests : ExtTreeMap Nat DeferredBreakpoint} {next next' : Nat}
    (h : Numbered requests next) (hle : next ≤ next') : Numbered requests next' := fun n r hr =>
  ⟨(h n r hr).1.trans_le hle, (h n r hr).2.trans_le hle⟩

/-- Taking a new request back. -/
theorem Numbered.erase_insert {requests : ExtTreeMap Nat DeferredBreakpoint} {next : Nat}
    (h : Numbered requests next) (request : DeferredBreakpoint) :
    (requests.insert next request).erase next = requests := by
  ext n r
  rw [ExtTreeMap.getElem?_erase, ExtTreeMap.getElem?_insert]
  by_cases heq : next = n
  · subst heq
    have : requests[next]? = none := by
      rcases hr : requests[next]? with _ | r
      · rfl
      · exact absurd (h next r hr).1 (lt_irrefl _)
    simp [this]
  · simp [heq]

/-- The controller is in order when nothing changes but its requests. -/
theorem DeferredSession.Managed.requests (h : s.Managed users)
    (requests : ExtTreeMap Nat DeferredBreakpoint) (next : Nat) :
    DeferredSession.Managed users
      { s with deferred := { s.deferred with requests, nextRequestId := next } } :=
  ⟨h.policy, h.alone, h.issued, h.known, h.paired, h.apart⟩

/-- A new request is stored under a new id; an exception leaves the requests alone. -/
theorem wp_openRequest (h : s.Managed users) (target : DeferredBreakpointTarget) :
    wp (openRequest modules target)
      ⟨fun request t => t.Managed users ∧ request.requestId = s.deferred.nextRequestId ∧
        t.deferred.requests = s.deferred.requests.insert request.requestId request ∧
        t.deferred.nextRequestId = s.deferred.nextRequestId + 1,
      fun _ t => t.Managed users ∧ t.deferred.requests = s.deferred.requests ∧
        s.deferred.nextRequestId ≤ t.deferred.nextRequestId, fun _ _ => True⟩ s := by
  simp only [openRequest, debugger, view, DeferredBreakpoints.get, DeferredBreakpoints.modify,
    wp_bind, wp_zoom, wp_read, wp_ite, wp_raise, wp_update, id_eq]
  split
  · exact ⟨h, trivial, le_rfl⟩
  split
  · exact ⟨h, trivial, le_rfl⟩
  have hopened := h.requests s.deferred.requests (s.deferred.nextRequestId + 1)
  generalize hu : DeferredSession.mk _ _ _ = u
  have hu' : u.Managed users ∧ u.deferred.requests = s.deferred.requests ∧
      u.deferred.nextRequestId = s.deferred.nextRequestId + 1 := by
    subst hu
    exact ⟨hopened, rfl, rfl⟩
  have hkeep : ∀ {β : Type} {x : DeferredAct β}, (∀ K, KeepsOrder users K x) →
      KeepsOrder users (fun requests next => requests = s.deferred.requests ∧
        next = s.deferred.nextRequestId + 1) x := fun hx => hx _
  refine wp_mono (hkeep (fun _ => keepsOrder_of_within (looks_consult _)) u hu')
    (fun resolved v hv => ?_) (fun e v hv => ?_) fun _ _ _ => trivial
  · cases resolved with
    | none =>
      simp only [store, DeferredBreakpoints.modify, wp_bind, wp_pure, wp_update]
      exact ⟨hv.1.requests _ _, trivial, by rw [hv.2.1], hv.2.2⟩
    | some a =>
      simp only [store, DeferredBreakpoints.modify, wp_bind, wp_pure, wp_update]
      refine wp_mono (hkeep (fun _ => keepsOrder_arm a) v hv) (fun id w hw => ?_) (fun e w hw => ?_)
        fun _ _ _ => trivial
      · exact ⟨hw.1.requests _ _, trivial, by rw [hw.2.1], hw.2.2⟩
      · exact ⟨hw.1, hw.2.1, by rw [hw.2.2]; omega⟩
  · exact ⟨hv.1, hv.2.1, by rw [hv.2.2]; omega⟩

/-- The controller is in order and its requests are numbered. -/
abbrev DeferredSession.InOrder (users : List Nat) (s : DeferredSession) : Prop :=
  s.Managed users ∧ Numbered s.deferred.requests s.deferred.nextRequestId

/-- The command keeps the order, and the requests if it throws. -/
def unharmed (users : List Nat) (s : DeferredSession) {α : Type} :
    Post WaitCall Exception DeferredSession α where
  returned _ t := t.InOrder users
  raised _ t := t.InOrder users ∧ t.deferred.requests = s.deferred.requests
  blocked _ _ := True

/-- Giving a request up: its breakpoint can be removed, and then the request is forgotten. -/
theorem wp_rollBack {request : DeferredBreakpoint} {e : Exception} (h : s.Managed users)
    (hd : ∀ id, request.breakpointId = some id → s.session.Restores id) :
    wp (rollBack request e) ⟨fun _ _ => False, fun _ t => t.Managed users ∧
      t.deferred.requests = s.deferred.requests.erase request.requestId ∧
      t.deferred.nextRequestId = s.deferred.nextRequestId, fun _ _ => False⟩ s := by
  unfold rollBack
  cases hid : request.breakpointId with
  | none =>
    simp only [DeferredBreakpoints.modify, wp_bind, wp_update, wp_raise]
    exact ⟨h.requests _ _, trivial, trivial⟩
  | some id =>
    simp only [DeferredBreakpoints.modify, wp_bind, wp_update, wp_raise]
    refine wp_mono (wp_and (wp_disarm_of_restores (hd id hid)) (wp_disarm
      (Q := ⟨fun _ t => t.Managed users ∧ t.deferred = s.deferred, fun _ _ => True,
        fun _ _ => True⟩)
      (fun t hdeferred hdbg => ⟨h.same_dbg hdeferred hdbg, hdeferred⟩)
      (fun t a hdeferred hdbg => ⟨h.erase hdeferred hdbg, hdeferred⟩) fun _ _ _ _ => trivial))
      ?_ (fun _ _ ht => ht.1.elim) fun _ _ ht => ht.1
    rintro _ t ⟨-, ht, hdeferred⟩
    exact ⟨ht.requests _ _, by rw [hdeferred], by rw [hdeferred]⟩

theorem unharmed_addTarget (h : s.InOrder users) (target : DeferredBreakpointTarget)
    (hadmits : ∀ request t a u, openRequest modules target s = .returned request t →
      Ensures modules t a u → u.session.Admits a)
    (hgivesUp : ∀ request t e u id, openRequest modules target s = .returned request t →
      ensureMonitoring modules t = .raised e u → request.breakpointId = some id →
      u.session.Restores id) :
    wp (addTarget modules target) (unharmed users s) s := by
  obtain ⟨h, hnumbered⟩ := h
  rw [wp_addTarget]
  refine wp_mono_eq (wp_openRequest h target) (fun request t hopen ht => ?_)
    (fun e t _ ht => ?_) fun _ _ _ ht => ht
  · obtain ⟨ht, hid, hrequests, hnext⟩ := ht
    have hnew : Numbered t.deferred.requests t.deferred.nextRequestId := by
      rw [hrequests, hnext]
      exact (hnumbered.mono (Nat.le_succ _)).insert (by rw [hid]; exact Nat.lt_succ_self _)
    have hensure := ordered_ensureMonitoring (K := fun requests next =>
      requests = t.deferred.requests ∧ next = t.deferred.nextRequestId) ht ⟨rfl, rfl⟩
      fun a u => hadmits request t a u hopen
    dsimp only
    rw [wp_handle]
    refine wp_mono_eq hensure (fun _ u _ hu => ⟨hu.1, by rw [hu.2.1, hu.2.2]; exact hnew⟩)
      (fun e u hraised hu => ?_) fun _ _ _ _ => trivial
    refine wp_mono (wp_rollBack hu.1 fun id hbp => hgivesUp request t e u id hopen hraised hbp)
      (fun _ _ hv => hv.elim) (fun e' v hv => ?_) fun _ _ hv => hv.elim
    have hback : v.deferred.requests = s.deferred.requests := by
      rw [hv.2.1, hu.2.1, hrequests, hid]
      exact hnumbered.erase_insert request
    refine ⟨⟨hv.1, ?_⟩, hback⟩
    rw [hback, hv.2.2, hu.2.2, hnext]
    exact hnumbered.mono (Nat.le_succ _)
  · exact ⟨⟨ht.1, by rw [ht.2.1]; exact hnumbered.mono ht.2.2⟩, ht.2.1⟩

/-- `remove` throws, if at all, before it has changed anything. -/
theorem unharmed_remove (h : s.InOrder users) (requestId : Nat) :
    wp (remove requestId) (unharmed users s) s := by
  obtain ⟨h, hnumbered⟩ := h
  have rest : ∀ t : DeferredSession, t.Managed users → t.deferred = s.deferred →
      wp (do
        DeferredBreakpoints.modify fun d => { d with requests := d.requests.erase requestId }
        stopMonitoringIfIdle
        return true) (unharmed users s) t := by
    intro t ht hdeferred
    simp only [DeferredBreakpoints.modify, wp_bind, wp_update, wp_pure]
    refine wp_mono (wp_stopMonitoringIfIdle (ht.requests _ _)) (fun _ u hu => ⟨hu.1, ?_⟩)
      (fun _ _ hu => hu.elim) fun _ _ hu => hu.elim
    rw [hu.2.1, hu.2.2, hdeferred]
    exact hnumbered.erase requestId
  simp only [remove, DeferredBreakpoints.get, wp_bind, wp_read]
  rcases s.deferred.requests[requestId]? with _ | request
  · exact ⟨h, hnumbered⟩
  · cases hid : request.breakpointId with
    | none =>
      simp only [hid]
      exact rest s h rfl
    | some id =>
      simp only [hid, wp_bind]
      have raised : ∀ t : DeferredSession, t.Managed users → t.deferred = s.deferred →
          t.InOrder users ∧ t.deferred.requests = s.deferred.requests := fun t ht hdeferred =>
        ⟨⟨ht, hdeferred ▸ hnumbered⟩, by rw [hdeferred]⟩
      exact wp_disarm (fun t hdeferred hdbg => raised t (h.same_dbg hdeferred hdbg) hdeferred)
        (fun t a hdeferred hdbg => rest t (h.erase hdeferred hdbg) hdeferred)
        fun t e hdeferred hdbg => raised t (h.same_dbg hdeferred hdbg) hdeferred

/-! ## Reconciling -/

/-- No request is added. -/
def NumberedBy (next : Nat) (requests : ExtTreeMap Nat DeferredBreakpoint) (n : Nat) : Prop :=
  Numbered requests n ∧ n = next

/-- Storing a request of the map again. -/
theorem keepsOrder_store {next : Nat} {request : DeferredBreakpoint}
    (hid : request.requestId < next) : KeepsOrder users (NumberedBy next) (store request) :=
  Preserves.update fun _ ⟨h, hnumbered, hnext⟩ =>
    ⟨h.requests _ _, hnumbered.insert (hnext ▸ hid), hnext⟩

theorem keepsOrder_armRequest {next : Nat} {request : DeferredBreakpoint}
    (hid : request.requestId < next) (resolved : Option Addr) :
    KeepsOrder users (NumberedBy next) (armRequest request resolved) := by
  cases resolved with
  | none => exact Preserves.pure _
  | some a =>
    exact Preserves.bind (keepsOrder_store hid) fun _ =>
      (keepsOrder_arm (K := NumberedBy next) a).bind fun _ => keepsOrder_store hid

theorem keepsOrder_reconcileRequest {next : Nat} {request : DeferredBreakpoint}
    (hid : request.requestId < next) :
    KeepsOrder users (NumberedBy next) (reconcileRequest modules request) := by
  refine Preserves.bind (keepsOrder_of_within (K := NumberedBy next) (looks_consult _))
    fun resolved => ?_
  cases request.breakpointId with
  | none => exact keepsOrder_armRequest hid _
  | some id =>
    cases request.address with
    | none => exact Preserves.raise _
    | some a =>
      refine Preserves.ite (Preserves.pure _) (Preserves.bind ?_ fun _ =>
        keepsOrder_armRequest hid _)
      exact (keepsOrder_discard (K := NumberedBy next) id).bind fun _ =>
        Preserves.check (keepsOrder_store hid)

theorem ordered_reconcileRequests (h : s.InOrder users) :
    wp (reconcileRequests modules) (ordered users Numbered) s := by
  simp only [reconcileRequests, DeferredBreakpoints.get, wp_bind, wp_read]
  refine wp_mono (wp_forEach (fun request hrequest t ht => keepsOrder_reconcileRequest ?_ t ht) s
    ⟨h.1, h.2, rfl⟩) (fun _ t ht => ⟨ht.1, ht.2.1⟩) (fun _ t ht => ⟨ht.1, ht.2.1⟩) fun _ _ ht => ht
  obtain ⟨n, hn⟩ := DeferredSession.mem_requests.mp hrequest
  exact (h.2 n request hn).2

/-- Where every request is as it should be, nothing changes. -/
theorem wp_reconcileRequests_of_resolved (h : s.Resolved modules) :
    wp (reconcileRequests modules) ⟨fun _ t => t = s, fun _ t => t = s, fun _ _ => True⟩ s := by
  simp only [reconcileRequests, DeferredBreakpoints.get, wp_bind, wp_read]
  refine wp_forEach (fun request hrequest t ht => ?_) s rfl
  subst ht
  have hresolved := h request hrequest
  simp only [reconcileRequest, wp_bind]
  have hlook : wp (resolveTarget modules request.target)
      ⟨fun _ u => u = t, fun _ u => u = t, fun _ _ => True⟩ t := by
    simp only [resolveTarget, consult, wp_bind, wp_read]
    split <;> rfl
  refine wp_mono_eq hlook (fun x u hx hu => ?_) (fun _ _ _ hu => hu) fun _ _ _ hu => hu
  subst hu
  have hx := hresolved x u hx
  cases hid : request.breakpointId with
  | none =>
    rw [hid] at hx
    subst hx
    rfl
  | some id =>
    cases ha : request.address with
    | none => rfl
    | some a =>
      rw [hid, ha] at hx
      simp [hx]

/-! ## Continuing -/

/-- Handling an internal stop keeps what reconciliation keeps. -/
theorem ordered_handleInternalStop {stop : StopInfo} (h : s.Managed users)
    (hK : K s.deferred.requests s.deferred.nextRequestId)
    (hadmits : ∀ a u, Reinstalls modules stop s a u → u.session.Admits a)
    (hreconcile : ∀ u, Reconciles modules stop s u → u.Managed users →
      K u.deferred.requests u.deferred.nextRequestId →
      wp (reconcileRequests modules) (ordered users K) u) :
    wp (handleInternalStop modules stop) (ordered users K) s := by
  simp only [handleInternalStop, reconcileIfConsistent, DeferredBreakpoints.get, wp_bind, wp_read,
    wp_ite, wp_raise, wp_pure, id_eq]
  split
  · rename_i hstop
    refine wp_mono_eq (wp_removeBootstrapBreakpoint h) (fun _ t ht hremoved => ?_)
      (fun _ _ _ ht => ht.elim) fun _ _ _ ht => ht.elim
    refine wp_mono_eq (ordered_tryInstallLoaderBreakpoint (K := K) hremoved.1
      (hremoved.2.1 ▸ hremoved.2.2 ▸ hK) fun a u hu => hadmits a u ⟨hstop, t, ht, hu⟩)
      (fun installed u hu ordered => ?_) (fun _ _ _ hu => hu) fun _ _ _ hu => hu
    cases installed with
    | false => exact ordered
    | true =>
      refine wp_mono_eq (keepsOrder_of_within (K := K) looks_loaderStateIsConsistent u ordered)
        (fun consistent v hv hv' => ?_) (fun _ _ _ hv => hv) fun _ _ _ hv => hv
      cases consistent with
      | false => exact hv'
      | true => exact hreconcile v (.bootstrap hstop ht hu hv) hv'.1 hv'.2
  rename_i hstop
  split
  · refine wp_mono_eq (keepsOrder_of_within (K := K) looks_loaderStateIsConsistent s ⟨h, hK⟩)
      (fun consistent v hv hv' => ?_) (fun _ _ _ hv => hv) fun _ _ _ hv => hv
    cases consistent with
    | false => exact hv'
    | true => exact hreconcile v (.loader hstop hv) hv'.1 hv'.2
  · exact ⟨h, hK⟩

/-- A call of the debugger's `continueExecution` adds no entry. -/
theorem keepsOrder_debuggerContinue (policy : SignalPolicy) :
    KeepsOrder users K (debugger (MiniDebugger.continueExecution tracees policy)) :=
  keepsOrder_debugger fun _ _ _ h => confining_continueExecution h

/-- What the passes of the loop need to keep `K`. -/
structure Continues (modules : Modules) (tracees : Tracees) (users : List Nat)
    (K : ExtTreeMap Nat DeferredBreakpoint → Nat → Prop) (s : DeferredSession)
    (policy : SignalPolicy) : Prop where
  admits : ∀ stop t a u, Consumes modules tracees s policy stop t → Reinstalls modules stop t a u →
    u.session.Admits a
  reconciles : ∀ stop t u, Consumes modules tracees s policy stop t →
    Reconciles modules stop t u → u.Managed users →
    K u.deferred.requests u.deferred.nextRequestId →
    wp (reconcileRequests modules) (ordered users K) u

theorem Passes.ordered {policy next : SignalPolicy} {s₀ : DeferredSession}
    (hcontinues : Continues modules tracees users K s₀ policy)
    (hensured : ensureMonitoring modules s₀ = .returned () s)
    (h : Passes modules tracees s policy t next) (hs : s.Managed users)
    (hK : K s.deferred.requests s.deferred.nextRequestId) :
    t.Managed users ∧ K t.deferred.requests t.deferred.nextRequestId := by
  induction h with
  | refl => exact ⟨hs, hK⟩
  | pass hpasses hstop hinternal hhandled ih =>
    obtain ⟨ht, htK⟩ := ih hcontinues
    have hu := wp_returned (keepsOrder_debuggerContinue (K := K) _ _ ⟨ht, htK⟩) hstop
    have hconsumes : Consumes modules tracees s₀ _ _ _ :=
      ⟨_, _, _, hensured, hpasses, hstop, hinternal⟩
    exact wp_returned (ordered_handleInternalStop hu.1 hu.2
      (fun a v hv => hcontinues.admits _ _ a v hconsumes hv)
      fun v hv => hcontinues.reconciles _ _ v hconsumes hv) hhandled

/-- The state in which a stop is taken for an internal one. -/
theorem Consumes.ordered {policy : SignalPolicy} {stop : StopInfo}
    (hcontinues : Continues modules tracees users K s policy)
    (hadmits : ∀ a u, Ensures modules s a u → u.session.Admits a) (hs : s.Managed users)
    (hK : K s.deferred.requests s.deferred.nextRequestId)
    (h : Consumes modules tracees s policy stop t) :
    t.Managed users ∧ K t.deferred.requests t.deferred.nextRequestId := by
  obtain ⟨s', u, next, hensured, hpasses, hstop, -⟩ := h
  have hs' := wp_returned (ordered_ensureMonitoring hs hK hadmits) hensured
  exact wp_returned (keepsOrder_debuggerContinue (K := K) next u
    (Passes.ordered hcontinues hensured hpasses hs'.1 hs'.2)) hstop

/-- The induction is on the bound of the loop; the invariant says that the passes made so far
have led here. -/
theorem ordered_continueLoop {policy : SignalPolicy} {s₀ : DeferredSession}
    (hcontinues : Continues modules tracees users K s₀ policy)
    (hensured : ensureMonitoring modules s₀ = .returned () s) (hs : s.Managed users)
    (hK : K s.deferred.requests s.deferred.nextRequestId) :
    ∀ (n : Nat) (next : SignalPolicy) (t : DeferredSession),
      Passes modules tracees s policy t next →
      wp (continueLoop modules tracees n next) (ordered users K) t := by
  intro n
  induction n with
  | zero => exact fun _ _ _ => trivial
  | succ n ih =>
    intro next t hpasses
    simp only [continueLoop, DeferredBreakpoints.get, wp_bind, wp_read, wp_ite, wp_pure]
    refine wp_mono_eq (keepsOrder_debuggerContinue (K := K) next t
      (Passes.ordered hcontinues hensured hpasses hs hK)) (fun stop u hstop hu => ?_)
      (fun _ _ _ hu => hu) fun _ _ _ hu => hu
    dsimp only
    split
    · refine wp_mono (wp_suspendMonitoring hu.1) (fun _ v hv => ?_) (fun _ _ hv => hv.elim)
        fun _ _ hv => hv.elim
      exact ⟨hv.1, hv.2.1 ▸ hv.2.2 ▸ hu.2⟩
    · rename_i hinternal
      have hinternal : u.deferred.isInternalStop stop = true := by simpa using hinternal
      have hconsumes : Consumes modules tracees s₀ policy stop u :=
        ⟨s, t, next, hensured, hpasses, hstop, hinternal⟩
      refine wp_mono_eq (ordered_handleInternalStop hu.1 hu.2
        (fun a v hv => hcontinues.admits _ _ a v hconsumes hv)
        fun v hv => hcontinues.reconciles _ _ v hconsumes hv)
        (fun _ v hhandled _ => ih .suppress v (hpasses.pass hstop hinternal hhandled))
        (fun _ _ _ hv => hv) fun _ _ _ hv => hv

theorem ordered_continueExecution {policy : SignalPolicy}
    (hcontinues : Continues modules tracees users K s policy)
    (hadmits : ∀ a u, Ensures modules s a u → u.session.Admits a) (hs : s.Managed users)
    (hK : K s.deferred.requests s.deferred.nextRequestId) :
    wp (DeferredBreakpoints.continueExecution modules tracees policy) (ordered users K) s := by
  simp only [DeferredBreakpoints.continueExecution, wp_bind, wp_read]
  refine wp_mono_eq (ordered_ensureMonitoring hs hK hadmits) (fun _ t hensured ht => ?_)
    (fun _ _ _ ht => ht) fun _ _ _ ht => ht
  exact ordered_continueLoop hcontinues hensured ht.1 ht.2 _ _ _ (.refl t policy)

/-! ## Operations -/

/-- Operations of the debugger that add no breakpoint. -/
theorem unharmed_debugger {x : Act α} (h : s.InOrder users)
    (hx : ∀ (held : Addr → Option Nat) (next : Nat) (u : Session), u.Confined held next →
      wp x (confining held next) u) :
    wp ((fun _ => ()) <$> debugger x) (unharmed users s) s := by
  rw [wp_map]
  refine wp_mono (keepsOrder_debugger (K := fun requests next =>
    requests = s.deferred.requests ∧ next = s.deferred.nextRequestId) hx s ⟨h.1, rfl, rfl⟩)
    (fun _ t ht => ⟨ht.1, ?_⟩) (fun _ t ht => ⟨⟨ht.1, ?_⟩, ht.2.1⟩) fun _ _ _ => trivial
  · rw [ht.2.1, ht.2.2]
    exact h.2
  · rw [ht.2.1, ht.2.2]
    exact h.2

/-- An orderly operation keeps the order, and knows the breakpoint it hands to the user. -/
theorem unharmed_operation {op : DeferredOperation} (h : s.InOrder users)
    (hop : op.Orderly modules tracees s)
    (hcontinue : ∀ policy, op ≠ .continueExecution policy) :
    wp (op.run modules tracees)
      ⟨fun _ t => t.InOrder (op.issues s ++ users), (unharmed (α := Unit) users s).raised,
        fun _ _ => True⟩ s := by
  have done : ∀ {β : Type} {x : DeferredAct β}, wp x (unharmed users s) s →
      wp ((fun _ => ()) <$> x) (unharmed users s) s := fun hx => by
    rw [wp_map]
    exact hx
  have adds : ∀ target, op.target? = some target →
      wp (addTarget modules target) (unharmed users s) s := fun target htarget =>
    unharmed_addTarget h target
      (fun request t a u hopen hensures => hop.installs a u (.adding htarget hopen hensures))
      fun request t e u id => hop.givesUp target request t e u id htarget
  cases op with
  | addSymbol symbol =>
    refine done ?_
    simp only [addSymbol, wp_ite, wp_bind, wp_raise]
    split
    · exact ⟨h, rfl⟩
    · exact adds _ (if_neg ‹_›)
  | addSource file line =>
    refine done ?_
    simp only [addSource, wp_ite, wp_bind, wp_raise]
    split
    · exact ⟨h, rfl⟩
    split
    · exact ⟨h, rfl⟩
    · exact adds _ (if_neg (by simp_all))
  | remove requestId => exact done (unharmed_remove h requestId)
  | continueExecution policy => exact absurd rfl (hcontinue policy)
  | renew metadata =>
    simp only [DeferredOperation.run, DeferredBreakpoints.modify, wp_bind, wp_update]
    refine wp_mono (wp_suspendMonitoring h.1) (fun _ t ht => ?_) (fun _ _ ht => ht.elim)
      fun _ _ ht => ht.elim
    exact ⟨⟨ht.1.policy, ht.1.alone, ht.1.issued, ht.1.known, ⟨rfl, rfl⟩,
      by rintro a bp (⟨⟨⟩⟩ | ⟨⟨⟩⟩)⟩,
      fun n r hr => by simp at hr⟩
  | addBreakpoint a =>
    simp only [DeferredOperation.run, wp_map]
    refine wp_arm (fun t original hdeferred hdbg hfree => ?_) fun t e hdeferred hdbg =>
      ⟨⟨h.1.same_dbg hdeferred hdbg, hdeferred ▸ h.2⟩, by rw [hdeferred]⟩
    exact ⟨h.1.insert_user hdeferred hdbg fun hrec => hfree (hop.foreign a rfl hrec),
      hdeferred ▸ h.2⟩
  | removeBreakpoint id =>
    simp only [DeferredOperation.run, wp_map]
    exact wp_disarm (fun t hdeferred hdbg => ⟨h.1.same_dbg hdeferred hdbg, hdeferred ▸ h.2⟩)
      (fun t a hdeferred hdbg => ⟨h.1.erase hdeferred hdbg, hdeferred ▸ h.2⟩)
      fun t e hdeferred hdbg =>
        ⟨⟨h.1.same_dbg hdeferred hdbg, hdeferred ▸ h.2⟩, by rw [hdeferred]⟩
  | addWriteWatchpoint address length =>
    exact unharmed_debugger h fun _ _ _ hu => confining_addWriteWatchpoint hu
  | removeWatchpoint id => exact unharmed_debugger h fun _ _ _ hu => confining_removeWatchpoint hu
  | resume policy => exact unharmed_debugger h fun _ _ _ hu => confining_continueExecution hu
  | singleStep policy => exact unharmed_debugger h fun _ _ _ hu => confining_singleStep hu
  | selectThread tid =>
    have hselect := unharmed_debugger (x := selectThread tid) h fun _ _ _ hu =>
      confining_selectThread hu
    rwa [wp_map] at hselect

/-- What an orderly `continueExecution` needs for its passes. -/
theorem DeferredOperation.Orderly.continues {policy : SignalPolicy}
    (hop : (DeferredOperation.continueExecution policy).Orderly modules tracees s) :
    Continues modules tracees users Numbered s policy :=
  ⟨fun _ _ a u hstop hinstalls => hop.installs a u (.reinstalling rfl hstop hinstalls),
    fun _ _ _ _ _ hmanaged hnumbered => ordered_reconcileRequests ⟨hmanaged, hnumbered⟩⟩

theorem ordered_operation {op : DeferredOperation} (h : s.InOrder users)
    (hop : op.Orderly modules tracees s) :
    wp (op.run modules tracees)
      ⟨fun _ t => t.InOrder (op.issues s ++ users), fun _ t => t.InOrder users,
        fun _ _ => True⟩ s := by
  by_cases hcontinue : ∃ policy, op = .continueExecution policy
  · obtain ⟨policy, rfl⟩ := hcontinue
    simp only [DeferredOperation.run, wp_map]
    exact ordered_continueExecution hop.continues
      (fun a u hensures => hop.installs a u (.continuing rfl hensures)) h.1 h.2
  · exact wp_mono (unharmed_operation h hop fun policy heq => hcontinue ⟨policy, heq⟩)
      (fun _ _ ht => ht) (fun _ _ ht => ht.1) fun _ _ _ => trivial

theorem DeferredSession.InOrder.facing (h : s.InOrder users) (script : List Wakeup)
    (faults : List (Option Nat)) : (s.facing script faults).InOrder users :=
  ⟨⟨h.1.policy, h.1.alone, h.1.issued, h.1.known, h.1.paired, h.1.apart⟩, h.2⟩

theorem inOrder_start (metadata : LoaderMetadata) {s : Session} (h : Started s) :
    DeferredSession.InOrder [] ⟨{ metadata }, s, []⟩ := by
  have fields : s.dbg.forkFollowPolicy = .parent ∧ s.dbg.retainedProcesses = ∅ ∧
      s.dbg.breakpointsByAddress = ∅ := by
    cases h with
    | launch pid path s hpos hdbg _ _ _ _ => rw [hdbg]; exact ⟨rfl, rfl, rfl⟩
    | attach pid tids path s hpos htids hdbg _ _ _ _ => rw [hdbg]; exact ⟨rfl, rfl, rfl⟩
  obtain ⟨hpolicy, halone, htable⟩ := fields
  refine ⟨⟨hpolicy, halone, fun a bp hbp => ?_, by simp, ⟨rfl, rfl⟩,
    by rintro a bp (⟨⟨⟩⟩ | ⟨⟨⟩⟩)⟩, fun n r hr => ?_⟩
  · rw [DeferredSession.table, htable] at hbp
    simp at hbp
  · simp at hr

theorem UserRun.inOrder
    (h : UserRun modules tracees (fun op s => op.Orderly modules tracees s) users s) :
    s.InOrder users := by
  induction h with
  | start metadata h => exact inOrder_start metadata h
  | returned _ hop hrun ih => exact wp_returned (ordered_operation (ih.facing _ _) hop) hrun
  | raised _ hop hrun ih => exact wp_raised (ordered_operation (ih.facing _ _) hop) hrun

/-- In a run of orderly operations the controller keeps its state in order. -/
theorem internal_breakpoints_sound
    (h : UserRun modules tracees (fun op s => op.Orderly modules tracees s) users s)
    (op : DeferredOperation) (script : List Wakeup) (faults : List (Option Nat))
    (hop : op.Orderly modules tracees (s.facing script faults)) :
    op.Sound modules tracees (s.facing script faults) users := by
  have hs := h.inOrder.facing script faults
  refine ⟨fun e t hrun => ?_, fun policy stop u a bp hcontinue hconsumes hstop hbp => ?_,
    fun policy a u hcontinue hinstalls => ?_⟩
  · by_cases hcontinue : ∃ policy, op = .continueExecution policy
    · obtain ⟨policy, rfl⟩ := hcontinue
      -- the reconciliations of a call that throws change nothing
      have hcontinues : Continues modules tracees users
          (fun requests _ => requests = s.deferred.requests) (s.facing script faults) policy :=
        ⟨fun _ _ a u hstop hinstalls => hop.installs a u (.reinstalling rfl hstop hinstalls),
          fun stop u v hstop hreconciles hv hrequests => wp_mono
            (wp_reconcileRequests_of_resolved (hop.steady policy e t stop u v rfl hrun hstop
              hreconciles))
            (fun _ w hw => by rw [hw]; exact ⟨hv, hrequests⟩)
            (fun _ w hw => by rw [hw]; exact ⟨hv, hrequests⟩) fun _ _ _ => trivial⟩
      have hordered : wp ((DeferredOperation.continueExecution policy).run modules tracees)
          (ordered users fun requests _ => requests = s.deferred.requests)
          (s.facing script faults) := by
        simp only [DeferredOperation.run, wp_map]
        exact ordered_continueExecution hcontinues
          (fun a u hensures => hop.installs a u (.continuing rfl hensures)) hs.1 rfl
      have ht := wp_raised hordered hrun
      exact ⟨ht.1.paired, ht.2⟩
    · have := wp_raised (unharmed_operation hs hop fun policy heq => hcontinue ⟨policy, heq⟩) hrun
      exact ⟨this.1.1.paired, this.2⟩
  · subst hcontinue
    have hu := Consumes.ordered hop.continues
      (fun a u hensures => hop.installs a u (.continuing rfl hensures)) hs.1 hs.2 hconsumes
    obtain ⟨-, -, -, -, -, -, hinternal⟩ := hconsumes
    refine hu.1.apart a bp ?_ hbp
    simp only [isInternalStop, hstop, Bool.and_eq_true, Option.any_some, Bool.or_eq_true,
      decide_eq_true_eq] at hinternal
    exact hinternal.2.symm
  · obtain ⟨id, t, hrun, -⟩ := returned_of_wp (wp_arm_of_admits (hop.installs a u hinstalls))
    exact ⟨id, t, hrun⟩

end Invariant

/-! ## Breakpoints of the user next to the internal ones -/

/-- A breakpoint of the user is set where no entry has gone from a recorded address. -/
theorem orderly_addBreakpoint {modules : Modules} {tracees : Tracees} {s : DeferredSession}
    {a : Addr} (h : s.deferred.Records a → a ∈ s.table) :
    (DeferredOperation.addBreakpoint a).Orderly modules tracees s where
  installs b u hinstalls := by
    cases hinstalls with
    | adding htarget hopen h => cases htarget
    | continuing hop h => cases hop
    | reinstalling hop hstop h => cases hop
  foreign b hb := by
    cases hb
    exact h
  givesUp _ _ _ _ _ _ htarget := by cases htarget
  steady _ _ _ _ _ _ hop := by cases hop

theorem UserRun.after {modules : Modules} {users : List Nat} {s : DeferredSession}
    {allowed : DeferredOperation → DeferredSession → Prop}
    (h : UserRun modules anyTracees allowed users s) (op : DeferredOperation)
    (hallowed : allowed op (s.facing [] []))
    (hrun : (op.run modules anyTracees (s.facing [] [])).value?.isSome = true) :
    UserRun modules anyTracees allowed (op.issues (s.facing [] []) ++ users)
      (s.after modules op []) := by
  unfold DeferredSession.after
  cases ho : op.run modules anyTracees (s.facing [] []) with
  | returned r t => exact h.returned hallowed ho
  | raised e t => rw [ho] at hrun; cases hrun
  | blocked w t => rw [ho] at hrun; cases hrun

/-- `Admits`, computed. -/
def Session.admits (s : Session) (a : Addr) : Bool :=
  s.dbg.process.state = .stopped && 0 < s.dbg.process.currentTid &&
    s.dbg.process.taskState s.dbg.process.currentTid = some .stopped &&
    s.dbg.forkFollowPolicy = .parent && !s.dbg.breakpointsByAddress.contains a &&
    ((Lowlevel.readByte s.dbg.process.currentTid a >>= fun _ =>
      Lowlevel.writeByte s.dbg.process.currentTid a int3) s).value? = some ()

theorem Session.admits_of_computed {s : Session} {a : Addr} (h : s.admits a = true) :
    s.Admits a := by
  simp only [Session.admits, Bool.and_eq_true, decide_eq_true_eq, Bool.not_eq_true'] at h
  obtain ⟨⟨⟨⟨⟨hstopped, hpositive⟩, hcurrent⟩, hpolicy⟩, hfree⟩, hbytes⟩ := h
  obtain ⟨original, t, hread, hvalue⟩ := returned_of_bind hbytes
  exact ⟨⟨hstopped, hpositive, hcurrent⟩, fun hboth => (by cases hpolicy.symm.trans hboth.1),
    fun hmem => Bool.false_ne_true (hfree.symm.trans hmem), original, t, _, hread,
    Outcome.eq_returned_of_value? hvalue⟩

namespace Rendezvous

/-- No module has the symbol or the line. -/
def modules : Modules where
  loadBias _ := .ok 0
  findModuleSymbolByName _ _ := .ok none
  findModuleSourceByFileLine _ _ _ := .ok none

/-- The process has been launched, its memory is zeroed, and the user has a breakpoint at
`0x5000`. -/
def guarded : DeferredSession :=
  (DeferredSession.mk { metadata := ⟨0x1000, 0x2000⟩ }
    (Session.launch 10 (fun _ => some 0) {}) []).after modules (.addBreakpoint 0x5000) []

def target : DeferredBreakpointTarget := { kind := .symbol, name := "plugin_entry" }

/-- `DT_DEBUG` is null, so the request for `plugin_entry` is watched from the entry at `0x1000`. -/
def requested : DeferredSession := guarded.after modules (.addSymbol "plugin_entry") []

/-- The loader fills in `DT_DEBUG` and `r_debug`. -/
def link : Memory → Memory := fun m a =>
  if a = 0x2001 ∨ a = 0x3000 ∨ a = 0x3011 then Plugin.memory a else m a

/-- The stops at the entry, in the loader and at the breakpoint of the user. -/
def script : List Wakeup :=
  [.report { tid := 10, status := .stopped sigtrap .none, cause := .int3 0x1000
             regs := { rip := 0x1001 }, effect := link },
   .report { tid := 10, status := .stopped sigtrap .none, cause := .int3 0x4000
             regs := { rip := 0x4001 } },
   .report { tid := 10, status := .stopped sigtrap .none, cause := .step },
   .report { tid := 10, status := .stopped sigtrap .none, cause := .int3 0x5000
             regs := { rip := 0x5001 } }]

def running : DeferredSession := requested.facing script []

/-- A pass of `continueExecution` up to its stop. -/
def resume : DeferredAct StopInfo :=
  debugger (MiniDebugger.continueExecution anyTracees .suppress)

/-- A pass that consumes its stop. -/
def passed (s : DeferredSession) : Outcome WaitCall Exception DeferredSession Unit :=
  (resume >>= handleInternalStop modules) s

def afterEntry : DeferredSession := (passed running).state

def afterLoader : DeferredSession := (passed afterEntry).state

theorem passed_eq {s u v : DeferredSession} {stop : StopInfo}
    (hstop : resume s = .returned stop u)
    (hhandled : handleInternalStop modules stop u = .returned () v) :
    passed s = .returned () v := by
  rw [passed, bind_of_returned hstop, hhandled]

theorem afterEntry_eq {v : DeferredSession} (h : passed running = .returned () v) :
    afterEntry = v := by
  rw [afterEntry, h, Outcome.state]

theorem afterLoader_eq {v : DeferredSession} (h : passed afterEntry = .returned () v) :
    afterLoader = v := by
  rw [afterLoader, h, Outcome.state]

/-- Where the request is watched from. -/
def watching : Outcome WaitCall Exception DeferredSession Addr :=
  (openRequest modules target >>= fun _ => loaderAddress modules >>= fun _ =>
    entryAddress modules) (guarded.facing [] [])

/-- Where the loader is watched from once the entry has been reached. -/
def relinking : Outcome WaitCall Exception DeferredSession (Option Addr) :=
  (resume >>= fun _ => removeBootstrapBreakpoint >>= fun _ => loaderAddress modules) running

/-- What the commands of the request compute. -/
theorem request_computed :
    (openRequest modules target (guarded.facing [] [])).value?.all
      (fun request => request.breakpointId = none) ∧
    ((openRequest modules target >>= fun _ => loaderAddress modules)
      (guarded.facing [] [])).value? = some none ∧
    watching.value? = some 0x1000 ∧ watching.state.session.admits 0x1000 := by
  decide +kernel

/-- What the passes compute, from the entry through the loader to the breakpoint of the user. -/
theorem run_computed :
    (¬running.deferred.Unmonitored ∧ running.session.script.length = 4) ∧
    ((resume running).value?.any (fun stop => stop.breakpointAddress = some 0x1000 &&
        (resume running).state.deferred.isInternalStop stop) ∧
      (resume running).state.deferred.bootstrapBreakpointAddress = some 0x1000 ∧
      (passed running).value? = some () ∧
      relinking.value? = some (some 0x4000) ∧ relinking.state.session.admits 0x4000) ∧
    ((resume afterEntry).value?.any (fun stop =>
        (resume afterEntry).state.deferred.isInternalStop stop) ∧
      (resume afterEntry).state.deferred.bootstrapBreakpointAddress = none ∧
      (passed afterEntry).value? = some ()) ∧
    (resume afterLoader).value?.any (fun stop => stop.breakpointAddress = some 0x5000 &&
      !(resume afterLoader).state.deferred.isInternalStop stop) := by
  decide +kernel

theorem orderly_addSymbol :
    (DeferredOperation.addSymbol "plugin_entry").Orderly modules anyTracees
      (guarded.facing [] []) := by
  obtain ⟨hunarmed, hnull, hvalue, hadmits⟩ := request_computed
  refine ⟨fun a u h => ?_, fun a h => (by cases h), fun target' request t e u id htarget hopen
    _ hid => ?_, fun policy e t stop u v h => (by cases h)⟩
  · cases h with
    | adding htarget hopen h =>
      obtain rfl : target = _ := Option.some.inj htarget
      cases h with
      | loader hneeded haddress =>
        rw [bind_of_returned hopen, haddress] at hnull
        cases hnull
      | bootstrap hneeded hearly haddress =>
        have hwatching : watching = .returned a u := by
          rw [watching, bind_of_returned hopen, bind_of_returned hearly, haddress]
        rw [hwatching] at hvalue hadmits
        cases hvalue
        exact Session.admits_of_computed hadmits
    | continuing hop h => cases hop
    | reinstalling hop hstop h => cases hop
  · obtain rfl : target = target' := Option.some.inj htarget
    rw [hopen] at hunarmed
    cases hid.symm.trans (of_decide_eq_true hunarmed)

/-- The stop of the last pass is not an internal one. -/
theorem foreign_afterLoader {stop : StopInfo} {u : DeferredSession}
    (h : resume afterLoader = .returned stop u) : u.deferred.isInternalStop stop = false := by
  have hguard := run_computed.2.2.2
  rw [h] at hguard
  simp only [Outcome.value?, Outcome.state, Option.any_some, Bool.and_eq_true,
    Bool.not_eq_true'] at hguard
  exact hguard.2

theorem passes_cases {t : DeferredSession} {next : SignalPolicy}
    (h : Passes modules anyTracees running .suppress t next) :
    next = .suppress ∧ (t = running ∨ t = afterEntry ∨ t = afterLoader) := by
  generalize hpolicy : SignalPolicy.suppress = policy at h
  induction h with
  | refl => exact ⟨rfl, .inl rfl⟩
  | pass h hstop hinternal hhandled ih =>
    obtain ⟨hnext, ht⟩ := ih hpolicy
    rw [hnext, ← hpolicy] at hstop
    have hpassed := passed_eq hstop hhandled
    refine ⟨hpolicy, ?_⟩
    rcases ht with ht | ht | ht
    · exact .inr (.inl (afterEntry_eq (ht ▸ hpassed)).symm)
    · exact .inr (.inr (afterLoader_eq (ht ▸ hpassed)).symm)
    · rw [ht] at hstop
      cases hinternal.symm.trans (foreign_afterLoader hstop)

theorem ensureMonitoring_eq {s : DeferredSession} (h : ¬s.deferred.Unmonitored) :
    ensureMonitoring modules s = .returned () s := by
  have hreturns : wp (ensureMonitoring modules)
      ⟨fun _ t => t = s, fun _ _ => False, fun _ _ => False⟩ s := by
    simp only [ensureMonitoring, wp_bind, DeferredBreakpoints.get, wp_read, wp_ite, id]
    rw [if_pos (not_not.mp h)]
    rfl
  obtain ⟨_, t, hrun, rfl⟩ := returned_of_wp hreturns
  exact hrun

theorem consumes_cases {stop : StopInfo} {u : DeferredSession}
    (h : Consumes modules anyTracees running .suppress stop u) :
    resume running = .returned stop u ∨ resume afterEntry = .returned stop u := by
  obtain ⟨s, t, next, hensure, hpasses, hstop, hinternal⟩ := h
  have hs : running = s := by
    rw [ensureMonitoring_eq run_computed.1.1] at hensure
    cases hensure
    rfl
  rw [← hs] at hpasses
  obtain ⟨hnext, ht | ht | ht⟩ := passes_cases hpasses
  · rw [hnext, ht] at hstop
    exact .inl hstop
  · rw [hnext, ht] at hstop
    exact .inr hstop
  · rw [hnext, ht] at hstop
    cases hinternal.symm.trans (foreign_afterLoader hstop)

/-- A pass that consumes its stop goes on to the next one. -/
theorem continueLoop_passed {s : DeferredSession} {stop : StopInfo} (n : Nat)
    (hstop : resume s = .returned stop (resume s).state)
    (hinternal : (resume s).state.deferred.isInternalStop stop = true)
    (hpassed : (passed s).value? = some ()) :
    continueLoop modules anyTracees (n + 1) .suppress s =
      continueLoop modules anyTracees n .suppress (passed s).state := by
  have hinternal : DeferredBreakpoints.get (·.isInternalStop stop) (resume s).state =
      .returned true (resume s).state := congrArg (Outcome.returned · _) hinternal
  have hhandled : handleInternalStop modules stop (resume s).state =
      .returned () (passed s).state :=
    (bind_of_returned hstop).symm.trans (Outcome.eq_returned_of_value? hpassed)
  rw [continueLoop]
  refine (bind_of_returned hstop).trans ?_
  refine (bind_of_returned hinternal).trans ?_
  exact bind_of_returned hhandled

/-- A stop that is not consumed is returned. -/
theorem continueLoop_stopped {s u : DeferredSession} {stop : StopInfo} (n : Nat)
    (hstop : resume s = .returned stop u) (hforeign : u.deferred.isInternalStop stop = false) :
    (continueLoop modules anyTracees (n + 1) .suppress s).value? = some stop := by
  have hforeign : DeferredBreakpoints.get (·.isInternalStop stop) u = .returned false u :=
    congrArg (Outcome.returned · u) hforeign
  obtain ⟨_, t, hsuspended, -⟩ := returned_of_wp (wp_suspendMonitoring_of_any u)
  rw [continueLoop]
  refine (congrArg Outcome.value? (bind_of_returned hstop)).trans ?_
  refine (congrArg Outcome.value? (bind_of_returned hforeign)).trans ?_
  exact congrArg Outcome.value? (bind_of_returned hsuspended)

theorem continueExecution_eq {s : DeferredSession} (h : ¬s.deferred.Unmonitored)
    (policy : SignalPolicy) :
    DeferredBreakpoints.continueExecution modules anyTracees policy s =
      continueLoop modules anyTracees (s.session.script.length + 1) policy s := by
  rw [DeferredBreakpoints.continueExecution]
  refine (bind_of_returned (ensureMonitoring_eq h)).trans ?_
  rfl

/-- The internal stops. -/
theorem stop_running : ∃ stop, resume running = .returned stop (resume running).state ∧
    stop.breakpointAddress = some 0x1000 ∧
    (resume running).state.deferred.isInternalStop stop = true := by
  obtain ⟨stop, hvalue, hstop⟩ := (Option.any_eq_true _ _).mp run_computed.2.1.1
  simp only [Bool.and_eq_true, decide_eq_true_eq] at hstop
  exact ⟨stop, Outcome.eq_returned_of_value? hvalue, hstop⟩

theorem stop_afterEntry : ∃ stop, resume afterEntry = .returned stop (resume afterEntry).state ∧
    (resume afterEntry).state.deferred.isInternalStop stop = true := by
  obtain ⟨stop, hvalue, hstop⟩ := (Option.any_eq_true _ _).mp run_computed.2.2.1.1
  exact ⟨stop, Outcome.eq_returned_of_value? hvalue, hstop⟩

/-- The stop that is handed to the user. -/
theorem stops_at_guard : (DeferredBreakpoints.continueExecution modules anyTracees .suppress
    running).value?.map (·.breakpointAddress) = some (some 0x5000) := by
  obtain ⟨⟨hmonitored, hpasses⟩, ⟨-, -, hentry, -⟩, ⟨-, -, hloader⟩, hguard⟩ := run_computed
  obtain ⟨stop, hstop, -, hinternal⟩ := stop_running
  have hentry : continueLoop modules anyTracees 5 .suppress running =
      continueLoop modules anyTracees 4 .suppress afterEntry :=
    continueLoop_passed 4 hstop hinternal hentry
  obtain ⟨stop, hstop, hinternal⟩ := stop_afterEntry
  have hloader : continueLoop modules anyTracees 4 .suppress afterEntry =
      continueLoop modules anyTracees 3 .suppress afterLoader :=
    continueLoop_passed 3 hstop hinternal hloader
  obtain ⟨stop, hvalue, hguard⟩ := (Option.any_eq_true _ _).mp hguard
  simp only [Bool.and_eq_true, decide_eq_true_eq, Bool.not_eq_true'] at hguard
  rw [continueExecution_eq hmonitored, hpasses, hentry, hloader,
    continueLoop_stopped 2 (Outcome.eq_returned_of_value? hvalue) hguard.2, Option.map_some,
    hguard.1]

theorem orderly_continueExecution :
    (DeferredOperation.continueExecution .suppress).Orderly modules anyTracees running := by
  obtain ⟨⟨hmonitored, -⟩, ⟨-, -, -, hvalue, hadmits⟩, ⟨-, hgone, -⟩, -⟩ := run_computed
  refine ⟨fun a u h => ?_, fun a h => (by cases h), fun _ _ _ _ _ _ htarget => (by cases htarget),
    fun policy e t stop u v hop hrun => ?_⟩
  · cases h with
    | adding htarget hopen h => cases htarget
    | continuing hop h =>
      cases h with
      | loader hneeded haddress => exact absurd hneeded hmonitored
      | bootstrap hneeded hearly haddress => exact absurd hneeded hmonitored
    | reinstalling hop hstop h =>
      cases hop
      obtain ⟨hboot, t, hremoved, hloader⟩ := h
      rcases consumes_cases hstop with hs | hs
      · have hrelinking : relinking = .returned (some a) u := by
          rw [relinking, bind_of_returned hs, bind_of_returned hremoved, hloader]
        rw [hrelinking] at hvalue hadmits
        cases hvalue
        exact Session.admits_of_computed hadmits
      · rw [hs] at hgone
        cases hboot.1.symm.trans (congrArg Option.isSome hgone)
  · obtain ⟨stop, hvalue, -⟩ := Option.map_eq_some_iff.mp stops_at_guard
    rw [DeferredOperation.run, map_of_returned (Outcome.eq_returned_of_value? hvalue)] at hrun
    cases hrun

end Rendezvous

/-- The stops at the entry and in the loader are consumed, the one at the breakpoint of the user is
not. -/
theorem internal_breakpoints_sound_linking :
    (DeferredOperation.continueExecution .suppress).Sound Rendezvous.modules anyTracees
      Rendezvous.running [1] ∧
    (∃ stop u, Consumes Rendezvous.modules anyTracees Rendezvous.running .suppress stop u ∧
      stop.breakpointAddress = some 0x1000) ∧
    (∃ u, (DeferredOperation.continueExecution .suppress).Installs Rendezvous.modules anyTracees
      Rendezvous.running 0x4000 u) ∧
    (DeferredBreakpoints.continueExecution Rendezvous.modules anyTracees .suppress
      Rendezvous.running).value?.map (·.breakpointAddress) = some (some 0x5000) ∧
    Rendezvous.running.table[(0x5000 : Addr)]?.map (·.id) = some 1 := by
  have hguarded : UserRun Rendezvous.modules anyTracees
      (fun op s => op.Orderly Rendezvous.modules anyTracees s) [1] Rendezvous.guarded :=
    UserRun.after (.start _ (started_launch (by decide) _ _)) (.addBreakpoint 0x5000)
      (orderly_addBreakpoint (by rintro (h | h) <;> cases h)) (by decide +kernel)
  have hrequested : UserRun Rendezvous.modules anyTracees
      (fun op s => op.Orderly Rendezvous.modules anyTracees s) [1] Rendezvous.requested :=
    UserRun.after hguarded (.addSymbol "plugin_entry") Rendezvous.orderly_addSymbol
      (by decide +kernel)
  obtain ⟨⟨hmonitored, -⟩, ⟨-, hboot, -, hvalue, -⟩, -⟩ := Rendezvous.run_computed
  obtain ⟨stop, hstop, haddress, hinternal⟩ := Rendezvous.stop_running
  have hconsumes : Consumes Rendezvous.modules anyTracees Rendezvous.running .suppress stop
      (Rendezvous.resume Rendezvous.running).state :=
    ⟨_, _, _, Rendezvous.ensureMonitoring_eq hmonitored, .refl _ _, hstop, hinternal⟩
  rw [Rendezvous.relinking, bind_of_returned hstop] at hvalue
  obtain ⟨_, t, hremoved, hloader⟩ := returned_of_bind hvalue
  exact ⟨internal_breakpoints_sound hrequested _ _ _ Rendezvous.orderly_continueExecution,
    ⟨stop, _, hconsumes, haddress⟩,
    ⟨_, .reinstalling rfl hconsumes ⟨⟨by rw [hboot]; rfl, haddress.trans hboot.symm⟩, t, hremoved,
      Outcome.eq_returned_of_value? hloader⟩⟩, Rendezvous.stops_at_guard, by decide +kernel⟩

/-! ## A breakpoint of the user in the loader -/

namespace Rendezvous

/-- The process has been launched; `r_brk` is `0x4000`. -/
def session : DeferredSession :=
  ⟨{ metadata := ⟨0x1000, 0x2000⟩ }, Session.launch 10 Plugin.memory {}, []⟩

/-- The user has a breakpoint at `r_brk`, and the request is made. -/
def refused : Outcome WaitCall Exception DeferredSession Unit :=
  (DeferredOperation.addSymbol "plugin_entry").run modules anyTracees
    ((session.after modules (.addBreakpoint 0x4000) []).facing [] [])


end Rendezvous

/-- The debugger refuses the breakpoint in the loader, whose address has been recorded. -/
theorem user_breakpoint_at_rendezvous :
    ¬∀ (modules : Modules) (tracees : Tracees) (users : List Nat) (s : DeferredSession),
      UserRun modules tracees (fun _ _ => True) users s →
      ∀ (op : DeferredOperation) (script : List Wakeup) (faults : List (Option Nat)),
        op.Sound modules tracees (s.facing script faults) users := by
  intro h
  have hrun : UserRun Rendezvous.modules anyTracees (fun _ _ => True) [1]
      (Rendezvous.session.after Rendezvous.modules (.addBreakpoint 0x4000) []) :=
    UserRun.after (.start _ (started_launch (by decide) _ _)) (.addBreakpoint 0x4000) trivial
      (by decide +kernel)
  have herror : Rendezvous.refused.error?.isSome = true := by decide +kernel
  have hpaired : ¬Rendezvous.refused.state.deferred.Paired := by decide +kernel
  cases hrefused : Rendezvous.refused with
  | raised e t =>
    rw [hrefused] at hpaired
    exact hpaired ((h _ _ _ _ hrun _ [] []).raised e t hrefused).1
  | returned a t => rw [hrefused] at herror; cases herror
  | blocked w t => rw [hrefused] at herror; cases herror

end MiniDebugger
