import MiniDebugger.Handles
import MiniDebugger.Loader.UserStops
import MiniDebugger.Sessions.Tenures

/-!
# A controller among other holders of breakpoints

The ids of the debugger are handles: the breakpoint in the loader, the one at the entry point and
each resolved request of a `DeferredBreakpoints` hold one, and others hold the rest. Whatever the
controller of a process is asked to do, it gives up no handle but its own, and its requests find
theirs in the table of the process.
-/

namespace MiniDebugger

open Command
open Std (ExtTreeMap)

namespace DeferredBreakpoints

/-- What a controller needs a breakpoint for. -/
inductive Slot where
  | loader | bootstrap | request (id : Nat)
  deriving DecidableEq

def held (d : DeferredBreakpoints) : Slot → Option Nat
  | .loader => d.loaderBreakpointId
  | .bootstrap => d.bootstrapBreakpointId
  | .request id => (d.requests[id]?).bind (·.breakpointId)

/-- The requests are filed under their ids. -/
def Filed (d : DeferredBreakpoints) : Prop :=
  ∀ (n : Nat) (r : DeferredBreakpoint), d.requests[n]? = some r →
    r.requestId = n ∧ n < d.nextRequestId

end DeferredBreakpoints

open DeferredBreakpoints

/-- The other holders, and what they expect of the controller of `home`. -/
structure Neighbours where
  Holder : Type
  held : Holder → Option Nat
  /-- In whose table the holder looks for its breakpoint. -/
  place : Holder → Option Pid
  home : Pid
  /-- The processes in whose tables nothing has been lost. -/
  live : Pid → Prop
  /-- The requests that must not be forgotten. -/
  awaited : Nat → Prop

/-- The id is found in the table of its process, if the debugger has that. -/
def Debugger.Lists (d : Debugger) (live : Pid → Prop) (place : Option Pid) (id : Nat) : Prop :=
  ∀ pid, place = some pid → live pid → d.Owns pid → id ∈ d.idsOf pid

namespace Neighbours

variable (N : Neighbours)

/-- In whose table a breakpoint of the controller has to be found. -/
def slotPlace : Slot → Option Pid
  | .request _ => some N.home
  | .loader | .bootstrap => none

def heldWith (d : DeferredBreakpoints) : N.Holder ⊕ Slot → Option Nat := Sum.elim N.held d.held

def placeWith : N.Holder ⊕ Slot → Option Pid := Sum.elim N.place N.slotPlace

end Neighbours

/-- The controller and the other holders are in order. -/
structure DeferredSession.Tenant (N : Neighbours) (s : DeferredSession) : Prop where
  good : s.session.core.Good false []
  handles : Handles s.next (N.heldWith s.deferred)
    fun h id => s.session.dbg.Lists N.live (N.placeWith h) id
  filed : s.deferred.Filed
  awaited : ∀ n, N.awaited n → n ∈ s.deferred.requests

section Tables

variable {d : Debugger} {pid : Pid} {id i : Nat} {a : Addr} {original : Byte}
  {live : Pid → Prop} {place : Option Pid}

theorem Core.Good.forgetIssued {b : Bool} {issued : List Nat} {c : Core} (h : c.Good b issued) :
    c.Good b [] :=
  ⟨{ h.tables with issued := ⟨List.nodup_nil, by simp⟩ }, h.bytes⟩

theorem owns_eraseBreakpoint :
    ((d.clearPendingStep a).eraseBreakpoint id a).Owns pid ↔ d.Owns pid := by
  unfold Debugger.clearPendingStep
  split <;> rfl

theorem mem_idsOf_eraseBreakpoint (h : i ∈ d.idsOf pid) (hne : i ≠ id) :
    i ∈ ((d.clearPendingStep a).eraseBreakpoint id a).idsOf pid := by
  have hcases : ((d.clearPendingStep a).eraseBreakpoint id a).idsOf pid =
      if pid = d.process.pid then d.breakpointIds.erase id else d.idsOf pid := by
    unfold Debugger.clearPendingStep Debugger.idsOf
    split <;> split <;> simp_all [Debugger.eraseBreakpoint]
  rw [hcases]
  split
  · rename_i hactive
    rw [Debugger.idsOf_active hactive] at h
    exact ExtTreeMap.mem_erase.mpr ⟨by simpa using hne.symm, h⟩
  · exact h

theorem mem_idsOf_insertBreakpoint (h : i ∈ d.idsOf pid) :
    i ∈ (d.insertBreakpoint a original).idsOf pid := by
  unfold Debugger.idsOf at h ⊢
  split at h
  · rename_i hactive
    rw [if_pos (show pid = (d.insertBreakpoint a original).process.pid from hactive)]
    exact ExtTreeMap.mem_insert.mpr (.inr h)
  · rename_i hactive
    rw [if_neg (show ¬pid = (d.insertBreakpoint a original).process.pid from hactive)]
    exact h

theorem mem_idsOf_inserted :
    d.nextBreakpointId ∈ (d.insertBreakpoint a original).idsOf d.process.pid := by
  have hactive : d.process.pid = (d.insertBreakpoint a original).process.pid := rfl
  rw [Debugger.idsOf_active hactive]
  exact ExtTreeMap.mem_insert_self

end Tables

/-! ## Changes -/

/-- Nothing has changed that matters to the holders. -/
def DeferredSession.Glances (s t : DeferredSession) : Prop :=
  s.session.Alike t.session ∧ ∃ r, t.deferred = { s.deferred with rDebugAddress := r }

instance : Std.Refl DeferredSession.Glances where
  refl s := ⟨refl_of _ s.session, _, rfl⟩

instance : IsTrans DeferredSession DeferredSession.Glances where
  trans := by
    rintro s t u ⟨hsession, r, hdeferred⟩ ⟨hsession', r', hdeferred'⟩
    exact ⟨trans_of _ hsession hsession', r', by rw [hdeferred', hdeferred]⟩

section Changes

variable {N : Neighbours} {modules : Modules} {tracees : Tracees} {s t : DeferredSession}
  {id : Nat} {a : Addr}

/-- The controller gives up handles, or nothing changes; the tables stay. -/
theorem DeferredSession.Tenant.drop (h : s.Tenant N) (hgood : t.session.core.Good false [])
    (hids : ∀ pid, (t.session.dbg.Owns pid → s.session.dbg.Owns pid) ∧
      t.session.dbg.idsOf pid = s.session.dbg.idsOf pid)
    (hnext : t.next = s.next)
    (hheld : ∀ x i, t.deferred.held x = some i → s.deferred.held x = some i)
    (hfiled : t.deferred.Filed) (hawaited : ∀ n, N.awaited n → n ∈ t.deferred.requests) :
    t.Tenant N := by
  refine ⟨hgood, ?_, hfiled, hawaited⟩
  rw [hnext]
  refine h.handles.drop (fun x i hx => ?_) fun x i _ hx pid hplace hlive howns => ?_
  · cases x with
    | inl o => exact hx
    | inr x => exact hheld x i hx
  · rw [(hids pid).2]
    exact hx pid hplace hlive ((hids pid).1 howns)

theorem DeferredSession.Tenant.same_dbg (h : s.Tenant N) (hgood : t.session.core.Good false [])
    (hdbg : t.session.dbg = s.session.dbg)
    (hheld : ∀ x i, t.deferred.held x = some i → s.deferred.held x = some i)
    (hfiled : t.deferred.Filed) (hawaited : ∀ n, N.awaited n → n ∈ t.deferred.requests) :
    t.Tenant N :=
  h.drop hgood (fun _ => hdbg ▸ ⟨id, rfl⟩) (by rw [DeferredSession.next, hdbg]; rfl) hheld hfiled
    hawaited

theorem DeferredSession.Tenant.glance (h : s.Tenant N) (ht : s.Glances t) : t.Tenant N := by
  obtain ⟨⟨_, _, _, hsession⟩, r, hdeferred⟩ := ht
  refine h.same_dbg (by rw [hsession]; exact h.good) (by rw [hsession]) (fun x i hx => ?_) ?_ ?_
  · rw [hdeferred] at hx
    cases x <;> exact hx
  · rw [hdeferred]
    exact h.filed
  · rw [hdeferred]
    exact h.awaited

/-- The controller gives up the handle of `x`, whose breakpoint is erased. -/
theorem DeferredSession.Tenant.erase (h : s.Tenant N) {x : Slot}
    (hx : s.deferred.held x = some id) (hgood : t.session.core.Good false [])
    (hdbg : t.session.dbg = (s.session.dbg.clearPendingStep a).eraseBreakpoint id a)
    (hheld : ∀ y i, t.deferred.held y = some i → s.deferred.held y = some i ∧ y ≠ x)
    (hfiled : t.deferred.Filed) (hawaited : ∀ n, N.awaited n → n ∈ t.deferred.requests) :
    t.Tenant N := by
  have hmine : N.heldWith s.deferred (.inr x) = some id := hx
  refine ⟨hgood, ?_, hfiled, hawaited⟩
  rw [show t.next = s.next by
    rw [DeferredSession.next, hdbg, (core_eraseBreakpoint s.session.dbg id a).1]
    rfl]
  refine h.handles.drop (fun y i hy => ?_) fun y i hy hlisted pid hplace hlive howns => ?_
  · cases y with
    | inl o => exact hy
    | inr y => exact (hheld y i hy).1
  · rw [hdbg, owns_eraseBreakpoint] at howns
    rw [hdbg]
    refine mem_idsOf_eraseBreakpoint (hlisted pid hplace hlive howns) ?_
    rintro rfl
    cases y with
    | inl o =>
      have hy : N.heldWith s.deferred (.inl o) = some i := hy
      cases h.handles.single hmine hy
    | inr y =>
      have hy' : N.heldWith s.deferred (.inr y) = some i := (hheld y i hy).1
      exact (hheld y i hy).2 (Sum.inr.inj (h.handles.single hy' hmine))

/-- The new breakpoint goes to `x`. -/
theorem DeferredSession.Tenant.issue (h : s.Tenant N) {x : Slot} {original : Byte}
    (hgood : t.session.core.Good false [])
    (hdbg : t.session.dbg = s.session.dbg.insertBreakpoint a original)
    (hheld : ∀ y i, t.deferred.held y = some i → s.deferred.held y = some i ∨ y = x ∧ i = s.next)
    (hhome : N.slotPlace x = some N.home → s.session.dbg.process.pid = N.home)
    (hfiled : t.deferred.Filed) (hawaited : ∀ n, N.awaited n → n ∈ t.deferred.requests) :
    t.Tenant N := by
  refine ⟨hgood, ?_, hfiled, hawaited⟩
  rw [show t.next = s.next + 1 by
    rw [DeferredSession.next, hdbg]
    rfl]
  refine h.handles.issue (k := .inr x) (fun y i hy => ?_) (fun _ pid hplace _ _ => ?_)
    fun y i hy hlisted pid hplace hlive howns => ?_
  · cases y with
    | inl o => exact .inl hy
    | inr y =>
      obtain hy | ⟨rfl, rfl⟩ := hheld y i hy
      · exact .inl hy
      · exact .inr ⟨rfl, rfl⟩
  · have hpid : pid = N.home := by
      cases x <;> cases hplace
      rfl
    rw [hdbg, hpid, ← hhome (hpid ▸ hplace)]
    exact mem_idsOf_inserted
  · rw [hdbg] at howns ⊢
    exact mem_idsOf_insertBreakpoint (hlisted pid hplace hlive howns)

/-! ## Calls of the debugger -/

theorem wp_arm_good {Q : Post WaitCall Exception DeferredSession Nat}
    (hgood : s.session.core.Good false [])
    (armed : ∀ t original, t.deferred = s.deferred →
      t.session.dbg = s.session.dbg.insertBreakpoint a original →
      t.session.core.Good false [] → Q.returned s.next t)
    (refused : ∀ t e, t.deferred = s.deferred → t.session.dbg = s.session.dbg →
      t.session.core.Good false [] → Q.raised e t) : wp (arm a) Q s := by
  simp only [arm, record, debugger, wp_bind, wp_update, wp_zoom]
  refine wp_addBreakpoint (fun faults original _ _ htask hnew hacc _ => ?_) fun faults e => ?_
  · exact armed _ original rfl rfl
      (hgood.insertBreakpoint htask hnew (Lowlevel.bound_of_accessible hacc)).forgetIssued
  · exact refused _ e rfl rfl hgood

theorem removeBreakpoint_good {u : Session} {Q : Post WaitCall Exception Session Bool}
    (hgood : u.core.Good false [])
    (unknown : id ∉ u.dbg.breakpointIds → Q.returned false u)
    (removed : ∀ v a, v.dbg = (u.dbg.clearPendingStep a).eraseBreakpoint id a →
      v.core.Good false [] → Q.returned true v)
    (refused : ∀ v e, removeBreakpoint id u = .raised e v → v.dbg = u.dbg →
      v.core.Good false [] → Q.raised e v) : wp (removeBreakpoint id) Q u := by
  have outcome : wp (removeBreakpoint id)
      ⟨fun r v => if r = false then id ∉ u.dbg.breakpointIds ∧ v = u else
        ∃ a, v.dbg = (u.dbg.clearPendingStep a).eraseBreakpoint id a ∧ v.core.Good false [],
        fun _ v => v.dbg = u.dbg ∧ v.core.Good false [], fun _ _ => False⟩ u := by
    refine wp_removeBreakpoint (fun hout => ⟨hout, rfl⟩) ?_ ?_ fun faults e => ⟨rfl, hgood⟩
    · intro address bp faults hid _ _ _ htask
      refine ⟨address, rfl, hgood.eraseBreakpoint hid (.inr ⟨bp.originalByte, ?_⟩) rfl rfl rfl⟩
      rw [← Session.space_of_tracked hgood.tables (mem_of_stopped htask)]
      rfl
    · intro address hid _
      exact ⟨address, rfl, hgood.eraseBreakpoint hid (.inl rfl) rfl rfl rfl⟩
  refine wp_mono_eq outcome (fun r v _ hv => ?_) (fun e v he hv => refused v e he hv.1 hv.2)
    fun _ _ _ hv => hv.elim
  cases r with
  | false =>
    obtain ⟨hout, rfl⟩ := hv
    exact unknown hout
  | true =>
    obtain ⟨a, hdbg, hv⟩ := hv
    exact removed v a hdbg hv

theorem wp_disarm_good {Q : Post WaitCall Exception DeferredSession Bool}
    (hgood : s.session.core.Good false [])
    (unknown : ∀ t, id ∉ s.ids → t.deferred = s.deferred → t.session.dbg = s.session.dbg →
      t.session.core.Good false [] → Q.returned false t)
    (removed : ∀ t a, t.deferred = s.deferred →
      t.session.dbg = (s.session.dbg.clearPendingStep a).eraseBreakpoint id a →
      t.session.core.Good false [] → Q.returned true t)
    (refused : ∀ t e, removeBreakpoint id s.session = .raised e t.session →
      t.deferred = s.deferred → t.session.dbg = s.session.dbg →
      t.session.core.Good false [] → Q.raised e t) : wp (disarm id) Q s := by
  simp only [disarm, record, debugger, wp_bind, wp_update, wp_zoom]
  exact removeBreakpoint_good hgood (fun hout => unknown _ hout rfl rfl hgood)
    (fun v a hdbg hv => removed _ a rfl hdbg hv) fun v e he hdbg hv => refused _ e he rfl hdbg hv

theorem wp_discard_good {Q : Post WaitCall Exception DeferredSession Bool}
    (hgood : s.session.core.Good false [])
    (unknown : ∀ t, id ∉ s.ids → Q.returned false t)
    (removed : ∀ t a, t.deferred = s.deferred →
      t.session.dbg = (s.session.dbg.clearPendingStep a).eraseBreakpoint id a →
      t.session.core.Good false [] → Q.returned true t) : wp (discard id) Q s := by
  simp only [discard, record, debugger, discardBreakpoint, wp_bind, wp_update, wp_zoom, wp_view]
  rcases hid : s.session.dbg.breakpointIds[id]? with _ | address
  · refine unknown _ (show id ∉ s.session.dbg.breakpointIds from ?_)
    simpa using hid
  · exact removed _ address rfl rfl (hgood.eraseBreakpoint hid (.inl rfl) rfl rfl rfl)

/-! ## Looking up -/

/-- Commands that only look. -/
abbrev GlancesOnly {α : Type} (x : DeferredAct α) : Prop :=
  Within DeferredSession.Glances (fun _ => True) x

theorem glances_raise {α : Type} (e : Exception) : GlancesOnly (raise e : DeferredAct α) :=
  fun s => ⟨refl_of DeferredSession.Glances s, trivial⟩

theorem glances_check {α β : Type} {c : Prop} [Decidable c] {e : Exception}
    {f : β → DeferredAct α} {x : DeferredAct α} (hx : GlancesOnly x) :
    GlancesOnly (if c then raise e >>= f else x) := by
  intro s
  rw [wp_ite]
  split
  · exact ⟨refl_of DeferredSession.Glances s, trivial⟩
  · exact hx s

theorem glances_consult {α : Type} (f : Session → Except Exception α) :
    GlancesOnly (consult f) := by
  refine (Within.read _).bind fun r => ?_
  cases r with
  | ok a => exact Within.pure a
  | error e => exact glances_raise e

theorem glances_readMemory (address : Addr) (length : Nat) :
    GlancesOnly (debugger (readMemory address length)) := by
  intro s
  rw [debugger, wp_zoom]
  exact (within_readMemory address length).wp (fun _ _ ht => ⟨ht, _, rfl⟩)
    fun _ _ ht _ => ⟨⟨ht, _, rfl⟩, trivial⟩

theorem glances_runtimeAddress (v : Word) : GlancesOnly (runtimeAddress modules v) :=
  (glances_consult _).bind fun _ => glances_check (Within.pure _)

theorem glances_readRDebug (address : Addr) (what : String) :
    GlancesOnly (readRDebug address what) :=
  (glances_readMemory _ _).bind fun _ => glances_check (Within.pure _)

theorem glances_currentLoaderBreakAddress : GlancesOnly currentLoaderBreakAddress := by
  refine (Within.read _).bind fun address => ?_
  cases address with
  | none => exact glances_raise _
  | some address => exact (glances_readRDebug _ _).bind fun _ => glances_check (Within.pure _)

theorem glances_loaderStateIsConsistent : GlancesOnly loaderStateIsConsistent := by
  refine (Within.read _).bind fun address => ?_
  cases address with
  | none => exact Within.pure _
  | some address => exact (glances_readRDebug _ _).bind fun _ => Within.pure _

theorem glances_loaderAddress : GlancesOnly (loaderAddress modules) := by
  have hfirst : GlancesOnly (currentRDebugAddress modules) :=
    (Within.read _).bind fun _ => (glances_runtimeAddress _).bind fun _ =>
      ((glances_readMemory _ _).bind fun _ => glances_check (Within.pure _)).bind fun _ =>
        Within.pure _
  refine hfirst.bind fun address => ?_
  cases address with
  | none => exact Within.pure _
  | some address =>
    refine Within.bind (Within.update fun s => ⟨refl_of _ s.session, _, rfl⟩) fun _ => ?_
    exact glances_currentLoaderBreakAddress.bind fun _ => Within.pure _

theorem glances_entryAddress : GlancesOnly (entryAddress modules) :=
  (Within.read _).bind fun _ => glances_runtimeAddress _

/-! ## Watching the loader -/

/-- The processes are those of `d`. -/
def Debugger.SameProcesses (d d' : Debugger) : Prop :=
  d'.process.pid = d.process.pid ∧ d'.retainedProcesses = d.retainedProcesses

theorem Debugger.SameProcesses.eraseBreakpoint {d d' : Debugger} (h : d.SameProcesses d') :
    d.SameProcesses ((d'.clearPendingStep a).eraseBreakpoint id a) := by
  unfold Debugger.clearPendingStep
  split <;> exact h

/-- In order, with the processes of `d`, these requests and this number for the next one. -/
structure DeferredSession.Monitors (N : Neighbours) (d : Debugger)
    (requests : ExtTreeMap Nat DeferredBreakpoint) (number : Nat) (s : DeferredSession) :
    Prop where
  tenant : s.Tenant N
  processes : d.SameProcesses s.session.dbg
  requests : s.deferred.requests = requests
  number : s.deferred.nextRequestId = number

variable {d : Debugger} {R : ExtTreeMap Nat DeferredBreakpoint} {n : Nat}

theorem DeferredSession.Monitors.glance (h : s.Monitors N d R n) (ht : s.Glances t) :
    t.Monitors N d R n := by
  have htenant := h.tenant.glance ht
  obtain ⟨⟨_, _, _, hsession⟩, r, hdeferred⟩ := ht
  refine ⟨htenant, ?_, ?_, ?_⟩
  · rw [hsession]
    exact h.processes
  · rw [hdeferred]
    exact h.requests
  · rw [hdeferred]
    exact h.number

theorem monitors_of_glances {α : Type} {x : DeferredAct α} (hx : GlancesOnly x) :
    Preserves (DeferredSession.Monitors N d R n) x := fun _ h =>
  hx.wp (fun _ _ ht => h.glance ht) fun _ _ ht _ => h.glance ht

/-- A breakpoint for the slot `x`, which is not a request; `before` sets its address and `after` its
id. -/
theorem DeferredSession.Monitors.arm (h : s.Monitors N d R n) (x : Slot)
    (hx : N.slotPlace x = none) (before : DeferredBreakpoints → DeferredBreakpoints)
    (after : Nat → DeferredBreakpoints → DeferredBreakpoints)
    (hbefore : ∀ c, (before c).held = c.held ∧ (before c).requests = c.requests ∧
      (before c).nextRequestId = c.nextRequestId)
    (hafter : ∀ j c, (∀ y i, (after j c).held y = some i → c.held y = some i ∨ y = x ∧ i = j) ∧
      (after j c).requests = c.requests ∧ (after j c).nextRequestId = c.nextRequestId) :
    wp (arm a) ⟨fun j t => { t with deferred := after j t.deferred }.Monitors N d R n,
      fun _ t => t.Monitors N d R n, fun _ _ => True⟩
      { s with deferred := before s.deferred } := by
  obtain ⟨hheld, hrequests, hnumber⟩ := hbefore s.deferred
  have hfiled : (before s.deferred).Filed := by
    rw [Filed, hrequests, hnumber]
    exact h.tenant.filed
  have hawaited : ∀ m, N.awaited m → m ∈ (before s.deferred).requests := by
    rw [hrequests]
    exact h.tenant.awaited
  have hfirst : { s with deferred := before s.deferred }.Tenant N :=
    h.tenant.same_dbg h.tenant.good rfl (fun y i hy => hheld ▸ hy) hfiled hawaited
  refine wp_arm_good h.tenant.good (fun t original hdeferred hdbg hgood => ?_)
    fun t e hdeferred hdbg hgood => ?_
  · obtain ⟨hheld', hrequests', hnumber'⟩ := hafter s.next t.deferred
    rw [hdeferred] at hheld' hrequests' hnumber'
    have hrequests' := hrequests'.trans hrequests
    have hnumber' := hnumber'.trans hnumber
    refine ⟨hfirst.issue (x := x) hgood hdbg ?_ (fun hplace => ?_) ?_ ?_, hdbg ▸ h.processes,
      ?_, ?_⟩ <;> dsimp only <;> try rw [hdeferred]
    · exact hheld'
    · cases hx.symm.trans hplace
    · show Filed (after s.next (before s.deferred))
      rw [Filed, hrequests', hnumber']
      exact h.tenant.filed
    · show ∀ m, N.awaited m → m ∈ (after s.next (before s.deferred)).requests
      rw [hrequests']
      exact h.tenant.awaited
    · exact hrequests'.trans h.requests
    · exact hnumber'.trans h.number
  · refine ⟨hfirst.same_dbg hgood hdbg (fun y i hy => hdeferred ▸ hy) (hdeferred ▸ hfiled)
      (hdeferred ▸ hawaited), hdbg ▸ h.processes, ?_, ?_⟩
    · rw [hdeferred]
      exact hrequests.trans h.requests
    · rw [hdeferred]
      exact hnumber.trans h.number

theorem monitors_armLoader (a : Addr) :
    Preserves (DeferredSession.Monitors N d R n) (armLoader a) := by
  intro s h
  simp only [armLoader, DeferredBreakpoints.modify, wp_bind, wp_update, wp_pure]
  refine h.arm .loader rfl (fun c => { c with loaderBreakpointAddress := some a })
    (fun j c => { c with loaderBreakpointId := some j })
    (fun c => ⟨funext fun y => by cases y <;> rfl, rfl, rfl⟩)
    fun j c => ⟨fun y i hy => ?_, rfl, rfl⟩
  cases y with
  | loader => exact .inr ⟨rfl, (Option.some.inj hy).symm⟩
  | bootstrap => exact .inl hy
  | request k => exact .inl hy

theorem monitors_armBootstrap (a : Addr) :
    Preserves (DeferredSession.Monitors N d R n) (armBootstrap a) := by
  intro s h
  simp only [armBootstrap, DeferredBreakpoints.modify, wp_bind, wp_update]
  refine h.arm .bootstrap rfl (fun c => { c with bootstrapBreakpointAddress := some a })
    (fun j c => { c with bootstrapBreakpointId := some j })
    (fun c => ⟨funext fun y => by cases y <;> rfl, rfl, rfl⟩)
    fun j c => ⟨fun y i hy => ?_, rfl, rfl⟩
  cases y with
  | loader => exact .inl hy
  | bootstrap => exact .inr ⟨rfl, (Option.some.inj hy).symm⟩
  | request k => exact .inl hy

theorem monitors_tryInstallLoaderBreakpoint :
    Preserves (DeferredSession.Monitors N d R n) (tryInstallLoaderBreakpoint modules) := by
  intro s h
  rw [wp_tryInstallLoaderBreakpoint]
  refine wp_mono (monitors_of_glances glances_loaderAddress s h) (fun r t ht => ?_)
    (fun _ _ ht => ht) fun _ _ _ => trivial
  cases r with
  | none => exact ht
  | some a => exact monitors_armLoader a t ht

theorem monitors_ensureMonitoring :
    Preserves (DeferredSession.Monitors N d R n) (ensureMonitoring modules) := by
  have hbootstrap : Preserves (DeferredSession.Monitors N d R n)
      (installBootstrapBreakpoint modules) := by
    intro s h
    rw [wp_installBootstrapBreakpoint]
    exact wp_mono (monitors_of_glances glances_entryAddress s h)
      (fun a t ht => monitors_armBootstrap a t ht) (fun _ _ ht => ht) fun _ _ _ => trivial
  refine (Preserves.read _).bind fun c => Preserves.ite (Preserves.pure _) ?_
  exact monitors_tryInstallLoaderBreakpoint.bind fun _ =>
    Preserves.ite hbootstrap (Preserves.pure _)

/-- The two fields of an internal breakpoint are cleared. -/
structure Clears (x : Slot) (reset : DeferredBreakpoints → DeferredBreakpoints) : Prop where
  held : ∀ c y i, (reset c).held y = some i → c.held y = some i ∧ y ≠ x
  requests : ∀ c, (reset c).requests = c.requests
  number : ∀ c, (reset c).nextRequestId = c.nextRequestId

/-- Nothing is raised. -/
def monitoring (N : Neighbours) (d : Debugger) (R : ExtTreeMap Nat DeferredBreakpoint) (n : Nat) :
    Post WaitCall Exception DeferredSession Unit where
  returned _ t := t.Monitors N d R n
  raised _ _ := False
  blocked _ _ := False

theorem monitors_removeInternalBreakpoint {x : Slot}
    {reset : DeferredBreakpoints → DeferredBreakpoints} (hreset : Clears x reset)
    (h : s.Monitors N d R n) :
    wp (removeInternalBreakpoint (s.deferred.held x) reset) (monitoring N d R n) s := by
  have hfiled : ∀ c : DeferredBreakpoints, c.Filed → (reset c).Filed := fun c hc => by
    rw [Filed, hreset.requests, hreset.number]
    exact hc
  have kept : ∀ t : DeferredSession, t.deferred = s.deferred →
      t.session.dbg = s.session.dbg → t.session.core.Good false [] →
      { t with deferred := reset t.deferred }.Monitors N d R n := by
    intro t hdeferred hdbg hgood
    refine ⟨h.tenant.same_dbg hgood hdbg (fun y i hy => ?_) ?_ ?_, hdbg ▸ h.processes, ?_, ?_⟩ <;>
      dsimp only at * <;> rw [hdeferred] at *
    · exact (hreset.held _ y i hy).1
    · exact hfiled _ h.tenant.filed
    · rw [hreset.requests]
      exact h.tenant.awaited
    · exact (hreset.requests _).trans h.requests
    · exact (hreset.number _).trans h.number
  have hdone : ∀ (t : DeferredSession) (id : Nat) (a : Addr), s.deferred.held x = some id →
      t.deferred = s.deferred →
      t.session.dbg = (s.session.dbg.clearPendingStep a).eraseBreakpoint id a →
      t.session.core.Good false [] →
      { t with deferred := reset t.deferred }.Monitors N d R n := by
    intro t id a hid hdeferred hdbg hgood
    refine ⟨h.tenant.erase hid hgood hdbg (fun y i hy => ?_) ?_ ?_,
      hdbg ▸ h.processes.eraseBreakpoint, ?_, ?_⟩ <;> dsimp only at * <;> rw [hdeferred] at *
    · exact hreset.held _ y i hy
    · exact hfiled _ h.tenant.filed
    · rw [hreset.requests]
      exact h.tenant.awaited
    · exact (hreset.requests _).trans h.requests
    · exact (hreset.number _).trans h.number
  cases hid : s.deferred.held x with
  | none => exact kept s rfl rfl h.tenant.good
  | some id =>
    simp only [removeInternalBreakpoint, DeferredBreakpoints.modify, debugger, view, wp_bind,
      wp_handle, wp_zoom, wp_read, wp_ite, wp_pure, wp_update]
    split
    · exact wp_disarm_good h.tenant.good
        (fun t _ hdeferred hdbg hgood => kept t hdeferred hdbg hgood)
        (fun t a hdeferred hdbg hgood => hdone t id a hid hdeferred hdbg hgood)
        fun t e _ hdeferred hdbg hgood => kept t hdeferred hdbg hgood
    · exact kept _ rfl rfl h.tenant.good

theorem monitors_removeLoaderBreakpoint (h : s.Monitors N d R n) :
    wp removeLoaderBreakpoint (monitoring N d R n) s := by
  refine monitors_removeInternalBreakpoint (x := .loader) ⟨fun c y i hy => ?_, fun _ => rfl,
    fun _ => rfl⟩ h
  cases y with
  | loader => cases hy
  | bootstrap => exact ⟨hy, by rintro ⟨⟩⟩
  | request k => exact ⟨hy, by rintro ⟨⟩⟩

theorem monitors_removeBootstrapBreakpoint (h : s.Monitors N d R n) :
    wp removeBootstrapBreakpoint (monitoring N d R n) s := by
  refine monitors_removeInternalBreakpoint (x := .bootstrap) ⟨fun c y i hy => ?_, fun _ => rfl,
    fun _ => rfl⟩ h
  cases y with
  | loader => exact ⟨hy, by rintro ⟨⟩⟩
  | bootstrap => cases hy
  | request k => exact ⟨hy, by rintro ⟨⟩⟩

theorem monitors_suspendMonitoring (h : s.Monitors N d R n) :
    wp suspendMonitoring (monitoring N d R n) s := by
  simp only [suspendMonitoring, wp_bind]
  exact wp_mono (monitors_removeLoaderBreakpoint h)
    (fun _ t ht => monitors_removeBootstrapBreakpoint ht) (fun _ _ ht => ht) fun _ _ ht => ht

theorem monitors_stopMonitoringIfIdle (h : s.Monitors N d R n) :
    wp stopMonitoringIfIdle (monitoring N d R n) s := by
  simp only [stopMonitoringIfIdle, DeferredBreakpoints.get, DeferredBreakpoints.modify, wp_bind,
    wp_read, wp_ite, wp_pure, wp_update]
  split
  · exact wp_mono (monitors_suspendMonitoring h)
      (fun _ t ht => ht.glance ⟨refl_of _ t.session, _, rfl⟩) (fun _ _ ht => ht) fun _ _ ht => ht
  · exact h

/-! ## Requests -/

theorem held_insert {c : DeferredBreakpoints} {k : Nat} {r : DeferredBreakpoint} {y : Slot}
    {i : Nat}
    (h : DeferredBreakpoints.held { c with requests := c.requests.insert k r } y = some i) :
    y = .request k ∧ r.breakpointId = some i ∨ y ≠ .request k ∧ c.held y = some i := by
  cases y with
  | loader => exact .inr ⟨by rintro ⟨⟩, h⟩
  | bootstrap => exact .inr ⟨by rintro ⟨⟩, h⟩
  | request m =>
    simp only [DeferredBreakpoints.held, ExtTreeMap.getElem?_insert] at h
    split at h
    · rename_i heq
      obtain rfl : k = m := by simpa using heq
      exact .inl ⟨rfl, h⟩
    · rename_i hne
      refine .inr ⟨?_, h⟩
      rintro ⟨⟩
      exact hne (by simp)

theorem held_erase {c : DeferredBreakpoints} {k : Nat} {y : Slot} {i : Nat}
    (h : DeferredBreakpoints.held { c with requests := c.requests.erase k } y = some i) :
    c.held y = some i ∧ y ≠ .request k := by
  cases y with
  | loader => exact ⟨h, by rintro ⟨⟩⟩
  | bootstrap => exact ⟨h, by rintro ⟨⟩⟩
  | request m =>
    simp only [DeferredBreakpoints.held, ExtTreeMap.getElem?_erase] at h
    split at h
    · cases h
    · rename_i hne
      refine ⟨h, ?_⟩
      rintro ⟨⟩
      exact hne (by simp)

theorem DeferredBreakpoints.Filed.insert {c : DeferredBreakpoints} (h : c.Filed)
    {r : DeferredBreakpoint} {k next : Nat} (hid : r.requestId = k) (hk : k < next)
    (hnext : c.nextRequestId ≤ next) :
    Filed { c with requests := c.requests.insert k r, nextRequestId := next } := by
  intro m r' hr
  have hfound : (c.requests.insert k r)[m]? = some r' := hr
  rw [ExtTreeMap.getElem?_insert] at hfound
  split at hfound
  · rename_i heq
    obtain rfl : k = m := by simpa using heq
    cases hfound
    exact ⟨hid, hk⟩
  · exact ⟨(h m r' hfound).1, (h m r' hfound).2.trans_le hnext⟩

theorem DeferredBreakpoints.Filed.erase {c : DeferredBreakpoints} (h : c.Filed) (k : Nat) :
    Filed { c with requests := c.requests.erase k } := by
  intro m r hr
  have hfound : (c.requests.erase k)[m]? = some r := hr
  rw [ExtTreeMap.getElem?_erase] at hfound
  split at hfound
  · cases hfound
  · exact h m r hfound

theorem awaited_erase {requests : ExtTreeMap Nat DeferredBreakpoint} {k : Nat}
    (h : ∀ m, N.awaited m → m ∈ requests) (hk : ¬N.awaited k) :
    ∀ m, N.awaited m → m ∈ requests.erase k := fun m hm =>
  ExtTreeMap.mem_erase.mpr ⟨by
    simp only [ne_eq, Nat.compare_eq_eq]
    rintro rfl
    exact hk hm, h m hm⟩

/-- In order, with the processes of `d`. -/
def DeferredSession.Serves (N : Neighbours) (d : Debugger) (s : DeferredSession) : Prop :=
  s.Tenant N ∧ d.SameProcesses s.session.dbg

theorem DeferredSession.Monitors.serves (h : s.Monitors N d R n) : s.Serves N d :=
  ⟨h.tenant, h.processes⟩

theorem DeferredSession.Serves.monitors (h : s.Serves N d) :
    s.Monitors N d s.deferred.requests s.deferred.nextRequestId := ⟨h.1, h.2, rfl, rfl⟩

theorem serves_openRequest (h : s.Serves N d) (hhome : d.process.pid = N.home)
    (target : DeferredBreakpointTarget) :
    wp (openRequest modules target)
      ⟨fun r t => r.requestId = s.deferred.nextRequestId ∧
        t.Monitors N d (s.deferred.requests.insert s.deferred.nextRequestId r)
          (s.deferred.nextRequestId + 1), fun _ t => t.Serves N d, fun _ _ => True⟩ s := by
  obtain ⟨htenant, hprocesses⟩ := h
  have hfiled : ∀ r : DeferredBreakpoint, r.requestId = s.deferred.nextRequestId →
      Filed { s.deferred with
        requests := s.deferred.requests.insert s.deferred.nextRequestId r
        nextRequestId := s.deferred.nextRequestId + 1 } := fun r hr =>
    htenant.filed.insert hr (Nat.lt_succ_self _) (Nat.le_succ _)
  have hawaited : ∀ (r : DeferredBreakpoint) (m : Nat), N.awaited m →
      m ∈ s.deferred.requests.insert s.deferred.nextRequestId r := fun r m hm =>
    ExtTreeMap.mem_insert.mpr (.inr (htenant.awaited m hm))
  have hnumbered : ({ s with deferred := { s.deferred with
      nextRequestId := s.deferred.nextRequestId + 1 } } : DeferredSession).Serves N d := by
    refine ⟨htenant.same_dbg htenant.good rfl (fun y i hy => by cases y <;> exact hy)
      (fun m r hr => ?_) htenant.awaited, hprocesses⟩
    exact ⟨(htenant.filed m r hr).1, (htenant.filed m r hr).2.trans (Nat.lt_succ_self _)⟩
  simp only [openRequest, DeferredBreakpoints.get, DeferredBreakpoints.modify, resolveTarget,
    consult, store, debugger, view, wp_bind, wp_zoom, wp_read, wp_ite, wp_raise, wp_update]
  split
  · exact ⟨htenant, hprocesses⟩
  split
  · exact ⟨htenant, hprocesses⟩
  split
  · rename_i resolved _
    cases resolved with
    | none =>
      refine ⟨rfl, htenant.same_dbg htenant.good rfl (fun y i hy => ?_) (hfiled _ rfl)
        (hawaited _), hprocesses, rfl, rfl⟩
      obtain ⟨-, hnone⟩ | ⟨-, hy⟩ := held_insert hy
      · cases hnone
      · exact by cases y <;> exact hy
    | some address =>
      simp only [wp_pure, wp_bind]
      refine wp_arm_good htenant.good (fun t original hdeferred hdbg hgood => ?_)
        fun t e hdeferred hdbg hgood => ?_
      · refine ⟨rfl, htenant.issue (x := .request s.deferred.nextRequestId) hgood hdbg
          (fun y i hy => ?_) (fun _ => hprocesses.1.trans hhome) ?_ ?_, hdbg ▸ hprocesses, ?_, ?_⟩
          <;> dsimp only at * <;> rw [hdeferred] at *
        · obtain ⟨rfl, hid⟩ | ⟨-, hy⟩ := held_insert hy
          · exact .inr ⟨rfl, (Option.some.inj hid).symm⟩
          · exact .inl (by cases y <;> exact hy)
        · exact hfiled _ rfl
        · exact hawaited _
        · rfl
        · rfl
      · exact ⟨hnumbered.1.same_dbg hgood hdbg (fun y i hy => hdeferred ▸ hy)
          (hdeferred ▸ hnumbered.1.filed) (hdeferred ▸ hnumbered.1.awaited), hdbg ▸ hprocesses⟩
  · exact hnumbered

/-- A request that is given up again. -/
theorem serves_rollBack {r : DeferredBreakpoint} {k : Nat} (hid : r.requestId = k)
    (h : s.Monitors N d (R.insert k r) n) (hk : ¬N.awaited k) (e : Exception) :
    wp (rollBack r e) ⟨fun _ _ => False, fun _ t => t.Serves N d, fun _ _ => True⟩ s := by
  subst hid
  have hall := awaited_erase h.tenant.awaited hk
  have given : ∀ t : DeferredSession, t.deferred = s.deferred → t.session.dbg = s.session.dbg →
      t.session.core.Good false [] → { t with deferred := { t.deferred with
        requests := t.deferred.requests.erase r.requestId } }.Serves N d := by
    intro t hdeferred hdbg hgood
    refine ⟨h.tenant.same_dbg hgood hdbg (fun y i hy => ?_) ?_ ?_, hdbg ▸ h.processes⟩ <;>
      dsimp only at * <;> rw [hdeferred] at *
    · exact (held_erase hy).1
    · exact h.tenant.filed.erase _
    · exact hall
  simp only [rollBack, DeferredBreakpoints.modify]
  cases hbreakpoint : r.breakpointId with
  | none =>
    simp only [wp_bind, wp_update, wp_raise]
    exact given s rfl rfl h.tenant.good
  | some id =>
    simp only [wp_bind, wp_update, wp_raise]
    have hheld : s.deferred.held (.request r.requestId) = some id := by
      simp [DeferredBreakpoints.held, h.requests, hbreakpoint]
    refine wp_disarm_good h.tenant.good
      (fun t _ hdeferred hdbg hgood => given t hdeferred hdbg hgood)
      (fun t a hdeferred hdbg hgood => ?_) fun t e _ hdeferred hdbg hgood => ?_
    · refine ⟨h.tenant.erase hheld hgood hdbg (fun y i hy => ?_) ?_ ?_,
        hdbg ▸ h.processes.eraseBreakpoint⟩ <;> dsimp only at * <;> rw [hdeferred] at *
      · exact held_erase hy
      · exact h.tenant.filed.erase _
      · exact hall
    · exact ⟨h.tenant.same_dbg hgood hdbg (fun y i hy => hdeferred ▸ hy)
        (hdeferred ▸ h.tenant.filed) (hdeferred ▸ h.tenant.awaited), hdbg ▸ h.processes⟩

theorem serves_addTarget (h : s.Serves N d) (hhome : d.process.pid = N.home)
    (target : DeferredBreakpointTarget) :
    wp (addTarget modules target)
      ⟨fun k t => t.Serves N d ∧ k = s.deferred.nextRequestId ∧ k ∈ t.deferred.requests,
        fun _ t => t.Serves N d, fun _ _ => True⟩ s := by
  rw [wp_addTarget]
  refine wp_mono (serves_openRequest h hhome target) ?_ (fun _ _ ht => ht) fun _ _ ht => ht
  rintro r t ⟨hid, ht⟩
  dsimp only
  rw [wp_handle]
  refine wp_mono (monitors_ensureMonitoring t ht) (fun _ u hu => ?_) (fun e u hu => ?_)
    fun _ _ _ => trivial
  · refine ⟨hu.serves, hid, ?_⟩
    rw [hu.requests, hid]
    exact ExtTreeMap.mem_insert_self
  · have hfresh : ¬N.awaited s.deferred.nextRequestId := by
      intro hawaited
      obtain ⟨r', hr'⟩ := Option.isSome_iff_exists.mp
        (ExtTreeMap.isSome_getElem?_iff_mem.mpr (h.1.awaited _ hawaited))
      exact lt_irrefl _ (h.1.filed _ r' hr').2
    exact wp_mono (serves_rollBack hid hu hfresh e) (fun _ _ hv => hv.elim)
      (fun _ _ hv => hv) fun _ _ _ => trivial

/-- A request that nobody waits for any more can be removed, unless the debugger refuses to. -/
theorem serves_remove (h : s.Serves N d) (hhome : d.process.pid = N.home) (hlive : N.live N.home)
    {k : Nat} (hk : ¬N.awaited k) :
    wp (remove k) ⟨fun r t => t.Serves N d ∧ (k ∈ s.deferred.requests → r = true),
      fun e t => ∃ id, removeBreakpoint id s.session = .raised e t.session,
      fun _ _ => False⟩ s := by
  obtain ⟨htenant, hprocesses⟩ := h
  have hall := awaited_erase htenant.awaited hk
  have stopped : ∀ t : DeferredSession, t.Serves N d →
      wp stopMonitoringIfIdle ⟨fun _ t => t.Serves N d ∧ (k ∈ s.deferred.requests → True),
        fun e t => ∃ id, removeBreakpoint id s.session = .raised e t.session, fun _ _ => False⟩ t :=
    fun t ht => wp_mono (monitors_stopMonitoringIfIdle ht.monitors)
      (fun _ _ hu => ⟨hu.serves, fun _ => trivial⟩) (fun _ _ hu => hu.elim) fun _ _ hu => hu.elim
  simp only [remove, DeferredBreakpoints.get, DeferredBreakpoints.modify, wp_bind, wp_read]
  cases hfound : s.deferred.requests[k]? with
  | none =>
    refine ⟨⟨htenant, hprocesses⟩, fun hin => ?_⟩
    simp [ExtTreeMap.mem_iff_isSome_getElem?, hfound] at hin
  | some request =>
    dsimp only
    cases hbreakpoint : request.breakpointId with
    | none =>
      simp only [wp_pure, wp_bind, wp_update]
      have hgone : ({ s with deferred := { s.deferred with
          requests := s.deferred.requests.erase k } } : DeferredSession).Serves N d :=
        ⟨htenant.same_dbg htenant.good rfl (fun y i hy => (held_erase hy).1)
          (htenant.filed.erase _) hall, hprocesses⟩
      exact stopped _ hgone
    | some id =>
      simp only [wp_pure, wp_bind, wp_update, wp_ite, wp_raise]
      have hheld : s.deferred.held (.request k) = some id := by
        simp [DeferredBreakpoints.held, hfound, hbreakpoint]
      have hlisted : id ∈ s.session.dbg.breakpointIds := by
        have hself : N.home = s.session.dbg.process.pid := hhome.symm.trans hprocesses.1.symm
        have := htenant.handles.found (h := .inr (.request k)) hheld N.home rfl hlive (.inl hself)
        rwa [Debugger.idsOf_active hself] at this
      refine wp_disarm_good htenant.good (fun t hout _ _ _ => absurd hlisted hout)
        (fun t a hdeferred hdbg hgood => ?_) fun t e he _ _ _ => ⟨id, he⟩
      simp only [Bool.not_true, Bool.false_eq_true, if_false]
      refine stopped _ ⟨htenant.erase hheld hgood hdbg (fun y i hy => ?_) ?_ ?_,
        hdbg ▸ hprocesses.eraseBreakpoint⟩ <;> dsimp only at * <;> rw [hdeferred] at *
      · exact held_erase hy
      · exact htenant.filed.erase _
      · exact hall

/-! ## Reconciling -/

/-- In order, with the requests other than `k` as they were in `s`. -/
def DeferredSession.ServesBut (N : Neighbours) (d : Debugger) (k : Nat) (s t : DeferredSession) :
    Prop :=
  t.Serves N d ∧ ∀ m ≠ k, t.deferred.requests[m]? = s.deferred.requests[m]?

theorem getElem?_insert_ne {V : Type} {m : ExtTreeMap Nat V} {j k : Nat} {v : V} (h : j ≠ k) :
    (m.insert k v)[j]? = m[j]? := by
  rw [ExtTreeMap.getElem?_insert, if_neg]
  simpa using Ne.symm h

/-- A request that has no breakpoint yet is stored again. -/
theorem DeferredSession.Serves.store_bare (h : s.Serves N d) {r r' : DeferredBreakpoint}
    (hr : s.deferred.requests[r.requestId]? = some r') (hid : r.breakpointId = none) :
    ({ s with deferred := { s.deferred with
      requests := s.deferred.requests.insert r.requestId r } } : DeferredSession).Serves N d := by
  refine ⟨h.1.same_dbg h.1.good rfl (fun y i hy => ?_) ?_ fun m hm => ?_, h.2⟩
  · obtain ⟨-, hnone⟩ | ⟨-, hy⟩ := held_insert hy
    · cases hid.symm.trans hnone
    · exact hy
  · exact h.1.filed.insert rfl (h.1.filed _ r' hr).2 le_rfl
  · exact ExtTreeMap.mem_insert.mpr (.inr (h.1.awaited m hm))

theorem serves_armRequest (h : s.Serves N d) (hhome : d.process.pid = N.home)
    {request r : DeferredBreakpoint} (hr : s.deferred.requests[request.requestId]? = some r)
    (resolved : Option Addr) :
    wp (armRequest request resolved)
      ⟨fun _ t => s.ServesBut N d request.requestId t, fun _ _ => True, fun _ _ => True⟩ s := by
  cases resolved with
  | none => exact ⟨h, fun _ _ => rfl⟩
  | some address =>
    simp only [armRequest, store, DeferredBreakpoints.modify, wp_bind, wp_update]
    generalize hbare : ({ request with breakpointId := none, address := some address } :
      DeferredBreakpoint) = bare
    have hbareId : bare.requestId = request.requestId := by
      rw [← hbare]
    have hnone : bare.breakpointId = none := by
      rw [← hbare]
    rw [← hbareId] at hr ⊢
    have hstored := h.store_bare hr hnone
    generalize hu : DeferredSession.mk _ _ _ = u at hstored
    have hrequests : u.deferred.requests = s.deferred.requests.insert bare.requestId bare := by
      rw [← hu]
    have hkept : u.deferred.requests[bare.requestId]? = some bare := by
      rw [hrequests]
      exact ExtTreeMap.getElem?_insert_self
    refine wp_arm_good hstored.1.good (fun t original hdeferred hdbg hgood => ?_)
      fun _ _ _ _ _ => trivial
    refine ⟨⟨hstored.1.issue (x := .request bare.requestId) hgood hdbg (fun y i hy => ?_)
      (fun _ => hstored.2.1.trans hhome) ?_ fun m hm => ?_, hdbg ▸ hstored.2⟩, fun m hm => ?_⟩ <;>
      dsimp only at * <;> rw [hdeferred] at *
    · obtain ⟨rfl, hid⟩ | ⟨-, hy⟩ := held_insert hy
      · exact .inr ⟨rfl, (Option.some.inj hid).symm⟩
      · exact .inl hy
    · exact hstored.1.filed.insert rfl (hstored.1.filed _ bare hkept).2 le_rfl
    · exact ExtTreeMap.mem_insert.mpr (.inr (hstored.1.awaited m hm))
    · rw [getElem?_insert_ne hm, hrequests, getElem?_insert_ne hm]

theorem serves_dropStale (h : s.Serves N d) {r : DeferredBreakpoint} {id : Nat}
    (hr : s.deferred.requests[r.requestId]? = some r) (hid : r.breakpointId = some id) :
    wp (dropStale r id)
      ⟨fun _ t => s.ServesBut N d r.requestId t ∧ ∃ r', t.deferred.requests[r.requestId]? = some r',
        fun _ _ => True, fun _ _ => True⟩ s := by
  simp only [dropStale, store, DeferredBreakpoints.modify, wp_bind, wp_update, wp_ite, wp_raise]
  have hheld : s.deferred.held (.request r.requestId) = some id := by
    simp [DeferredBreakpoints.held, hr, hid]
  refine wp_discard_good h.1.good (fun _ _ => trivial) fun t a hdeferred hdbg hgood => ?_
  simp only [Bool.not_true, Bool.false_eq_true, if_false]
  refine ⟨⟨⟨h.1.erase hheld hgood hdbg (fun y i hy => ?_) ?_ fun m hm => ?_,
    hdbg ▸ h.2.eraseBreakpoint⟩, fun m hm => ?_⟩, { r with breakpointId := none, address := none },
    ?_⟩ <;> rw [hdeferred] at *
  · obtain ⟨-, hnone⟩ | ⟨hne, hy⟩ := held_insert hy
    · cases hnone
    · exact ⟨hy, hne⟩
  · exact h.1.filed.insert rfl (h.1.filed _ r hr).2 le_rfl
  · exact ExtTreeMap.mem_insert.mpr (.inr (h.1.awaited m hm))
  · exact getElem?_insert_ne hm
  · exact ExtTreeMap.getElem?_insert_self

theorem serves_reconcileRequest (h : s.Serves N d) (hhome : d.process.pid = N.home)
    {r : DeferredBreakpoint} (hr : s.deferred.requests[r.requestId]? = some r) :
    wp (reconcileRequest modules r)
      ⟨fun _ t => s.ServesBut N d r.requestId t, fun _ _ => True, fun _ _ => True⟩ s := by
  simp only [reconcileRequest, resolveTarget, consult, wp_bind, wp_read]
  split
  · rename_i resolved _
    simp only [wp_pure]
    cases hid : r.breakpointId with
    | none => exact serves_armRequest h hhome hr resolved
    | some id =>
      cases r.address with
      | none => trivial
      | some address =>
        simp only [wp_ite, wp_pure, wp_bind]
        split
        · exact ⟨h, fun _ _ => rfl⟩
        · refine wp_mono (serves_dropStale h hr hid) ?_ (fun _ _ _ => trivial) fun _ _ _ => trivial
          rintro _ t ⟨⟨ht, hkept⟩, r', hr'⟩
          refine wp_mono (serves_armRequest ht hhome hr' resolved) ?_ (fun _ _ _ => trivial)
            fun _ _ _ => trivial
          rintro _ u ⟨hu, hkept'⟩
          exact ⟨hu, fun m hm => (hkept' m hm).trans (hkept m hm)⟩
  · trivial

theorem serves_forEach (hhome : d.process.pid = N.home) (rest : List DeferredBreakpoint)
    (hapart : rest.Pairwise fun r r' => r.requestId ≠ r'.requestId) (h : s.Serves N d)
    (hrest : ∀ r ∈ rest, s.deferred.requests[r.requestId]? = some r) :
    wp (forEach (reconcileRequest modules) rest)
      ⟨fun _ t => t.Serves N d, fun _ _ => True, fun _ _ => True⟩ s := by
  induction rest generalizing s with
  | nil => exact h
  | cons r rest ih =>
    rw [List.pairwise_cons] at hapart
    simp only [forEach, wp_bind]
    refine wp_mono (serves_reconcileRequest h hhome (hrest r List.mem_cons_self)) ?_
      (fun _ _ _ => trivial) fun _ _ _ => trivial
    rintro _ t ⟨ht, hkept⟩
    refine ih hapart.2 ht fun r' hr' => ?_
    rw [hkept _ (hapart.1 r' hr').symm]
    exact hrest r' (List.mem_cons_of_mem _ hr')

theorem serves_reconcileRequests (h : s.Serves N d) (hhome : d.process.pid = N.home) :
    wp (reconcileRequests modules)
      ⟨fun _ t => t.Serves N d, fun _ _ => True, fun _ _ => True⟩ s := by
  have hfiled : ∀ entry ∈ s.deferred.requests.toList,
      entry.2.requestId = entry.1 ∧ s.deferred.requests[entry.1]? = some entry.2 :=
    fun entry hentry => by
      have hfound := ExtTreeMap.mem_toList_iff_getElem?_eq_some.mp hentry
      exact ⟨(h.1.filed _ _ hfound).1, hfound⟩
  refine serves_forEach hhome _ (List.pairwise_map.mpr ?_) h fun r hr => ?_
  · refine (ExtTreeMap.distinct_keys_toList).imp_of_mem fun {x y} hx hy hne heq => hne ?_
    rw [(hfiled x hx).1, (hfiled y hy).1] at heq
    simpa using heq
  · obtain ⟨entry, hentry, rfl⟩ := List.mem_map.mp hr
    obtain ⟨hid, hfound⟩ := hfiled entry hentry
    rw [hid]
    exact hfound

/-! ## Continuing -/

theorem serves_reconcileIfConsistent (h : s.Serves N d) (hhome : d.process.pid = N.home) :
    wp (reconcileIfConsistent modules)
      ⟨fun _ t => t.Serves N d, fun _ _ => True, fun _ _ => True⟩ s := by
  simp only [reconcileIfConsistent, wp_bind, wp_ite, wp_pure]
  refine wp_mono (monitors_of_glances glances_loaderStateIsConsistent s h.monitors)
    (fun consistent t ht => ?_) (fun _ _ _ => trivial) fun _ _ _ => trivial
  dsimp only
  split
  · exact serves_reconcileRequests ht.serves hhome
  · exact ht.serves

theorem serves_handleInternalStop (h : s.Serves N d) (hhome : d.process.pid = N.home)
    (stop : StopInfo) :
    wp (handleInternalStop modules stop)
      ⟨fun _ t => t.Serves N d, fun _ _ => True, fun _ _ => True⟩ s := by
  simp only [handleInternalStop, DeferredBreakpoints.get, wp_bind, wp_read, wp_ite, wp_raise]
  split
  · refine wp_mono (monitors_removeBootstrapBreakpoint h.monitors) (fun _ t ht => ?_)
      (fun _ _ ht => ht.elim) fun _ _ _ => trivial
    refine wp_mono (monitors_tryInstallLoaderBreakpoint t ht) (fun _ u hu => ?_)
      (fun _ _ _ => trivial) fun _ _ _ => trivial
    dsimp only
    split
    · trivial
    · exact serves_reconcileIfConsistent hu.serves hhome
  split
  · exact serves_reconcileIfConsistent h hhome
  · trivial

/-- What can still be relied on after a stop: nothing about processes that were not there before,
nor about the one whose image has been replaced. -/
def Neighbours.after (N : Neighbours) (d : Debugger) (info : StopInfo) (active : Pid) :
    Neighbours :=
  { N with live := fun pid => N.live pid ∧ d.Owns pid ∧ (info.reason = .exec → pid ≠ active) }

theorem Debugger.SameProcesses.owns {d d' : Debugger} (h : d.SameProcesses d') {pid : Pid} :
    d'.Owns pid ↔ d.Owns pid := by
  rw [Debugger.Owns, h.1, h.2, Debugger.Owns]

/-- The stop of an operation of the debugger. -/
theorem DeferredSession.Serves.told (h : s.Serves N d) {info : StopInfo} {u : Session}
    (hgood : u.core.Good false []) (htold : s.session.dbg.Told info u.dbg) :
    ({ s with session := u } : DeferredSession).Tenant (N.after d info u.dbg.process.pid) := by
  refine ⟨hgood, ?_, h.1.filed, h.1.awaited⟩
  rw [show ({ s with session := u } : DeferredSession).next = s.next from htold.next]
  refine h.1.handles.drop (fun _ _ hx => hx) fun x i _ hlisted pid hplace hlive howns => ?_
  have hold : s.session.dbg.Owns pid := h.2.owns.mpr hlive.2.1
  rw [htold.kept h.1.good.tables.free hold howns hlive.2.2]
  exact hlisted pid hplace hlive.1 hold

/-- A stop in the course of continuing. -/
theorem DeferredSession.Serves.plain (h : s.Serves N d) {u : Session}
    (hgood : u.core.Good false []) (hsame : s.session.dbg.SameIds u.dbg) :
    ({ s with session := u } : DeferredSession).Serves N d := by
  refine ⟨h.1.drop hgood (fun pid => ⟨hsame.owns.mp, hsame.idsOf⟩) hsame.next (fun _ _ hx => hx)
    h.1.filed h.1.awaited, hsame.pid.trans h.2.1, hsame.retained.trans h.2.2⟩

/-- What continuing leaves behind. -/
def stoppedAfter (N : Neighbours) (d : Debugger) :
    Post WaitCall Exception DeferredSession StopInfo where
  returned info t := t.Tenant (N.after d info t.session.dbg.process.pid)
  raised _ _ := True
  blocked _ _ := True

theorem tenant_continueLoop (htame : Tame false tracees) (hhome : d.process.pid = N.home) :
    ∀ (n : Nat) (policy : SignalPolicy) (s : DeferredSession), s.Serves N d →
      wp (continueLoop modules tracees n policy) (stoppedAfter N d) s := by
  intro n
  induction n with
  | zero => exact fun policy s h => trivial
  | succ n ih =>
    intro policy s h
    simp only [continueLoop, debugger, DeferredBreakpoints.get, wp_bind, wp_zoom, wp_read, wp_ite,
      wp_pure]
    refine wp_mono (wp_and (reported_continueExecution htame h.1.good)
      (told_continueExecution htame h.1.good)) ?_ (fun _ _ _ => trivial) fun _ _ _ => trivial
    rintro stop u ⟨hreported, htold⟩
    dsimp only
    split
    · have htenant := h.told hreported.good htold
      refine wp_mono (monitors_suspendMonitoring ⟨htenant, ⟨rfl, rfl⟩, rfl, rfl⟩) (fun _ t ht => ?_)
        (fun _ _ ht => ht.elim) fun _ _ _ => trivial
      have hpid : t.session.dbg.process.pid = u.dbg.process.pid := ht.processes.1
      show t.Tenant (N.after d stop t.session.dbg.process.pid)
      rw [hpid]
      exact ht.tenant
    · rename_i hinternal
      have hreason : stop.reason = .breakpoint := by
        simp only [isInternalStop, Bool.not_eq_true, Bool.not_eq_false', Bool.and_eq_true,
          decide_eq_true_eq] at hinternal
        exact hinternal.1
      have hserves := h.plain hreported.good (htold.plain (.inl hreason))
      exact wp_mono (serves_handleInternalStop hserves hhome stop) (fun _ t ht => ih .suppress t ht)
        (fun _ _ _ => trivial) fun _ _ _ => trivial

theorem tenant_continueExecution (htame : Tame false tracees) (h : s.Tenant N)
    (hhome : s.session.dbg.process.pid = N.home) (policy : SignalPolicy) :
    wp (DeferredBreakpoints.continueExecution modules tracees policy)
      (stoppedAfter N s.session.dbg) s := by
  have hserves : s.Serves N s.session.dbg := ⟨h, rfl, rfl⟩
  simp only [DeferredBreakpoints.continueExecution, wp_bind, wp_read]
  exact wp_mono (monitors_ensureMonitoring s hserves.monitors)
    (fun _ t ht => tenant_continueLoop htame hhome _ policy t ht.serves) (fun _ _ _ => trivial)
    fun _ _ _ => trivial

end Changes

end MiniDebugger
