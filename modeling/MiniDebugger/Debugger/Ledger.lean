import MiniDebugger.Debugger.Runs
import MiniDebugger.Debugger.Turns

/-!
# The ledger of a session

The tables of all processes with the two id counters. Every operation, in whatever session it starts
and however it ends, takes the ledger forward by the changes listed in `Ledger.Change`; what these
keep holds at every moment of every run.
-/

namespace MiniDebugger

open Command
open Function (update update_self update_of_ne)
open Relation (ReflTransGen)
open Std (ExtTreeMap)

structure Ledger where
  holdings : Holdings
  nextBreakpoint : Nat
  nextWatchpoint : Nat

def Debugger.ledger (d : Debugger) : Ledger where
  holdings := d.holdings
  nextBreakpoint := d.nextBreakpointId
  nextWatchpoint := d.nextWatchpointId

namespace Holding

def insert (h : Holding) (id : Nat) (address : Addr) (original : Byte) : Holding :=
  { h with
    table := h.table.insert address ⟨id, address, original, true⟩
    ids := h.ids.insert id address }

def erase (h : Holding) (id : Nat) (address : Addr) : Holding :=
  { h with table := h.table.erase address, ids := h.ids.erase id }

def arm (h : Holding) (watchpoint : Watchpoint) (snapshot : DebugRegisterSnapshot) : Holding :=
  { h with watchpoint := some watchpoint, snapshot := some snapshot }

end Holding

/-- What `add_write_watchpoint` accepts: a natural length and alignment, and a free slot 0 in the
registers that are saved. -/
structure Watchpoint.Armable (w : Watchpoint) (snapshot : DebugRegisterSnapshot) : Prop where
  length : (watchpointLengthEncoding w.length).isSome = true
  aligned : w.address.toNat % w.length = 0
  free : snapshot.dr7 &&& dr7Slot0EnableMask = 0

namespace Ledger

/-- What can become of the tables and the counters in one step. -/
inductive Change : Ledger → Ledger → Prop
  | turned (L : Ledger) (H : Holdings) (hturn : Holdings.Turn L.holdings H) :
      Change L { L with holdings := H }
  | inserted (L : Ledger) (address : Addr) (original : Byte)
      (hnew : L.holdings.active.table[address]? = none) :
      Change L { L with
        holdings := { L.holdings with
          active := L.holdings.active.insert L.nextBreakpoint address original }
        nextBreakpoint := L.nextBreakpoint + 1 }
  | erased (L : Ledger) (id : Nat) (address : Addr)
      (hid : L.holdings.active.ids[id]? = some address) :
      Change L { L with holdings := { L.holdings with
        active := L.holdings.active.erase id address } }
  | rewritten (L : Ledger) (table : ExtTreeMap Addr Breakpoint)
      (hsame : SameBreakpoints L.holdings.active.table table) :
      Change L { L with holdings := { L.holdings with
        active := { L.holdings.active with table } } }
  | armed (L : Ledger) (address : Addr) (length : Nat) (snapshot : DebugRegisterSnapshot)
      (hnone : L.holdings.active.watchpoint = none)
      (harmable : Watchpoint.Armable ⟨L.nextWatchpoint, address, length⟩ snapshot) :
      Change L { L with
        holdings := { L.holdings with
          active := L.holdings.active.arm ⟨L.nextWatchpoint, address, length⟩ snapshot }
        nextWatchpoint := L.nextWatchpoint + 1 }
  | swapped (L : Ledger) (old new : Pid) (h : Holding) (hh : L.holdings.retained new = some h) :
      Change L { L with holdings :=
        ⟨h, update (update L.holdings.retained new none) old (some L.holdings.active)⟩ }

end Ledger

open Ledger

/-- The ledger has gone from `L` to that of the session by changes. -/
def Session.Changed (L : Ledger) (s : Session) : Prop := ReflTransGen Change L s.dbg.ledger

/-- However a command ends, the ledger went by changes. -/
def changing (L : Ledger) {α : Type} : Post WaitCall Exception Session α where
  returned _ t := t.Changed L
  raised _ t := t.Changed L
  blocked _ _ := True

section Rules

variable {L : Ledger} {d : Debugger} {tracees : Tracees} {s t : Session}

theorem Session.Changed.same (h : s.Changed L) (hledger : t.dbg.ledger = s.dbg.ledger) :
    t.Changed L := by
  unfold Session.Changed
  rw [hledger]
  exact h

theorem Session.Changed.of_dbg (h : s.Changed L) (hdbg : t.dbg = s.dbg) : t.Changed L :=
  h.same (hdbg ▸ rfl)

theorem Session.Changed.alike (h : s.Changed L) (ht : s.Alike t) : t.Changed L := by
  obtain ⟨_, _, _, rfl⟩ := ht
  exact h.of_dbg rfl

theorem Session.Changed.change (h : s.Changed L) (hchange : Change s.dbg.ledger t.dbg.ledger) :
    t.Changed L := ReflTransGen.tail h hchange

theorem Session.Changed.turn (h : s.Changed L) (hturn : Holdings.Turn s.dbg.holdings t.dbg.holdings)
    (hbreakpoint : t.dbg.nextBreakpointId = s.dbg.nextBreakpointId)
    (hwatchpoint : t.dbg.nextWatchpointId = s.dbg.nextWatchpointId) : t.Changed L := by
  refine h.change ?_
  have heq : t.dbg.ledger = { s.dbg.ledger with holdings := t.dbg.holdings } := by
    simp [Debugger.ledger, hbreakpoint, hwatchpoint]
  exact heq ▸ .turned _ _ hturn

/-- Turns are changes. -/
theorem Session.Turned.changed (h : t.Turned s.dbg) (hs : s.Changed L) : t.Changed L := by
  have heq : t.dbg.ledger = { s.dbg.ledger with holdings := t.dbg.holdings } := by
    simp [Debugger.ledger, h.nextBreakpoint, h.nextWatchpoint]
  have hturns : ∀ H, ReflTransGen Holdings.Turn s.dbg.holdings H →
      ReflTransGen Change L { s.dbg.ledger with holdings := H } := by
    intro H hH
    induction hH with
    | refl => exact hs
    | tail _ hturn ih => exact ih.tail (.turned _ _ hturn)
  unfold Session.Changed
  rw [heq]
  exact hturns _ h.turns

theorem changing_of_turning {α : Type} {x : Act α} (hs : s.Changed L)
    (h : wp x (turning s.dbg) s) : wp x (changing L) s :=
  wp_mono h (fun _ _ ht => ht.changed hs) (fun _ _ ht => ht.changed hs) (fun _ _ _ => trivial)

/-! ## Breakpoints and memory -/

theorem changing_addBreakpoint {address : Addr} (h : s.Changed L) :
    wp (addBreakpoint address) (changing L) s := by
  refine wp_addBreakpoint ?_ (fun faults e => h.of_dbg rfl)
  intro faults original _ _ _ hnew _ _
  exact h.change (.inserted s.dbg.ledger address original (by
    simpa [Debugger.ledger, Debugger.holdings, Debugger.holding] using hnew))

theorem ledger_clearPendingStep (d : Debugger) (address : Addr) :
    (d.clearPendingStep address).ledger = d.ledger := by
  unfold Debugger.clearPendingStep
  split <;> rfl

theorem changing_removeBreakpoint {id : Nat} (h : s.Changed L) :
    wp (removeBreakpoint id) (changing L) s := by
  have erased : ∀ (u : Session) (address : Addr), s.dbg.breakpointIds[id]? = some address →
      u.dbg = (s.dbg.clearPendingStep address).eraseBreakpoint id address → u.Changed L := by
    intro u address hid hu
    have hstep : ({ s with dbg := s.dbg.clearPendingStep address } : Session).Changed L :=
      h.same (ledger_clearPendingStep s.dbg address)
    refine hstep.change ?_
    rw [hu]
    refine .erased (s.dbg.clearPendingStep address).ledger id address ?_
    rw [ledger_clearPendingStep]
    exact hid
  refine wp_removeBreakpoint (fun _ => h) ?_ ?_ (fun faults e => h.of_dbg rfl)
  · exact fun address bp faults hid _ _ _ _ => erased _ address hid rfl
  · exact fun address hid _ => erased _ address hid rfl

theorem changing_writeMemory {address : Addr} {bytes : List Byte} (h : s.Changed L) :
    wp (writeMemory address bytes) (changing L) s :=
  wp_writeMemory
    (fun _ _ table _ _ _ hsame => h.change (.rewritten s.dbg.ledger table hsame))
    fun _ _ _ _ _ _ => h.of_dbg rfl

/-! ## The watchpoint -/

/-- A watchpoint that has been set was armable, and there was none before. -/
theorem wp_addWriteWatchpoint_armable {address : Addr} {length : Nat}
    {Q : Post WaitCall Exception Session Nat}
    (added : ∀ t snapshot, s.Alike t → s.dbg.watchpoint = none →
      Watchpoint.Armable ⟨s.dbg.nextWatchpointId, address, length⟩ snapshot →
      Q.returned s.dbg.nextWatchpointId { t with
        dbg := s.dbg.setWatchpoint ⟨s.dbg.nextWatchpointId, address, length⟩ snapshot })
    (raised : ∀ t e, s.Alike t → Q.raised e t) :
    wp (addWriteWatchpoint address length) Q s := by
  simp only [addWriteWatchpoint, wp_bind]
  refine wp_stoppedTid (fun _ _ htask => ?_) (fun what _ => raised s _ (refl_of _ s))
  simp only [wp_view, wp_ite]
  split
  · exact raised s _ (refl_of _ s)
  rename_i hnone
  rcases hlength : watchpointLengthEncoding length with _ | lengthEncoding
  · exact raised s _ (refl_of _ s)
  simp only [wp_bind, wp_ite, wp_raise]
  split
  · exact raised s _ (refl_of _ s)
  rename_i haligned
  refine (Lowlevel.quiet_getDebugRegister _ 0).wp (fun dr0 t₀ h₀ => ?_)
    (fun e t h _ => raised t e h)
  refine (Lowlevel.quiet_getDebugRegister _ 6).wp (fun dr6 t₁ h₁ => ?_)
    (fun e t h _ => raised t e (trans_of _ h₀ h))
  have h₁ := trans_of _ h₀ h₁
  refine (Lowlevel.quiet_getDebugRegister _ 7).wp (fun dr7 t₂ h₂ => ?_)
    (fun e t h _ => raised t e (trans_of _ h₁ h))
  have h₂ := trans_of _ h₁ h₂
  dsimp only
  split
  · exact raised t₂ _ h₂
  rename_i hfree
  rw [wp_handle]
  refine (quiet_writeDebugSlot _ _ _ _ _).wp (fun _ t₃ h₃ => ?_) (fun e t₃ h₃ _ => ?_)
  · obtain ⟨_, _, _, rfl⟩ := trans_of _ h₂ h₃
    exact added _ ⟨_, dr0, dr6, dr7⟩ ⟨_, _, _, rfl⟩ (by simpa using hnone)
      ⟨Option.isSome_of_eq_some hlength, not_not.mp haligned, not_not.mp hfree⟩
  · have h₃ := trans_of _ h₂ h₃
    simp only [wp_bind, wp_handle]
    exact (quiet_writeDebugSlot _ _ _ _ _).wp
      (fun _ t h => raised t _ (trans_of _ h₃ h)) (fun _ t h _ => raised t _ (trans_of _ h₃ h))

theorem changing_addWriteWatchpoint {address : Addr} {length : Nat} (h : s.Changed L) :
    wp (addWriteWatchpoint address length) (changing L) s := by
  refine wp_addWriteWatchpoint_armable ?_ (fun t e ht => h.alike ht)
  exact fun t snapshot _ hnone harmable =>
    h.change (.armed s.dbg.ledger address length snapshot hnone harmable)

theorem changing_removeWatchpoint {id : Nat} (h : s.Changed L) :
    wp (removeWatchpoint id) (changing L) s :=
  wp_removeWatchpoint h (fun _ _ => h.turn (.unwatched s.dbg.holdings) rfl rfl)
    fun _ _ ht => h.alike ht

/-! ## Selecting and detaching -/

theorem changing_selectProcess {pid : Pid} (h : s.Changed L) :
    wp (selectProcess pid) (changing L) s := by
  refine wp_selectProcess (fun _ => h) ?_ ?_ (fun _ => h)
  · intro domain hdomain _ _ _
    have hswapped := Change.swapped s.dbg.ledger s.dbg.process.pid pid domain.holding
      (by simp [Debugger.ledger, Debugger.holdings, retainedHoldings, hdomain])
    refine h.change ?_
    have heq : (s.dbg.swapped pid domain).holdings =
        ⟨domain.holding, update (update s.dbg.holdings.retained pid none) s.dbg.process.pid
          (some s.dbg.holding)⟩ := by
      rw [Debugger.holdings, Debugger.swapped, retainedHoldings_insert, retainedHoldings_erase]
      rfl
    have hledger : Debugger.ledger { s.dbg.swapped pid domain with
        stopInfo := { domain.stopInfo with sequence := s.sequence + 1 } } =
          { s.dbg.ledger with holdings := (s.dbg.swapped pid domain).holdings } := rfl
    exact (hledger.trans (by rw [heq])) ▸ hswapped
  · exact fun domain e hdomain _ => h.turn (turn_activate hdomain rfl rfl) rfl rfl

theorem turned_restoreAllBreakpoints : Preserves (Session.Turned d) restoreAllBreakpoints := by
  refine Preserves.bind (fun s h => wp_stoppedTid (fun _ _ _ => h) fun _ _ => h) fun tid => ?_
  refine Preserves.bind (Preserves.read _) fun table => ?_
  refine Preserves.bind (Preserves.forEach (fun entry => ?_) _) fun _ =>
    Preserves.update fun s h => h.same rfl rfl rfl rfl
  intro s h
  simp only [restoreBreakpoint, wp_ite, wp_bind, wp_pure]
  split
  · refine Lowlevel.wp_writeByte (fun faults _ => ?_) (fun faults e _ => h.of_dbg rfl)
    exact h.turn (turn_setInstalled s.dbg entry.1 false) rfl rfl rfl
  · exact h

theorem turned_detachTasks (signalTid : Pid) (signal : Nat) : ∀ tids first,
    Preserves (Session.Turned d) (detachTasks signalTid signal tids first)
  | [], _ => Preserves.pure _
  | tid :: tids, first => by
    refine Preserves.bind ?_ fun first => turned_detachTasks signalTid signal tids first
    intro s h
    simp only [detachTask, wp_handle, wp_bind]
    refine Lowlevel.wp_detach (fun faults => h.same rfl rfl rfl rfl) (fun faults e _ => ?_)
    cases e with
    | ptraceError operation errno =>
      simp only [wp_ite, wp_bind, wp_pure]
      split <;> exact h.same rfl rfl rfl rfl
    | _ => exact h.of_dbg rfl

theorem turned_detachProcess (signal : Nat) :
    Preserves (Session.Turned d) (detachProcess signal) := by
  refine Preserves.bind (Preserves.read _) fun process => ?_
  refine Preserves.check (Preserves.check (Preserves.check ?_))
  refine Preserves.bind (turned_detachTasks _ _ _ _) fun first => ?_
  refine Preserves.bind (Preserves.update fun s h => h.same rfl rfl rfl rfl) fun _ => ?_
  cases first with
  | none => exact Preserves.pure ()
  | some e => exact Preserves.raise e

theorem turned_detach (policy : SignalPolicy) : Preserves (Session.Turned d) (detach policy) := by
  refine Preserves.bind (Preserves.read _) fun d => ?_
  refine Preserves.check (Preserves.check (Preserves.check ?_))
  refine Preserves.bind (fun s h => wp_stoppedTid (fun _ _ _ => h) fun _ _ => h) fun tid => ?_
  refine Preserves.bind (Preserves.read _) fun signal => ?_
  refine Preserves.bind turned_restoreAllBreakpoints fun _ => ?_
  refine Preserves.bind (fun s h => wp_restoreWatchpointRegisters (fun t ht => h.alike ht)
    (fun t e ht _ => h.alike ht) fun _ _ _ _ => h) fun _ => ?_
  refine Preserves.bind (turned_detachProcess signal) fun _ => Preserves.update fun s h => ?_
  exact h.turn (.replaced s.dbg.holdings) rfl rfl rfl

theorem turning_detach (policy : SignalPolicy) : wp (detach policy) (turning s.dbg) s :=
  wp_mono (turned_detach policy s s.turned) (fun _ _ h => h) (fun _ _ h => h)
    (fun _ _ _ => trivial)

/-! ## Runs -/

theorem changing_run (op : Operation) (h : s.Changed L) : wp (op.run tracees) (changing L) s := by
  cases op with
  | addBreakpoint address => exact (wp_map _ _ _ _).mpr (changing_addBreakpoint h)
  | removeBreakpoint id => exact (wp_map _ _ _ _).mpr (changing_removeBreakpoint h)
  | addWriteWatchpoint address length =>
    exact (wp_map _ _ _ _).mpr (changing_addWriteWatchpoint h)
  | removeWatchpoint id => exact (wp_map _ _ _ _).mpr (changing_removeWatchpoint h)
  | writeMemory address bytes => exact (wp_map _ _ _ _).mpr (changing_writeMemory h)
  | continueExecution policy =>
    exact (wp_map _ _ _ _).mpr (changing_of_turning h (turning_continueExecution s.turned))
  | singleStep policy =>
    exact (wp_map _ _ _ _).mpr (changing_of_turning h (turning_singleStep s.turned))
  | selectThread tid =>
    exact (wp_map _ _ _ _).mpr (wp_selectThread (fun _ => h.same rfl) fun _ => h)
  | selectProcess pid => exact (wp_map _ _ _ _).mpr (changing_selectProcess h)
  | setForkFollowPolicy policy =>
    exact (wp_map _ _ _ _).mpr (wp_setForkFollowPolicy (fun _ => h.same rfl) fun _ => h)
  | detach policy => exact (wp_map _ _ _ _).mpr (changing_of_turning h (turning_detach policy))

end Rules

/-- The ledger a session starts with. -/
def Ledger.blank : Ledger := ⟨⟨{}, fun _ => none⟩, 1, 1⟩

theorem Started.changed {s : Session} (h : Started s) : s.Changed .blank := by
  have heq : s.dbg.ledger = .blank := by
    cases h with
    | launch pid path _ _ hdbg =>
      simp [hdbg, launched, Debugger.ledger, Debugger.holdings, Debugger.holding, Ledger.blank]
    | attach pid tids path _ _ _ hdbg =>
      simp [hdbg, attached, Debugger.ledger, Debugger.holdings, Debugger.holding, Ledger.blank]
  unfold Session.Changed
  rw [heq]

theorem Run.changed {tracees : Tracees} {allowed : Operation → Reply → Prop} {log : List Result}
    {s : Session} (h : Run tracees allowed log s) : s.Changed .blank :=
  h.invariant (I := fun _ => Session.Changed .blank) (fun _ hs => hs.changed)
    fun _ _ op _ _ hs => wp_mono (changing_run op (hs.of_dbg rfl)) (fun _ _ ht _ => ht)
      (fun _ _ ht _ => ht) fun _ _ _ => trivial

end MiniDebugger
