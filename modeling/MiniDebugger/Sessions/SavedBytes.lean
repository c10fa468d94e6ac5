import MiniDebugger.Debugger.Entries
import MiniDebugger.Memory.Writes
import MiniDebugger.Sessions.Operations

/-!
# Saved bytes

The byte a table keeps for a breakpoint is the one that was found in the tracee when the breakpoint
was added, until `write_memory` puts another one there. Nothing else changes it.
-/

namespace MiniDebugger

open Command
open Function (update update_of_ne)
open Relation (ReflTransGen)
open Std (ExtTreeMap)
open Lowlevel (memoryOf)

namespace Holding

/-- The table keeps this byte for the breakpoint with this id at this address. -/
def Saves (h : Holding) (address : Addr) (id : Nat) (byte : Byte) : Prop :=
  ∃ bp, h.table[address]? = some bp ∧ bp.id = id ∧ bp.originalByte = byte

variable {h : Holding} {address a : Addr} {installed : Bool} {id i : Nat} {byte : Byte}

theorem not_saves_empty : ¬Saves {} a i byte := by simp [Saves]

theorem Saves.has (hsaves : h.Saves a i byte) : h.Has a i := by
  obtain ⟨bp, hbp, hid, -⟩ := hsaves
  exact ⟨bp, hbp, hid⟩

theorem saves_of_mark (hsaves : (h.mark address installed).Saves a i byte) :
    h.Saves a i byte := by
  obtain ⟨bp, hbp, hid, hbyte⟩ := hsaves
  simp only [mark, ExtTreeMap.getElem?_modify] at hbp
  split at hbp
  · obtain ⟨old, hold, rfl⟩ := Option.map_eq_some_iff.mp hbp
    rename_i heq
    obtain rfl := Std.compare_eq_iff_eq.mp heq
    exact ⟨old, hold, hid, hbyte⟩
  · exact ⟨bp, hbp, hid, hbyte⟩

theorem not_saves_inherited {child : Pid} : ¬(h.inherited child).Saves a i byte :=
  fun hsaves => has_inherited hsaves.has

end Holding

namespace Holdings

variable {H K : Holdings} {a : Addr} {i : Nat} {byte : Byte}

/-- The table of some process keeps this byte. -/
def Saves (H : Holdings) (address : Addr) (id : Nat) (byte : Byte) : Prop :=
  H.active.Saves address id byte ∨ ∃ pid h, H.retained pid = some h ∧ h.Saves address id byte

/-- Turns save no byte. -/
theorem Turn.saves (hturn : Turn H K) (h : K.Saves a i byte) : H.Saves a i byte := by
  cases hturn with
  | marked address installed => exact h.imp_left Holding.saves_of_mark
  | unwatched => exact h
  | replaced => exact .inr (h.resolve_left Holding.not_saves_empty)
  | promoted survivor domain hdomain =>
    obtain h | ⟨pid, other, hother, h⟩ := h
    · exact .inr ⟨survivor, domain, hdomain, h⟩
    · exact .inr ⟨pid, other, (of_update_none hother).2, h⟩
  | forked child hnew =>
    obtain h | ⟨pid, other, hother, h⟩ := h
    · exact .inl h
    · obtain ⟨-, rfl⟩ | ⟨-, hother⟩ := of_update_some hother
      · exact (Holding.not_saves_inherited h).elim
      · exact .inr ⟨pid, other, hother, h⟩
  | handed child => exact h

theorem saves_of_turns (hturns : ReflTransGen Turn H K) (h : K.Saves a i byte) :
    H.Saves a i byte := by
  induction hturns with
  | refl => exact h
  | tail _ hturn ih => exact ih (hturn.saves h)

end Holdings

/-- The tables of the debugger keep this byte for the breakpoint with this id at this address. -/
def Session.Saves (s : Session) (address : Addr) (id : Nat) (byte : Byte) : Prop :=
  s.dbg.holdings.Saves address id byte

/-- What the tables keep for a breakpoint once `op` has returned: the byte found there, if `op` has
added it, the byte written there, or the one kept before. -/
inductive Session.SavedBy (s : Session) (op : Operation) (address : Addr) (id : Nat)
    (byte : Byte) : Prop
  | found (hop : op = .addBreakpoint address) (hid : id = s.dbg.nextBreakpointId)
      (hbyte : s.world.memory s.dbg.process.pid address = some byte)
  | written (start : Addr) (bytes : List Byte) (hop : op = .writeMemory start bytes)
      (hhas : s.dbg.holding.Has address id)
      (hbyte : bytes[(address - start).toNat]? = some byte)
  | kept (hsaves : s.Saves address id byte)
      (houtside : ∀ start bytes, op = .writeMemory start bytes → s.dbg.holding.Has address id →
        bytes.length ≤ (address - start).toNat)

/-- What an operation does to the saved bytes. -/
def saving (s : Session) (op : Operation) {α : Type} : Post WaitCall Exception Session α where
  returned _ t := ∀ address id byte, t.Saves address id byte → s.SavedBy op address id byte
  raised _ t := ∀ address id byte, t.Saves address id byte → s.Saves address id byte
  blocked _ _ := True

section Operations

variable {b : Bool} {issued : List Nat} {tracees : Tracees} {s : Session} {op : Operation}
  {α : Type}

/-- An operation that keeps all saved bytes. -/
theorem saving_of_kept {x : Act α} (hop : ∀ start bytes, op ≠ .writeMemory start bytes)
    (h : wp x ⟨fun _ t => ∀ a i byte, t.Saves a i byte → s.Saves a i byte,
      fun _ t => ∀ a i byte, t.Saves a i byte → s.Saves a i byte, fun _ _ => True⟩ s) :
    wp x (saving s op) s :=
  wp_mono h
    (fun _ _ ht a i byte hsaves => .kept (ht a i byte hsaves) fun start bytes heq =>
      absurd heq (hop start bytes))
    (fun _ _ ht => ht) (fun _ _ _ => trivial)

theorem saving_of_turning {x : Act α} (hop : ∀ start bytes, op ≠ .writeMemory start bytes)
    (h : wp x (turning s.dbg) s) : wp x (saving s op) s :=
  saving_of_kept hop (wp_mono h (fun _ _ ht _ _ _ => Holdings.saves_of_turns ht.turns)
    (fun _ _ ht _ _ _ => Holdings.saves_of_turns ht.turns) (fun _ _ _ => trivial))

theorem saving_addBreakpoint (h : s.core.Good b issued) {address : Addr} :
    wp (addBreakpoint address) (saving s (.addBreakpoint address)) s := by
  refine wp_addBreakpoint ?_ (fun faults e _ _ _ hsaves => hsaves)
  intro faults original _ _ htask hnew _ horiginal a i byte hsaves
  rw [Session.space_of_tracked h.tables (mem_of_stopped htask)] at horiginal
  obtain ⟨bp, hbp, hid, hbyte⟩ | hretained := hsaves
  · have hinserted : (s.dbg.breakpointsByAddress.insert address _)[a]? = some bp := hbp
    rw [ExtTreeMap.getElem?_insert] at hinserted
    split at hinserted
    · rename_i heq
      obtain rfl := Std.compare_eq_iff_eq.mp heq
      obtain rfl := Option.some.inj hinserted
      exact .found rfl hid.symm (horiginal.trans (congrArg some hbyte))
    · exact .kept (.inl ⟨bp, hinserted, hid, hbyte⟩) (by rintro _ _ ⟨⟩)
  · exact .kept (.inr hretained) (by rintro _ _ ⟨⟩)

theorem saving_removeBreakpoint {id : Nat} :
    wp (removeBreakpoint id) (saving s (.removeBreakpoint id)) s := by
  have erased : ∀ (u : Session) (address : Addr),
      u.dbg = (s.dbg.clearPendingStep address).eraseBreakpoint id address →
      ∀ a i byte, u.Saves a i byte → s.Saves a i byte := by
    intro u address hu a i byte hsaves
    unfold Session.Saves at hsaves
    rw [hu] at hsaves
    have hledger := congrArg Ledger.holdings (ledger_clearPendingStep s.dbg address)
    obtain ⟨bp, hbp, hid, hbyte⟩ | hretained := hsaves
    · have herased : ((s.dbg.clearPendingStep address).breakpointsByAddress.erase address)[a]? =
        some bp := hbp
      rw [ExtTreeMap.getElem?_erase] at herased
      split at herased
      · cases herased
      · have hactive : ((s.dbg.clearPendingStep address).ledger.holdings).active.Saves a i byte :=
          ⟨bp, herased, hid, hbyte⟩
        rw [hledger] at hactive
        exact .inl hactive
    · have hretained : ∃ pid h, ((s.dbg.clearPendingStep address).ledger.holdings).retained pid =
          some h ∧ h.Saves a i byte := hretained
      rw [hledger] at hretained
      exact .inr hretained
  refine saving_of_kept (by rintro _ _ ⟨⟩) (wp_removeBreakpoint (fun _ _ _ _ h => h) ?_ ?_ ?_)
  · exact fun address bp faults _ _ _ _ _ => erased _ address rfl
  · exact fun address _ _ => erased _ address rfl
  · exact fun faults e _ _ _ h => h

theorem saving_selectProcess {pid : Pid} :
    wp (selectProcess pid) (saving s (.selectProcess pid)) s := by
  refine saving_of_kept (by rintro _ _ ⟨⟩)
    (wp_selectProcess (fun _ _ _ _ h => h) ?_ ?_ (fun _ _ _ _ h => h))
  · intro domain hdomain _ _ _ a i byte hsaves
    have hheld : s.dbg.holdings.retained pid = some domain.holding := by
      simp [Debugger.holdings, retainedHoldings, hdomain]
    obtain hsaves | ⟨other, h, hh, hsaves⟩ := hsaves
    · exact .inr ⟨pid, _, hheld, hsaves⟩
    · have hh : retainedHoldings ((s.dbg.retainedProcesses.erase pid).insert s.dbg.process.pid
        s.dbg.parked) other = some h := hh
      rw [retainedHoldings_insert, retainedHoldings_erase] at hh
      obtain ⟨-, rfl⟩ | ⟨-, hh⟩ := Holdings.of_update_some hh
      · exact .inl hsaves
      · exact .inr ⟨other, h, (Holdings.of_update_none hh).2, hsaves⟩
  · exact fun domain e hdomain _ a i byte hsaves =>
      (turn_activate hdomain rfl rfl : Holdings.Turn s.dbg.holdings _).saves hsaves

/-- A write that is not accepted is refused before anything is done. -/
theorem wp_writeMemory_refused {address : Addr} {bytes : List Byte}
    (h : ¬s.AcceptsWrite address bytes) :
    wp (writeMemory address bytes) ⟨fun _ _ => False, fun _ t => t = s, fun _ _ => False⟩ s := by
  simp only [writeMemory, wp_bind]
  refine wp_stoppedTid (fun hstate hpos htask => ?_) (fun _ _ => rfl)
  simp only [wp_ite, wp_bind, wp_raise, wp_view, id]
  split
  · trivial
  split
  · trivial
  split
  · trivial
  split
  · trivial
  split
  · trivial
  rename_i hempty hbound hinside hapart harmed
  refine absurd ⟨⟨hstate, hpos, htask⟩, ?_, not_lt.mp hbound, not_lt.mp hinside, ?_, ?_⟩ h
  · simpa using hempty
  · exact Bool.eq_false_iff.mpr hapart
  · exact Bool.eq_false_iff.mpr harmed

/-- After an accepted write the saved bytes in its range are those that were written. -/
theorem Session.Overwritten.saved {t : Session} {address : Addr} {bytes : List Byte}
    (h : s.Overwritten t address bytes) (haccepts : s.AcceptsWrite address bytes) {a : Addr}
    {bp : Breakpoint} (hbp : t.dbg.breakpointsByAddress[a]? = some bp) :
    ∃ old, s.dbg.breakpointsByAddress[a]? = some old ∧ bp.id = old.id ∧
      some bp.originalByte = if (a - address).toNat < bytes.length then
        bytes[(a - address).toNat]? else some old.originalByte := by
  rcases hold : s.dbg.breakpointsByAddress[a]? with _ | old
  · cases (h.entries.1 a hold).symm.trans hbp
  obtain ⟨byte, hnew, hlifted⟩ := h.entries.2 a old hold
  obtain rfl := Option.some.inj (hnew.symm.trans hbp)
  refine ⟨old, rfl, rfl, ?_⟩
  rcases hin : old.installed with _ | _
  · have hrange : ¬(a - address).toNat < bytes.length := fun hrange => by
      have := haccepts.installed hrange
      simp [hasEntry, hold, hin] at this
    rw [if_neg hrange, hlifted hin]
  · have hprogram := congrFun h.program a
    simpa [Session.programMemory, Overlay.logical, Overlay.seen, overlaid, patches, hbp, hold, hin]
      using hprogram

theorem saving_writeMemory (hgood : s.core.Good b issued) {address : Addr} {bytes : List Byte} :
    wp (writeMemory address bytes) (saving s (.writeMemory address bytes)) s := by
  by_cases haccepts : s.AcceptsWrite address bytes
  swap
  · refine wp_mono (wp_writeMemory_refused haccepts) (fun _ _ h => h.elim) ?_ (fun _ _ h => h.elim)
    rintro e _ rfl a i byte hsaves
    exact hsaves
  have htables : wp (writeMemory address bytes)
      ⟨fun _ t => t.dbg.holdings.retained = s.dbg.holdings.retained, fun _ t => t.dbg = s.dbg,
        fun _ _ => True⟩ s :=
    wp_writeMemory (fun _ _ _ _ _ _ _ => rfl) fun _ _ _ _ _ _ => rfl
  refine wp_mono (wp_and (wp_writeMemory_exact haccepts) htables) ?_ ?_ (fun _ _ _ => trivial)
  · rintro _ t ⟨⟨hwritten, -⟩, hretained⟩ a i byte hsaves
    obtain ⟨bp, hbp, rfl, rfl⟩ | hsaves := hsaves
    · obtain ⟨old, hold, hid, hbyte⟩ := hwritten.saved haccepts hbp
      have hhas : s.dbg.holding.Has a bp.id := ⟨old, hold, hid.symm⟩
      split at hbyte
      · exact .written address bytes rfl hhas hbyte.symm
      · rename_i hrange
        refine .kept (.inl ⟨old, hold, hid.symm, (Option.some.inj hbyte).symm⟩) ?_
        rintro _ _ ⟨⟩ -
        exact not_lt.mp hrange
    · rw [hretained] at hsaves
      refine .kept (.inr hsaves) fun _ _ _ hhas => ?_
      -- an id is in one table only
      obtain ⟨pid, h, hh, ⟨bp, hbp, hid, -⟩⟩ := hsaves
      obtain ⟨domain, hdomain, rfl⟩ := Option.map_eq_some_iff.mp hh
      obtain ⟨old, hold, hid'⟩ := hhas
      have hmine := (hgood.tables.sound.forward a old hold).2
      have hother := ((hgood.tables.kept pid domain hdomain).sound.forward a bp hbp).2
      have := hgood.tables.apart pid domain bp.id a hdomain hother
      rw [hid, ← hid'] at this
      cases this.symm.trans hmine
  · rintro e t ⟨-, hdbg⟩ a i byte hsaves
    unfold Session.Saves at hsaves
    rwa [hdbg] at hsaves

/-- Every operation keeps the saved bytes but those it finds or writes. -/
theorem saving_run (h : s.core.Good b issued) (op : Operation) :
    wp (op.run tracees) (saving s op) s := by
  cases op with
  | addBreakpoint address => exact (wp_map _ _ _ _).mpr (saving_addBreakpoint h)
  | removeBreakpoint id => exact (wp_map _ _ _ _).mpr saving_removeBreakpoint
  | addWriteWatchpoint address length =>
    refine (wp_map _ _ _ _).mpr (saving_of_kept (by rintro _ _ ⟨⟩) (wp_addWriteWatchpoint ?_ ?_))
    · rintro t snapshot ⟨_, _, _, rfl⟩ _ _ a i byte hsaves
      exact hsaves
    · rintro t e ⟨_, _, _, rfl⟩ a i byte hsaves
      exact hsaves
  | removeWatchpoint id =>
    refine (wp_map _ _ _ _).mpr (saving_of_kept (by rintro _ _ ⟨⟩)
      (wp_removeWatchpoint (fun _ _ _ h => h) ?_ ?_))
    · rintro t ⟨_, _, _, rfl⟩ a i byte hsaves
      exact hsaves
    · rintro t e ⟨_, _, _, rfl⟩ a i byte hsaves
      exact hsaves
  | writeMemory address bytes => exact (wp_map _ _ _ _).mpr (saving_writeMemory h)
  | continueExecution policy =>
    exact (wp_map _ _ _ _).mpr
      (saving_of_turning (by rintro _ _ ⟨⟩) (turning_continueExecution s.turned))
  | singleStep policy =>
    exact (wp_map _ _ _ _).mpr (saving_of_turning (by rintro _ _ ⟨⟩) (turning_singleStep s.turned))
  | selectThread tid =>
    exact (wp_map _ _ _ _).mpr (saving_of_kept (by rintro _ _ ⟨⟩)
      (wp_selectThread (fun _ _ _ _ h => h) fun _ _ _ _ h => h))
  | selectProcess pid => exact (wp_map _ _ _ _).mpr saving_selectProcess
  | setForkFollowPolicy policy =>
    exact (wp_map _ _ _ _).mpr (saving_of_kept (by rintro _ _ ⟨⟩)
      (wp_setForkFollowPolicy (fun _ _ _ _ h => h) fun _ _ _ _ h => h))
  | detach policy =>
    exact (wp_map _ _ _ _).mpr (saving_of_turning (by rintro _ _ ⟨⟩) (turning_detach policy))

end Operations

end MiniDebugger
