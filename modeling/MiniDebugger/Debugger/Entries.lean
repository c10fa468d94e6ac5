import MiniDebugger.Debugger.Ledger

/-!
# Entries of the breakpoint tables

An entry is an address with the id of the breakpoint there. The two maps of a table list the same
entries, below the id counter, at every moment of every run. Turns add no entry, and as long as one
entry of the active table is left, they have left all tables alone.
-/

namespace MiniDebugger

open Command
open Function (update update_self update_of_ne)
open Relation (ReflTransGen)
open Std (ExtTreeMap)

namespace Holding

/-- There is a breakpoint with this id at this address. -/
def Has (h : Holding) (address : Addr) (id : Nat) : Prop :=
  ∃ bp, h.table[address]? = some bp ∧ bp.id = id

/-- The two maps list the same entries, and their ids have been issued. -/
structure Booked (next : Nat) (h : Holding) : Prop where
  listed : ∀ (address : Addr) (id : Nat), h.ids[id]? = some address ↔ h.Has address id
  below : ∀ (address : Addr) (id : Nat), h.Has address id → id < next

variable {h : Holding} {next id i : Nat} {address a b : Addr} {installed : Bool} {original : Byte}

theorem not_has_empty : ¬Has {} a i := by simp [Has]

theorem Has.id_eq (h₁ : h.Has a i) {j : Nat} (h₂ : h.Has a j) : i = j := by
  obtain ⟨_, hbp, rfl⟩ := h₁
  obtain ⟨_, hbp', rfl⟩ := h₂
  rw [hbp, Option.some_inj] at hbp'
  rw [hbp']

theorem has_mark : (h.mark address installed).Has a i ↔ h.Has a i := by
  simp only [Has, mark, ExtTreeMap.getElem?_modify, Std.compare_eq_iff_eq]
  split
  · rename_i heq
    subst heq
    simp only [Option.map_eq_some_iff]
    constructor
    · rintro ⟨_, ⟨bp, hbp, rfl⟩, rfl⟩
      exact ⟨bp, hbp, rfl⟩
    · rintro ⟨bp, hbp, rfl⟩
      exact ⟨_, ⟨bp, hbp, rfl⟩, rfl⟩
  · rfl

theorem has_insert :
    (h.insert id address original).Has a i ↔ a = address ∧ i = id ∨ a ≠ address ∧ h.Has a i := by
  simp only [Has, insert, ExtTreeMap.getElem?_insert, Std.compare_eq_iff_eq]
  by_cases heq : address = a
  · simp [heq, eq_comm]
  · simp [heq, Ne.symm heq]

theorem has_erase : (h.erase id address).Has a i ↔ a ≠ address ∧ h.Has a i := by
  simp only [Has, erase, ExtTreeMap.getElem?_erase, Std.compare_eq_iff_eq]
  by_cases heq : address = a
  · simp [heq]
  · simp [heq, Ne.symm heq]

theorem has_inherited {child : Pid} : ¬(h.inherited child).Has a i := by
  unfold inherited
  split <;> simp [Has]

/-- Rewriting saved bytes changes no entry. -/
theorem has_rewritten {table : ExtTreeMap Addr Breakpoint} (hsame : SameBreakpoints h.table table) :
    Has { h with table } a i ↔ h.Has a i := by
  constructor
  · rintro ⟨bp, hbp, rfl⟩
    rcases hold : h.table[a]? with _ | old
    · rw [show table[a]? = none from hsame.1 a hold] at hbp
      cases hbp
    · obtain ⟨byte, hnew, -⟩ := hsame.2 a old hold
      rw [show table[a]? = _ from hnew, Option.some_inj] at hbp
      exact ⟨old, hold, by rw [← hbp]⟩
  · rintro ⟨bp, hbp, rfl⟩
    obtain ⟨byte, hnew, -⟩ := hsame.2 a bp hbp
    exact ⟨_, hnew, rfl⟩

/-! ### Booked tables -/

/-- Two holdings with the same entries and the same ids. -/
theorem Booked.congr (hb : h.Booked next) {h' : Holding} (hids : h'.ids = h.ids)
    (hhas : ∀ a i, h'.Has a i ↔ h.Has a i) : h'.Booked next where
  listed a i := by rw [hids, hhas, hb.listed]
  below a i hi := hb.below a i ((hhas a i).mp hi)

theorem Booked.mono (hb : h.Booked next) {next' : Nat} (hle : next ≤ next') : h.Booked next' :=
  ⟨hb.listed, fun a i hi => (hb.below a i hi).trans_le hle⟩

theorem booked_empty : Booked next {} where
  listed a i := by simp [Has]
  below a i hi := by simp [Has] at hi

theorem booked_inherited {child : Pid} : (h.inherited child).Booked next := by
  refine ⟨fun a i => ?_, fun a i hi => (has_inherited hi).elim⟩
  simp only [iff_false, has_inherited]
  unfold inherited
  split <;> simp

theorem Booked.address_eq (hb : h.Booked next) (h₁ : h.Has a i) (h₂ : h.Has b i) : a = b := by
  have := (hb.listed a i).mpr h₁
  rw [(hb.listed b i).mpr h₂, Option.some_inj] at this
  exact this.symm

theorem Booked.insert (hb : h.Booked next) (hnew : h.table[address]? = none) :
    (h.insert next address original).Booked (next + 1) := by
  have hfresh : ∀ a, ¬h.Has a next := fun a ha => lt_irrefl _ (hb.below a next ha)
  refine ⟨fun a i => ?_, fun a i hi => ?_⟩
  · rw [has_insert]
    simp only [Holding.insert, ExtTreeMap.getElem?_insert, Std.compare_eq_iff_eq]
    by_cases hi : next = i
    · subst hi
      simp [hfresh, eq_comm]
    · have hout : h.Has a i → a ≠ address := by
        rintro ⟨bp, hbp, -⟩ rfl
        rw [hnew] at hbp
        cases hbp
      rw [if_neg hi, hb.listed]
      grind
  · rcases has_insert.mp hi with ⟨-, rfl⟩ | ⟨-, hi⟩
    · exact Nat.lt_succ_self _
    · exact (hb.below a i hi).trans (Nat.lt_succ_self _)

theorem Booked.erase (hb : h.Booked next) (hid : h.ids[id]? = some address) :
    (h.erase id address).Booked next := by
  have hhas := (hb.listed address id).mp hid
  refine ⟨fun a i => ?_, fun a i hi => hb.below a i (has_erase.mp hi).2⟩
  rw [has_erase]
  simp only [Holding.erase, ExtTreeMap.getElem?_erase, Std.compare_eq_iff_eq]
  by_cases hi : id = i
  · subst hi
    simp only [if_true, reduceCtorEq, false_iff, not_and]
    exact fun hne ha => hne (hb.address_eq ha hhas)
  · rw [if_neg hi, hb.listed]
    refine ⟨fun ha => ⟨?_, ha⟩, fun ha => ha.2⟩
    rintro rfl
    exact hi (hhas.id_eq ha)

end Holding

namespace Holdings

section Retained

variable {R : Pid → Option Holding} {pid other : Pid} {h v : Holding}

theorem of_update_none (hh : update R pid none other = some h) : other ≠ pid ∧ R other = some h := by
  by_cases heq : other = pid
  · subst heq
    simp at hh
  · exact ⟨heq, by rwa [update_of_ne heq] at hh⟩

theorem of_update_some (hh : update R pid (some v) other = some h) :
    other = pid ∧ v = h ∨ other ≠ pid ∧ R other = some h := by
  by_cases heq : other = pid
  · subst heq
    exact .inl ⟨rfl, by simpa using hh⟩
  · exact .inr ⟨heq, by rwa [update_of_ne heq] at hh⟩

end Retained

/-- Some process has a breakpoint with this id at this address. -/
def Has (H : Holdings) (address : Addr) (id : Nat) : Prop :=
  H.active.Has address id ∨ ∃ pid h, H.retained pid = some h ∧ h.Has address id

structure Booked (next : Nat) (H : Holdings) : Prop where
  active : H.active.Booked next
  retained : ∀ pid h, H.retained pid = some h → h.Booked next

theorem Booked.below {next id : Nat} {H : Holdings} (hH : H.Booked next) {address : Addr}
    (h : H.Has address id) : id < next := by
  obtain h | ⟨pid, domain, hdomain, h⟩ := h
  · exact hH.active.below _ _ h
  · exact (hH.retained pid domain hdomain).below _ _ h

/-- The same entries in the same tables; there may be processes that have come up since. -/
structure Kept (H K : Holdings) : Prop where
  active : ∀ address id, K.active.Has address id ↔ H.active.Has address id
  retained : ∀ pid h, H.retained pid = some h → K.retained pid = some h
  new : ∀ pid h, K.retained pid = some h →
    H.retained pid = some h ∨ ∀ address id, ¬h.Has address id

variable {H K K' : Holdings} {next id : Nat} {address : Addr}

theorem Kept.refl (H : Holdings) : H.Kept H :=
  ⟨fun _ _ => Iff.rfl, fun _ _ h => h, fun _ _ h => .inl h⟩

/-- Turns add no entry. -/
theorem Turn.has (hturn : Turn H K) (h : K.Has address id) : H.Has address id := by
  cases hturn with
  | marked a installed => exact h.imp_left Holding.has_mark.mp
  | unwatched => exact h
  | replaced => exact .inr (h.resolve_left Holding.not_has_empty)
  | promoted survivor domain hdomain =>
    obtain h | ⟨pid, other, hother, h⟩ := h
    · exact .inr ⟨survivor, domain, hdomain, h⟩
    · exact .inr ⟨pid, other, (of_update_none hother).2, h⟩
  | forked child hnew =>
    obtain h | ⟨pid, other, hother, h⟩ := h
    · exact .inl h
    · obtain ⟨-, rfl⟩ | ⟨-, hother⟩ := of_update_some hother
      · exact (Holding.has_inherited h).elim
      · exact .inr ⟨pid, other, hother, h⟩
  | handed child => exact h

theorem turns_has (hturns : ReflTransGen Turn H K) (h : K.Has address id) : H.Has address id := by
  induction hturns with
  | refl => exact h
  | tail _ hturn ih => exact ih (hturn.has h)

/-- A turn keeps the tables or drops the active one. -/
theorem Kept.turn (hK : H.Kept K) (hturn : Turn K K')
    (hapart : ∀ pid h a, H.retained pid = some h → ¬h.Has a id) :
    H.Kept K' ∨ ∀ a, ¬K'.Has a id := by
  have hnot : ∀ pid h a, K.retained pid = some h → ¬h.Has a id := fun pid h a hh =>
    (hK.new pid h hh).elim (hapart pid h a) fun hnone => hnone a id
  cases hturn with
  | marked a installed =>
    exact .inl ⟨fun b i => Holding.has_mark.trans (hK.active b i), hK.retained, hK.new⟩
  | unwatched => exact .inl ⟨hK.active, hK.retained, hK.new⟩
  | replaced =>
    refine .inr fun a h => ?_
    obtain ⟨pid, domain, hdomain, h⟩ := h.resolve_left Holding.not_has_empty
    exact hnot pid domain a hdomain h
  | promoted survivor domain hdomain =>
    refine .inr fun a h => ?_
    obtain h | ⟨pid, other, hother, h⟩ := h
    · exact hnot survivor domain a hdomain h
    · exact hnot pid other a (of_update_none hother).2 h
  | forked child hnew =>
    refine .inl ⟨hK.active, fun pid h hh => ?_, fun pid h hh => ?_⟩
    · have hpid : pid ≠ child := by
        rintro rfl
        rw [hK.retained pid h hh] at hnew
        cases hnew
      exact (update_of_ne hpid _ _).trans (hK.retained pid h hh)
    · obtain ⟨-, rfl⟩ | ⟨-, hh⟩ := of_update_some hh
      · exact .inr fun a i => Holding.has_inherited
      · exact hK.new pid h hh
  | handed child => exact .inl ⟨hK.active, hK.retained, hK.new⟩

/-- As long as an entry that only the active table had is anywhere, nothing has been dropped. -/
theorem kept_of_turns (hturns : ReflTransGen Turn H K)
    (hapart : ∀ pid h a, H.retained pid = some h → ¬h.Has a id) {a : Addr} (hhas : K.Has a id) :
    H.Kept K := by
  have hcases : H.Kept K ∨ ∀ a, ¬K.Has a id := by
    clear hhas
    induction hturns with
    | refl => exact .inl (Kept.refl H)
    | tail _ hturn ih =>
      obtain hkept | hgone := ih
      · exact hkept.turn hturn hapart
      · exact .inr fun a h => hgone a (hturn.has h)
  exact hcases.resolve_right fun hgone => hgone a hhas

theorem Booked.turn (hH : H.Booked next) (hturn : Turn H K) : K.Booked next := by
  cases hturn with
  | marked a installed => exact ⟨hH.active.congr rfl fun _ _ => Holding.has_mark, hH.retained⟩
  | unwatched => exact ⟨hH.active.congr rfl fun _ _ => Iff.rfl, hH.retained⟩
  | replaced => exact ⟨Holding.booked_empty, hH.retained⟩
  | promoted survivor domain hdomain =>
    exact ⟨hH.retained survivor domain hdomain, fun pid other hother =>
      hH.retained pid other (of_update_none hother).2⟩
  | forked child hnew =>
    refine ⟨hH.active, fun pid other hother => ?_⟩
    obtain ⟨-, rfl⟩ | ⟨-, hother⟩ := of_update_some hother
    · exact Holding.booked_inherited
    · exact hH.retained pid other hother
  | handed child => exact ⟨hH.active.congr rfl fun _ _ => Iff.rfl, hH.retained⟩

end Holdings

namespace Ledger

/-- The tables of every process are booked. -/
def Booked (L : Ledger) : Prop := L.holdings.Booked L.nextBreakpoint

theorem Booked.change {L M : Ledger} (hL : L.Booked) (hchange : Change L M) : M.Booked := by
  cases hchange with
  | turned H hturn => exact Holdings.Booked.turn hL hturn
  | inserted address original hnew =>
    exact ⟨hL.active.insert hnew, fun pid h hh => (hL.retained pid h hh).mono (Nat.le_succ _)⟩
  | erased id address hid => exact ⟨hL.active.erase hid, hL.retained⟩
  | rewritten table hsame =>
    exact ⟨hL.active.congr rfl fun _ _ => Holding.has_rewritten hsame, hL.retained⟩
  | armed address length snapshot hnone harmable =>
    exact ⟨hL.active.congr rfl fun _ _ => Iff.rfl, hL.retained⟩
  | swapped old new domain hdomain =>
    refine ⟨hL.retained new domain hdomain, fun pid other hother => ?_⟩
    obtain ⟨-, rfl⟩ | ⟨-, hother⟩ := Holdings.of_update_some hother
    · exact hL.active
    · exact hL.retained pid other (Holdings.of_update_none hother).2

theorem Booked.changes {L M : Ledger} (hL : L.Booked) (h : ReflTransGen Change L M) : M.Booked := by
  induction h with
  | refl => exact hL
  | tail _ hchange ih => exact ih.change hchange

theorem booked_blank : Ledger.blank.Booked :=
  ⟨Holding.booked_empty, fun pid h hh => by simp [Ledger.blank] at hh⟩

end Ledger

end MiniDebugger
