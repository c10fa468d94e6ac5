import MiniDebugger.Loader.DeferredBreakpoints
import MiniDebugger.Memory.Writes

/-!
# What reconciliation achieves

`reconcile_requests` goes through the requests one by one: it forgets a breakpoint whose target has
moved or gone and arms a request at its new address, in a table that takes one entry for each
address. `Compatible` says when that gets through in every order of the requests: each address that
has to be armed is free from the start and wanted by one request only.
-/

namespace MiniDebugger

open Command
open Std (ExtTreeMap)
open Lowlevel (memoryOf)

/-- The lookup of every target returns what `f` says. -/
def Modules.Answers (modules : Modules) (f : DeferredBreakpointTarget → Option Addr) : Prop :=
  ∀ target, DeferredBreakpoints.resolveTarget modules target = pure (f target)

namespace DeferredBreakpoint

variable (r : DeferredBreakpoint) (f : DeferredBreakpointTarget → Option Addr) (a : Addr)

/-- The request has to be armed at `a`, where it is not yet. -/
def Arms : Prop := f r.target = some a ∧ (r.breakpointId = none ∨ r.address ≠ some a)

/-- The request has a breakpoint at `a`, where its target is no more. -/
def Leaves : Prop := r.breakpointId ≠ none ∧ r.address = some a ∧ f r.target ≠ some a

end DeferredBreakpoint

namespace DeferredSession

/-- `DeferredBreakpoints::breakpoints` -/
def requests (s : DeferredSession) : List DeferredBreakpoint :=
  s.deferred.requests.toList.map (·.2)

def table (s : DeferredSession) : ExtTreeMap Addr Breakpoint := s.session.dbg.breakpointsByAddress

def ids (s : DeferredSession) : ExtTreeMap Nat Addr := s.session.dbg.breakpointIds

def next (s : DeferredSession) : Nat := s.session.dbg.nextBreakpointId

/-- The memory of the stopped process. -/
def memory (s : DeferredSession) : Memory := memoryOf s.session s.session.dbg.process.currentTid

/-- The tracee is stopped and breakpoints can be set in it. -/
structure Operational (s : DeferredSession) : Prop where
  ready : s.session.dbg.process.Ready
  policy : ¬(s.session.dbg.forkFollowPolicy = .both ∧
    s.session.dbg.retainedProcesses.isEmpty = true)
  faults : s.session.faults = []

/-- The requests are filed under their ids; each id of a breakpoint was issued to one request, and
names the address recorded with it as long as the debugger knows it. -/
structure Consistent (s : DeferredSession) : Prop where
  sound : s.session.dbg.domain.Sound s.next
  filed : ∀ (n : Nat) (r : DeferredBreakpoint), s.deferred.requests[n]? = some r → r.requestId = n
  recorded : ∀ r ∈ s.requests, r.breakpointId ≠ none → r.address ≠ none
  issued : ∀ r ∈ s.requests, ∀ id, r.breakpointId = some id → id < s.next
  named : ∀ r ∈ s.requests, ∀ id a, r.breakpointId = some id → s.ids[id]? = some a →
    r.address = some a
  distinct : ∀ r ∈ s.requests, ∀ r' ∈ s.requests, ∀ id, r.breakpointId = some id →
    r'.breakpointId = some id → r = r'

/-- In `t` the request `r` is armed at the address it resolves to, or pending without an address
and a breakpoint. -/
def Settled (f : DeferredBreakpointTarget → Option Addr) (t : DeferredSession)
    (r : DeferredBreakpoint) : Prop :=
  ∃ r', t.deferred.requests[r.requestId]? = some r' ∧ r'.target = r.target ∧
    r'.requestId = r.requestId ∧ r'.address = f r.target ∧
    (f r.target = none → r'.breakpointId = none) ∧
    ∀ a, f r.target = some a → ∃ id, r'.breakpointId = some id ∧ t.ids[id]? = some a

/-- Every request is settled, the addresses with a breakpoint are those of the resolved requests
and those no request has left, and no other entry has changed. -/
structure Reconciled (f : DeferredBreakpointTarget → Option Addr) (s t : DeferredSession) :
    Prop where
  settled : ∀ r ∈ s.requests, t.Settled f r
  armed : ∀ a, a ∈ t.table ↔ (∃ r ∈ s.requests, f r.target = some a) ∨
    (a ∈ s.table ∧ ¬∃ r ∈ s.requests, r.Leaves f a)
  others : ∀ a : Addr, (∀ r ∈ s.requests, f r.target ≠ some a ∧ ¬r.Leaves f a) →
    t.table[a]? = s.table[a]?

/-- Whatever the order of the requests, the loop of `reconcile_requests` gets through and
reconciles them. -/
def ReconcilesInAnyOrder (modules : Modules) (f : DeferredBreakpointTarget → Option Addr)
    (s : DeferredSession) : Prop :=
  ∀ order : List DeferredBreakpoint, order.Perm s.requests →
    wp (forEach (DeferredBreakpoints.reconcileRequest modules) order)
      ⟨fun _ t => Reconciled f s t, fun _ _ => False, fun _ _ => False⟩ s

/-- The order of the source is one of these. -/
theorem wp_reconcileRequests (modules : Modules) (Q : Post WaitCall Exception DeferredSession Unit)
    (s : DeferredSession) :
    wp (DeferredBreakpoints.reconcileRequests modules) Q s =
      wp (forEach (DeferredBreakpoints.reconcileRequest modules) s.requests) Q s := rfl

/-- No two requests, and no request and another breakpoint, are in each other's way. -/
structure Compatible (f : DeferredBreakpointTarget → Option Addr) (s : DeferredSession) :
    Prop where
  known : ∀ r ∈ s.requests, ∀ id, r.breakpointId = some id → s.ids[id]? = r.address
  vacant : ∀ r ∈ s.requests, ∀ a, r.Arms f a → a ∉ s.table
  mapped : ∀ r ∈ s.requests, ∀ a, r.Arms f a → accessible s.memory a = true
  apart : ∀ r ∈ s.requests, ∀ r' ∈ s.requests, ∀ a, r.Arms f a → r'.Arms f a → r = r'
  clean : ∀ r ∈ s.requests, r.breakpointId = none → f r.target = none → r.address = none

/-! ## One pass -/

/-- What the loop has achieved when the requests `left` have given up what they had to and those in
`placed` are settled. -/
structure Progress (f : DeferredBreakpointTarget → Option Addr) (s : DeferredSession)
    (placed left : List DeferredBreakpoint) (t : DeferredSession) : Prop where
  operational : t.Operational
  access : ∀ a, accessible t.memory a = accessible s.memory a
  sound : t.session.dbg.domain.Sound t.next
  next : s.next ≤ t.next
  requests : ∀ r ∈ left, r ∈ s.requests
  after : ∀ r ∈ placed, r ∈ left
  settled : ∀ r ∈ placed, t.Settled f r
  fresh : ∀ r ∈ placed, ∀ r' : DeferredBreakpoint, t.deferred.requests[r.requestId]? = some r' →
    ∀ id, r'.breakpointId = some id → r.breakpointId = some id ∨ s.next ≤ id
  waiting : ∀ r ∈ s.requests, r ∉ left → t.deferred.requests[r.requestId]? = some r
  known : ∀ r ∈ s.requests, r ∉ left → ∀ id, r.breakpointId = some id → t.ids[id]? = r.address
  armed : ∀ a, a ∈ t.table ↔ (∃ r ∈ placed, f r.target = some a) ∨
    (a ∈ s.table ∧ ¬∃ r ∈ left, r.Leaves f a)
  others : ∀ a : Addr, (∀ r ∈ left, ¬r.Leaves f a) → (∀ r ∈ placed, f r.target ≠ some a) →
    t.table[a]? = s.table[a]?

/-- The session after `b` has given up its breakpoint. -/
def leave (t : DeferredSession) (b : DeferredBreakpoint) (id : Nat) (a : Addr) : DeferredSession where
  deferred := { t.deferred with
    requests := t.deferred.requests.insert b.requestId
      { b with breakpointId := none, address := none } }
  session := { t.session with dbg := (t.session.dbg.clearPendingStep a).eraseBreakpoint id a }
  records := .discards t.session id :: t.records

section

variable {f : DeferredBreakpointTarget → Option Addr} {s t : DeferredSession}
  {placed left placed' left' : List DeferredBreakpoint} {b : DeferredBreakpoint} {id : Nat} {a : Addr}

theorem mem_requests {r : DeferredBreakpoint} :
    r ∈ s.requests ↔ ∃ n : Nat, s.deferred.requests[n]? = some r := by
  simp [requests, ExtTreeMap.mem_toList_iff_getElem?_eq_some]

/-- A request is found under its id. -/
theorem Consistent.getElem (h : s.Consistent) {r : DeferredBreakpoint} (hr : r ∈ s.requests) :
    s.deferred.requests[r.requestId]? = some r := by
  obtain ⟨n, hn⟩ := mem_requests.mp hr
  rw [h.filed n r hn]
  exact hn

theorem Consistent.requestId_ne (h : s.Consistent) {r r' : DeferredBreakpoint}
    (hr : r ∈ s.requests) (hr' : r' ∈ s.requests) (hne : r ≠ r') : r'.requestId ≠ r.requestId := by
  intro heq
  have := h.getElem hr'
  rw [heq, h.getElem hr] at this
  exact hne (Option.some.inj this)

theorem clearPendingStep_cases (d : Debugger) (a : Addr) :
    d.clearPendingStep a = d ∨
      d.clearPendingStep a = { d with pendingBreakpointStep := none } ∧
        ∀ p, d.pendingBreakpointStep = some p → p.address = a := by
  unfold Debugger.clearPendingStep
  split
  · rename_i h
    refine .inr ⟨rfl, fun p hp => ?_⟩
    simpa [hp] using h
  · exact .inl rfl

theorem leave_table : (t.leave b id a).table = t.table.erase a := by
  rcases clearPendingStep_cases t.session.dbg a with h | ⟨h, -⟩ <;>
    simp [leave, table, Debugger.eraseBreakpoint, h]

theorem leave_ids : (t.leave b id a).ids = t.ids.erase id := by
  rcases clearPendingStep_cases t.session.dbg a with h | ⟨h, -⟩ <;>
    simp [leave, ids, Debugger.eraseBreakpoint, h]

theorem leave_next : (t.leave b id a).next = t.next := by
  rcases clearPendingStep_cases t.session.dbg a with h | ⟨h, -⟩ <;>
    simp [leave, next, Debugger.eraseBreakpoint, h]

theorem leave_process : (t.leave b id a).session.dbg.process = t.session.dbg.process := by
  rcases clearPendingStep_cases t.session.dbg a with h | ⟨h, -⟩ <;>
    simp [leave, Debugger.eraseBreakpoint, h]

theorem leave_memory : (t.leave b id a).memory = t.memory := by
  rw [memory, leave_process]
  rfl

theorem Operational.leave (h : t.Operational) : (t.leave b id a).Operational := by
  refine ⟨by rw [leave_process]; exact h.ready, ?_, h.faults⟩
  have := h.policy
  rcases clearPendingStep_cases t.session.dbg a with hc | ⟨hc, -⟩ <;>
    simpa [DeferredSession.leave, Debugger.eraseBreakpoint, hc] using this

theorem sound_leave (h : t.session.dbg.domain.Sound t.next) (hid : t.ids[id]? = some a) :
    (t.leave b id a).session.dbg.domain.Sound (t.leave b id a).next := by
  rw [leave_next]
  rcases clearPendingStep_cases t.session.dbg a with hc | ⟨hc, hpending⟩
  · have : Domain.Sound t.next { t.session.dbg.domain with
        table := t.table.erase a, ids := t.ids.erase id } := h.erase hid (fun p hp _ => hp)
    simpa [leave, table, ids, Debugger.eraseBreakpoint, Debugger.domain, hc] using this
  · have : Domain.Sound t.next { t.session.dbg.domain with
        table := t.table.erase a, ids := t.ids.erase id, pending := none } :=
      h.erase hid (fun p hp hne => absurd (hpending p hp) hne)
    simpa [leave, table, ids, Debugger.eraseBreakpoint, Debugger.domain, hc] using this

/-- An address recorded with a breakpoint has an entry. -/
theorem Compatible.mem_table (h : Compatible f s) (hs : s.Consistent) (hb : b ∈ s.requests)
    (hid : b.breakpointId = some id) (ha : b.address = some a) : a ∈ s.table := by
  obtain ⟨bp, hbp, -⟩ := hs.sound.backward id a (ha ▸ h.known b hb id hid)
  exact ExtTreeMap.mem_iff_isSome_getElem?.mpr (Option.isSome_iff_exists.mpr ⟨bp, hbp⟩)

/-- No other request resolves to an address that `b` holds. -/
theorem Compatible.holder (h : Compatible f s) (hs : s.Consistent) (hb : b ∈ s.requests)
    (hid : b.breakpointId = some id) (ha : b.address = some a) {r : DeferredBreakpoint}
    (hr : r ∈ s.requests) (hresolved : f r.target = some a) : r = b := by
  by_cases harms : r.Arms f a
  · exact absurd (h.mem_table hs hb hid ha) (h.vacant r hr a harms)
  · have hheld : r.breakpointId ≠ none ∧ r.address = some a := by
      simpa [DeferredBreakpoint.Arms, hresolved] using harms
    obtain ⟨j, hj⟩ := Option.ne_none_iff_exists'.mp hheld.1
    obtain ⟨bp, hbp, hbpid⟩ := hs.sound.backward id a (ha ▸ h.known b hb id hid)
    obtain ⟨bp', hbp', hbpid'⟩ := hs.sound.backward j a (hheld.2 ▸ h.known r hr j hj)
    have hsame : bp = bp' := Option.some.inj (hbp.symm.trans hbp')
    have hij : j = id := by rw [← hbpid', ← hsame, hbpid]
    exact hs.distinct r hr b hb id (hij ▸ hj) hid

/-- `b` gives up the breakpoint it has at `a`. -/
theorem Progress.leave (h : Progress f s placed left t) (hs : s.Consistent)
    (hcompat : Compatible f s) (hb : b ∈ s.requests) (hnew : b ∉ left)
    (hleft : ∀ r, r ∈ left' ↔ r = b ∨ r ∈ left) (hid : b.breakpointId = some id)
    (ha : b.address = some a) (hstale : f b.target ≠ some a) :
    Progress f s placed left' (t.leave b id a) := by
  have hleaves : b.Leaves f a := ⟨by simp [hid], ha, hstale⟩
  have hknown : t.ids[id]? = some a := ha ▸ h.known b hb hnew id hid
  have hother : ∀ r ∈ s.requests, r ≠ b →
      (t.leave b id a).deferred.requests[r.requestId]? = t.deferred.requests[r.requestId]? := by
    intro r hr hne
    have := hs.requestId_ne hr hb hne
    simp [DeferredSession.leave, ExtTreeMap.getElem?_insert, this]
  have hkeep : ∀ j a', j ≠ id → t.ids[j]? = some a' → (t.leave b id a).ids[j]? = some a' := by
    intro j a' hne hj
    rw [leave_ids, ExtTreeMap.getElem?_erase, if_neg (by simpa using hne.symm)]
    exact hj
  have hplaced : ∀ r ∈ placed, r ∈ s.requests ∧ r ≠ b := fun r hr =>
    ⟨h.requests r (h.after r hr), fun heq => hnew (heq ▸ h.after r hr)⟩
  refine ⟨h.operational.leave, fun x => by rw [leave_memory]; exact h.access x,
    sound_leave h.sound hknown, by rw [leave_next]; exact h.next,
    fun r hr => ?_, fun r hr => ?_,
    fun r hr => ?_, fun r hr r' hr' => ?_, fun r hr hout => ?_, fun r hr hout j hj => ?_,
    fun x => ?_, fun x hx hx' => ?_⟩
  · rcases (hleft r).mp hr with rfl | hr
    · exact hb
    · exact h.requests r hr
  · exact (hleft r).mpr (.inr (h.after r hr))
  · obtain ⟨hr₀, hne⟩ := hplaced r hr
    obtain ⟨r', hr', htarget, hrid, haddress, hnone, hsome⟩ := h.settled r hr
    refine ⟨r', (hother r hr₀ hne).trans hr', htarget, hrid, haddress, hnone, fun x hx => ?_⟩
    obtain ⟨j, hj, hjx⟩ := hsome x hx
    refine ⟨j, hj, hkeep j x (fun heq => ?_) hjx⟩
    subst heq
    rcases h.fresh r hr r' hr' j hj with hown | hnew
    · exact hne (hs.distinct r hr₀ b hb j hown hid)
    · exact absurd (hs.issued b hb j hid) (by omega)
  · obtain ⟨hr₀, hne⟩ := hplaced r hr
    rw [hother r hr₀ hne] at hr'
    exact h.fresh r hr r' hr'
  · have hout := fun hmem => hout ((hleft r).mpr hmem)
    rw [hother r hr fun heq => hout (.inl heq)]
    exact h.waiting r hr fun hmem => hout (.inr hmem)
  · have hout := fun hmem => hout ((hleft r).mpr hmem)
    have hkept := h.known r hr (fun hmem => hout (.inr hmem)) j hj
    obtain ⟨x, hx⟩ := Option.ne_none_iff_exists'.mp (hs.recorded r hr (by simp [hj]))
    rw [hx] at hkept ⊢
    refine hkeep j x (fun heq => hout (.inl ?_)) hkept
    subst heq
    exact hs.distinct r hr b hb j hj hid
  · rw [leave_table, ExtTreeMap.mem_erase, h.armed x]
    have hfree : ∀ r ∈ placed, f r.target ≠ some a := by
      intro r hr hresolved
      obtain ⟨hr₀, hne⟩ := hplaced r hr
      exact hne (hcompat.holder hs hb hid ha hr₀ hresolved)
    have hrest : x ≠ a → ((∃ r ∈ left', r.Leaves f x) ↔ ∃ r ∈ left, r.Leaves f x) := by
      intro hne
      constructor
      · rintro ⟨r, hr, hl⟩
        rcases (hleft r).mp hr with rfl | hr
        · exact absurd (Option.some.inj (hl.2.1.symm.trans ha)) hne
        · exact ⟨r, hr, hl⟩
      · rintro ⟨r, hr, hl⟩
        exact ⟨r, (hleft r).mpr (.inr hr), hl⟩
    by_cases hxa : x = a
    · subst hxa
      refine iff_of_false (fun hx => hx.1 (by simp)) ?_
      rintro (⟨r, hr, hresolved⟩ | ⟨-, hnone⟩)
      · exact hfree r hr hresolved
      · exact hnone ⟨b, (hleft b).mpr (.inl rfl), hleaves⟩
    · rw [hrest hxa]
      exact and_iff_right (by simpa using Ne.symm hxa)
  · have hne : a ≠ x := by
      rintro rfl
      exact hx b ((hleft b).mpr (.inl rfl)) hleaves
    rw [leave_table, ExtTreeMap.getElem?_erase, if_neg (by simpa using hne)]
    exact h.others x (fun r hr => hx r ((hleft r).mpr (.inr hr))) hx'

/-- `b` has nothing to give up. -/
theorem Progress.stay (h : Progress f s placed left t) (hb : b ∈ s.requests)
    (hleft : ∀ r, r ∈ left' ↔ r = b ∨ r ∈ left) (hstays : ∀ x, ¬b.Leaves f x) :
    Progress f s placed left' t := by
  have hsub : ∀ r, r ∉ left' → r ∉ left := fun r hout hmem => hout ((hleft r).mpr (.inr hmem))
  have hsame : ∀ x, (∃ r ∈ left', r.Leaves f x) ↔ ∃ r ∈ left, r.Leaves f x := by
    intro x
    constructor
    · rintro ⟨r, hr, hl⟩
      rcases (hleft r).mp hr with rfl | hr
      · exact absurd hl (hstays x)
      · exact ⟨r, hr, hl⟩
    · rintro ⟨r, hr, hl⟩
      exact ⟨r, (hleft r).mpr (.inr hr), hl⟩
  refine { h with
    requests := fun r hr => ?_
    after := fun r hr => (hleft r).mpr (.inr (h.after r hr))
    waiting := fun r hr hout => h.waiting r hr (hsub r hout)
    known := fun r hr hout => h.known r hr (hsub r hout)
    armed := fun x => by rw [hsame]; exact h.armed x
    others := fun x hx => h.others x fun r hr => hx r ((hleft r).mpr (.inr hr)) }
  rcases (hleft r).mp hr with rfl | hr
  · exact hb
  · exact h.requests r hr

/-- `b` is where it has to be. -/
theorem Progress.place (h : Progress f s placed left t) (hb : b ∈ left)
    (hplaced : ∀ r, r ∈ placed' ↔ r = b ∨ r ∈ placed) (hsettled : t.Settled f b)
    (hfresh : ∀ r' : DeferredBreakpoint, t.deferred.requests[b.requestId]? = some r' →
      ∀ id, r'.breakpointId = some id → b.breakpointId = some id ∨ s.next ≤ id)
    (harmed : ∀ x, f b.target = some x → x ∈ t.table) : Progress f s placed' left t := by
  refine { h with after := fun r hr => ?_, settled := fun r hr => ?_, fresh := fun r hr => ?_,
                  armed := fun x => ?_, others := fun x hx hx' => ?_ }
  · rcases (hplaced r).mp hr with rfl | hr
    · exact hb
    · exact h.after r hr
  · rcases (hplaced r).mp hr with rfl | hr
    · exact hsettled
    · exact h.settled r hr
  · rcases (hplaced r).mp hr with rfl | hr
    · exact hfresh
    · exact h.fresh r hr
  · constructor
    · intro hx
      rcases (h.armed x).mp hx with ⟨r, hr, hresolved⟩ | hold
      · exact .inl ⟨r, (hplaced r).mpr (.inr hr), hresolved⟩
      · exact .inr hold
    · rintro (⟨r, hr, hresolved⟩ | hold)
      · rcases (hplaced r).mp hr with rfl | hr
        · exact harmed x hresolved
        · exact (h.armed x).mpr (.inl ⟨r, hr, hresolved⟩)
      · exact (h.armed x).mpr (.inr hold)
  · exact h.others x hx fun r hr => hx' r ((hplaced r).mpr (.inr hr))

/-- The session after `b` has been armed at `a`. -/
def armedAt (t : DeferredSession) (b : DeferredBreakpoint) (a : Addr) : DeferredSession where
  deferred := { t.deferred with
    requests := (t.deferred.requests.insert b.requestId
      { b with breakpointId := none, address := some a }).insert b.requestId
      { b with breakpointId := some t.next, address := some a } }
  session := { t.session.poke t.session.dbg.process.currentTid a int3 with
    dbg := t.session.dbg.insertBreakpoint a ((t.memory a).getD 0) }
  records := .arms t.session a :: t.records

theorem armedAt_memory : (t.armedAt b a).memory = Function.update t.memory a (some int3) := by
  simp [memory, armedAt, Debugger.insertBreakpoint, memoryOf, Session.poke, Lowlevel.space]

theorem armedAt_table : (t.armedAt b a).table =
    t.table.insert a ⟨t.next, a, (t.memory a).getD 0, true⟩ := rfl

theorem armedAt_ids : (t.armedAt b a).ids = t.ids.insert t.next a := rfl

theorem armedAt_next : (t.armedAt b a).next = t.next + 1 := rfl

theorem armedAt_requests : (t.armedAt b a).deferred.requests[b.requestId]? =
    some { b with breakpointId := some t.next, address := some a } :=
  ExtTreeMap.getElem?_insert_self

/-- `b` is armed at `a`, which is free. -/
theorem Progress.arm (h : Progress f s placed left t) (hs : s.Consistent) (hb : b ∈ left)
    {b' : DeferredBreakpoint} (hid : b'.requestId = b.requestId) (htarget : b'.target = b.target)
    (hnew : b ∉ placed) (hplaced : ∀ r, r ∈ placed' ↔ r = b ∨ r ∈ placed)
    (hresolved : f b.target = some a) (hvacant : a ∉ t.table)
    (hacc : accessible t.memory a = true) : Progress f s placed' left (t.armedAt b' a) := by
  obtain ⟨byte, hbyte⟩ := Lowlevel.mapped_of_accessible hacc
  have hother : ∀ r ∈ s.requests, r ≠ b →
      (t.armedAt b' a).deferred.requests[r.requestId]? = t.deferred.requests[r.requestId]? := by
    intro r hr hne
    have := hs.requestId_ne hr (h.requests b hb) hne
    simp [armedAt, ExtTreeMap.getElem?_insert, hid, this]
  have hkeep : ∀ (j : Nat) (x : Addr), t.ids[j]? = some x → (t.armedAt b' a).ids[j]? = some x := by
    intro j x hj
    have := h.sound.below j x hj
    rw [armedAt_ids, ExtTreeMap.getElem?_insert, if_neg (by simp; omega)]
    exact hj
  have hsound : (t.armedAt b' a).session.dbg.domain.Sound (t.armedAt b' a).next :=
    h.sound.insert hvacant (Lowlevel.bound_of_accessible hacc)
  have hearlier : ∀ r ∈ placed, r ∈ s.requests ∧ r ≠ b := fun r hr =>
    ⟨h.requests r (h.after r hr), fun heq => hnew (heq ▸ hr)⟩
  have hself := armedAt_requests (t := t) (b := b') (a := a)
  rw [hid] at hself
  refine ⟨⟨h.operational.ready, h.operational.policy, h.operational.faults⟩, fun x => ?_, hsound,
    h.next.trans (by rw [armedAt_next]; omega), h.requests, fun r hr => ?_, fun r hr => ?_,
    fun r hr r' hr' j hj => ?_, fun r hr hout => ?_, fun r hr hout j hj => ?_, fun x => ?_,
    fun x hx hx' => ?_⟩
  · rw [armedAt_memory, accessible_update (by simp [hbyte])]
    exact h.access x
  · rcases (hplaced r).mp hr with rfl | hr
    · exact hb
    · exact h.after r hr
  · rcases (hplaced r).mp hr with rfl | hr
    · refine ⟨_, hself, htarget, rfl, hresolved.symm, fun hnone => ?_, fun x hx => ?_⟩
      · rw [hresolved] at hnone
        cases hnone
      · rw [hresolved] at hx
        cases hx
        exact ⟨t.next, rfl, ExtTreeMap.getElem?_insert_self⟩
    · obtain ⟨hr₀, hne⟩ := hearlier r hr
      obtain ⟨r', hr', hrest⟩ := h.settled r hr
      refine ⟨r', (hother r hr₀ hne).trans hr', hrest.1, hrest.2.1, hrest.2.2.1, hrest.2.2.2.1,
        fun x hx => ?_⟩
      obtain ⟨j, hj, hjx⟩ := hrest.2.2.2.2 x hx
      exact ⟨j, hj, hkeep j x hjx⟩
  · rcases (hplaced r).mp hr with rfl | hr
    · rw [hself] at hr'
      cases hr'
      cases hj
      exact .inr h.next
    · obtain ⟨hr₀, hne⟩ := hearlier r hr
      rw [hother r hr₀ hne] at hr'
      exact h.fresh r hr r' hr' j hj
  · rw [hother r hr fun heq => hout (heq ▸ hb)]
    exact h.waiting r hr hout
  · obtain ⟨x, hx⟩ := Option.ne_none_iff_exists'.mp (hs.recorded r hr (by simp [hj]))
    have := h.known r hr hout j hj
    rw [hx] at this ⊢
    exact hkeep j x this
  · rw [armedAt_table, ExtTreeMap.mem_insert, h.armed x]
    constructor
    · rintro (heq | ⟨r, hr, hr'⟩ | hold)
      · exact .inl ⟨b, (hplaced b).mpr (.inl rfl), by rw [hresolved]; congr 1; simpa using heq⟩
      · exact .inl ⟨r, (hplaced r).mpr (.inr hr), hr'⟩
      · exact .inr hold
    · rintro (⟨r, hr, hr'⟩ | hold)
      · rcases (hplaced r).mp hr with rfl | hr
        · rw [hresolved] at hr'
          cases hr'
          exact .inl (by simp)
        · exact .inr (.inl ⟨r, hr, hr'⟩)
      · exact .inr (.inr hold)
  · have hne : a ≠ x := by
      rintro rfl
      exact hx' b ((hplaced b).mpr (.inl rfl)) hresolved
    rw [armedAt_table, ExtTreeMap.getElem?_insert, if_neg (by simpa using hne)]
    exact h.others x hx fun r hr => hx' r ((hplaced r).mpr (.inr hr))

/-- `armRequest` does nothing for a target that does not resolve. -/
theorem wp_armRequest_none {Q : Post WaitCall Exception DeferredSession Unit}
    (h : Q.returned () t) : wp (DeferredBreakpoints.armRequest b none) Q t := h

theorem wp_armRequest_some {Q : Post WaitCall Exception DeferredSession Unit}
    (ht : t.Operational) (hvacant : a ∉ t.table) (hacc : accessible t.memory a = true)
    (h : Q.returned () (t.armedAt b a)) :
    wp (DeferredBreakpoints.armRequest b (some a)) Q t := by
  have haccepts : t.session.AcceptsBreakpoint a := by
    refine ⟨ht.policy, ht.ready, Bool.eq_false_iff.mpr fun hin => hvacant ?_⟩
    exact ExtTreeMap.contains_iff_mem.mp hin
  have hacc : accessible (memoryOf t.session t.session.dbg.process.currentTid) a = true := hacc
  simp only [DeferredBreakpoints.armRequest, DeferredBreakpoints.store, DeferredBreakpoints.modify,
    MiniDebugger.arm, record, debugger, wp_bind, wp_update, wp_zoom]
  rw [wp_addBreakpoint_exact ht.faults haccepts, if_pos hacc]
  exact h

theorem wp_dropStale {Q : Post WaitCall Exception DeferredSession Unit}
    (hid : t.ids[id]? = some a) (h : Q.returned () (t.leave b id a)) :
    wp (DeferredBreakpoints.dropStale b id) Q t := by
  have hids : t.session.dbg.breakpointIds[id]? = some a := hid
  simp only [DeferredBreakpoints.dropStale, DeferredBreakpoints.store, DeferredBreakpoints.modify,
    MiniDebugger.discard, record, debugger, discardBreakpoint, wp_bind, wp_update, wp_zoom, wp_view,
    hids, wp_modifyDebugger, wp_pure, wp_ite]
  exact h

/-- Where a request has to be armed there is nothing yet. -/
theorem Progress.vacant (h : Progress f s placed left t) (hs : s.Consistent)
    (hcompat : Compatible f s) (hb : b ∈ s.requests) (hnew : b ∉ placed) (harms : b.Arms f a) :
    a ∉ t.table := by
  rw [h.armed a]
  rintro (⟨r, hr, hresolved⟩ | ⟨hold, -⟩)
  · have hr₀ := h.requests r (h.after r hr)
    by_cases hboth : r.Arms f a
    · exact hnew (hcompat.apart r hr₀ b hb a hboth harms ▸ hr)
    · have hheld : r.breakpointId ≠ none ∧ r.address = some a := by
        simpa [DeferredBreakpoint.Arms, hresolved] using hboth
      obtain ⟨j, hj⟩ := Option.ne_none_iff_exists'.mp hheld.1
      exact hcompat.vacant b hb a harms (hcompat.mem_table hs hr₀ hj hheld.2)
  · exact hcompat.vacant b hb a harms hold

/-- One pass of the loop settles one request. -/
theorem Progress.step {modules : Modules} {done : List DeferredBreakpoint}
    (h : Progress f s done done t) (hs : s.Consistent) (hcompat : Compatible f s)
    (hanswers : modules.Answers f) (hb : b ∈ s.requests) (hnew : b ∉ done) :
    wp (DeferredBreakpoints.reconcileRequest modules b)
      ⟨fun _ => Progress f s (done ++ [b]) (done ++ [b]), fun _ _ => False, fun _ _ => False⟩ t := by
  have hmem : ∀ r, r ∈ done ++ [b] ↔ r = b ∨ r ∈ done := by
    intro r
    simp [or_comm]
  have hself : b ∈ done ++ [b] := (hmem b).mpr (.inl rfl)
  have hwaiting := h.waiting b hb hnew
  simp only [DeferredBreakpoints.reconcileRequest, hanswers b.target, wp_bind, wp_pure]
  rcases hid : b.breakpointId with _ | id
  · have hstay := h.stay hb hmem fun x hl => hl.1 hid
    rcases hf : f b.target with _ | x
    · refine wp_armRequest_none (hstay.place hself hmem ⟨b, hwaiting, rfl, rfl, ?_, ?_, ?_⟩ ?_ ?_)
      · rw [hf, hcompat.clean b hb hid hf]
      · exact fun _ => hid
      · rw [hf]
        rintro _ ⟨⟩
      · intro r' hr' j hj
        rw [hwaiting] at hr'
        cases hr'
        exact .inl hj
      · rw [hf]
        rintro _ ⟨⟩
    · have harms : b.Arms f x := ⟨hf, .inl hid⟩
      have hvacant := h.vacant hs hcompat hb hnew harms
      have hacc : accessible t.memory x = true := h.access x ▸ hcompat.mapped b hb x harms
      exact wp_armRequest_some h.operational hvacant hacc
        (hstay.arm hs hself rfl rfl hnew hmem hf hvacant hacc)
  · obtain ⟨a, ha⟩ := Option.ne_none_iff_exists'.mp (hs.recorded b hb (by simp [hid]))
    have hknown : t.ids[id]? = some a := ha ▸ h.known b hb hnew id hid
    simp only [ha, wp_ite, wp_bind, wp_pure]
    split
    · rename_i hf
      have hstay := h.stay hb hmem fun x hl => hl.2.2 (hf.trans (ha.symm.trans hl.2.1))
      refine hstay.place hself hmem ⟨b, hwaiting, rfl, rfl, ?_, ?_, ?_⟩ ?_ ?_
      · rw [hf, ha]
      · intro hnone
        rw [hf] at hnone
        cases hnone
      · intro x hx
        rw [hf] at hx
        cases hx
        exact ⟨id, hid, hknown⟩
      · intro r' hr' j hj
        rw [hwaiting] at hr'
        cases hr'
        exact .inl hj
      · intro x hx
        rw [hf] at hx
        cases hx
        obtain ⟨bp, hbp, -⟩ := h.sound.backward id a hknown
        exact ExtTreeMap.mem_iff_isSome_getElem?.mpr (Option.isSome_iff_exists.mpr ⟨bp, hbp⟩)
    · rename_i hstale
      have hleave := h.leave hs hcompat hb hnew hmem hid ha hstale
      refine wp_dropStale hknown ?_
      dsimp only
      have hleft : (t.leave b id a).deferred.requests[b.requestId]? =
          some { b with breakpointId := none, address := none } :=
        ExtTreeMap.getElem?_insert_self
      rcases hf : f b.target with _ | x
      · refine wp_armRequest_none (hleave.place hself hmem ⟨_, hleft, rfl, rfl, hf.symm, ?_, ?_⟩ ?_ ?_)
        · exact fun _ => rfl
        · rw [hf]
          rintro _ ⟨⟩
        · intro r' hr' j hj
          rw [hleft] at hr'
          cases hr'
          cases hj
        · rw [hf]
          rintro _ ⟨⟩
      · have harms : b.Arms f x := by
          refine ⟨hf, .inr fun haddress => hstale ?_⟩
          rw [hf, ← ha, haddress]
        have hvacant := hleave.vacant hs hcompat hb hnew harms
        have hacc : accessible (t.leave b id a).memory x = true :=
          hleave.access x ▸ hcompat.mapped b hb x harms
        exact wp_armRequest_some hleave.operational hvacant hacc
          (hleave.arm hs hself rfl rfl hnew hmem hf hvacant hacc)

theorem nodup_requests (hs : s.Consistent) : s.requests.Nodup := by
  refine List.Nodup.map_on ?_ ?_
  · rintro ⟨n, r⟩ hn ⟨m, r'⟩ hm heq
    obtain rfl : r = r' := heq
    have hn := hs.filed n r (ExtTreeMap.mem_toList_iff_getElem?_eq_some.mp hn)
    have hm := hs.filed m r (ExtTreeMap.mem_toList_iff_getElem?_eq_some.mp hm)
    rw [← hn, ← hm]
  · exact ExtTreeMap.distinct_keys_toList.imp fun hne heq => hne (by simp [heq])

/-- Compatible requests are reconciled, whatever their order. -/
theorem reconciles_of_compatible {modules : Modules} (hanswers : modules.Answers f)
    (hop : s.Operational) (hs : s.Consistent) (hcompat : Compatible f s) :
    ReconcilesInAnyOrder modules f s := by
  intro order horder
  have hstart : Progress f s [] [] s :=
    { operational := hop, access := fun _ => rfl, sound := hs.sound, next := le_rfl,
      requests := by simp, after := by simp, settled := by simp, fresh := by simp,
      waiting := fun r hr _ => hs.getElem hr, known := fun r hr _ => hcompat.known r hr,
      armed := by simp, others := fun _ _ _ => rfl }
  refine wp_mono (wp_forEach_done (I := fun done => Progress f s done done)
    (fun done b rest hsplit t ht => ?_) s hstart) ?_ (fun _ _ h => h) (fun _ _ h => h)
  · have hb : b ∈ s.requests := horder.subset (by simp [hsplit])
    have hnodup := horder.nodup_iff.mpr (nodup_requests hs)
    refine ht.step hs hcompat hanswers hb fun hmem => ?_
    rw [hsplit] at hnodup
    exact (List.nodup_append.mp hnodup).2.2 b hmem b (by simp) rfl
  · intro _ t ht
    have hall : ∀ r, r ∈ order ↔ r ∈ s.requests := fun r => horder.mem_iff
    refine ⟨fun r hr => ht.settled r ((hall r).mpr hr), fun x => ?_, fun x hx => ?_⟩
    · rw [ht.armed x]
      simp only [hall]
    · exact ht.others x (fun r hr => (hx r ((hall r).mp hr)).2) fun r hr => (hx r ((hall r).mp hr)).1

/-! ## What a loop that gets through shows -/

theorem armRequest_returns {R : DeferredSession → Prop} (ht : t.Operational)
    (h : wp (DeferredBreakpoints.armRequest b (some a))
      ⟨fun _ => R, fun _ _ => False, fun _ _ => False⟩ t) :
    a ∉ t.table ∧ accessible t.memory a = true ∧ R (t.armedAt b a) := by
  simp only [DeferredBreakpoints.armRequest, DeferredBreakpoints.store, DeferredBreakpoints.modify,
    MiniDebugger.arm, record, debugger, wp_bind, wp_update, wp_zoom] at h
  have hvacant : a ∉ t.table := by
    have := wp_and h (wp_addBreakpoint (Q := ⟨fun _ _ => a ∉ t.table, fun _ _ => True,
      fun _ _ => True⟩) (fun _ _ _ _ _ hnew _ _ => hnew) (fun _ _ => trivial))
    unfold wp at this
    split at this
    · exact this.2
    · exact this.1.elim
    · exact this.1.elim
  have haccepts : t.session.AcceptsBreakpoint a := by
    refine ⟨ht.policy, ht.ready, Bool.eq_false_iff.mpr fun hin => hvacant ?_⟩
    exact ExtTreeMap.contains_iff_mem.mp hin
  rw [wp_addBreakpoint_exact ht.faults haccepts] at h
  split at h
  · exact ⟨hvacant, ‹_›, h⟩
  · exact h.elim

theorem dropStale_returns {R : DeferredSession → Prop}
    (h : wp (DeferredBreakpoints.dropStale b id)
      ⟨fun _ => R, fun _ _ => False, fun _ _ => False⟩ t) :
    ∃ a, t.ids[id]? = some a ∧ R (t.leave b id a) := by
  simp only [DeferredBreakpoints.dropStale, DeferredBreakpoints.store, DeferredBreakpoints.modify,
    MiniDebugger.discard, record, debugger, discardBreakpoint, wp_bind, wp_update, wp_zoom, wp_view]
    at h
  rcases hids : t.session.dbg.breakpointIds[id]? with _ | a
  · rw [hids] at h
    exact h.elim
  · rw [hids] at h
    exact ⟨a, hids, h⟩

/-- What the passes for other requests leave alone: the record of `b`, and the meaning of the
ids issued so far. -/
structure Elsewhere (s : DeferredSession) (b : DeferredBreakpoint) (t : DeferredSession) : Prop where
  record : t.deferred.requests[b.requestId]? = some b
  next : s.next ≤ t.next
  ids : ∀ (id : Nat) (a : Addr), id < s.next → t.ids[id]? = some a → s.ids[id]? = some a

theorem elsewhere_store {r : DeferredBreakpoint} (hne : r.requestId ≠ b.requestId) :
    Preserves (Elsewhere s b) (DeferredBreakpoints.store r) := by
  refine Preserves.update fun t ht => ⟨?_, ht.next, ht.ids⟩
  rw [ExtTreeMap.getElem?_insert, if_neg (by simpa using hne)]
  exact ht.record

theorem elsewhere_arm (x : Addr) : Preserves (Elsewhere s b) (MiniDebugger.arm x) := by
  intro t ht
  simp only [MiniDebugger.arm, record, debugger, wp_bind, wp_update, wp_zoom]
  refine wp_addBreakpoint (fun faults original _ _ _ _ _ _ => ⟨ht.record, ?_, fun j y hj hy => ?_⟩)
    (fun faults e => ⟨ht.record, ht.next, ht.ids⟩)
  · exact ht.next.trans (Nat.le_succ _)
  · refine ht.ids j y hj ?_
    have hne : t.next ≠ j := by
      have := ht.next
      omega
    have hget : (t.ids.insert t.next x)[j]? = some y := hy
    rwa [ExtTreeMap.getElem?_insert, if_neg (by simpa using hne)] at hget

theorem elsewhere_discard (j : Nat) : Preserves (Elsewhere s b) (MiniDebugger.discard j) := by
  intro t ht
  simp only [MiniDebugger.discard, record, debugger, discardBreakpoint, wp_bind, wp_update, wp_zoom,
    wp_view]
  rcases hids : t.session.dbg.breakpointIds[j]? with _ | x
  · exact ⟨ht.record, ht.next, ht.ids⟩
  · have hleave := @leave_ids t b j x
    have hnext := @leave_next t b j x
    refine ⟨ht.record, hnext ▸ ht.next, fun k y hk hy => ht.ids k y hk ?_⟩
    have hget : (t.ids.erase j)[k]? = some y := hleave ▸ hy
    rw [ExtTreeMap.getElem?_erase] at hget
    split at hget
    · cases hget
    · exact hget

theorem elsewhere_armRequest {r : DeferredBreakpoint} (hne : r.requestId ≠ b.requestId)
    (resolved : Option Addr) :
    Preserves (Elsewhere s b) (DeferredBreakpoints.armRequest r resolved) := by
  cases resolved with
  | none => exact Preserves.pure ()
  | some x =>
    refine (elsewhere_store ?_).bind fun _ => (elsewhere_arm x).bind fun _ => elsewhere_store ?_
    · exact hne
    · exact hne

theorem elsewhere_reconcileRequest {modules : Modules} (hanswers : modules.Answers f)
    {r : DeferredBreakpoint} (hne : r.requestId ≠ b.requestId) :
    Preserves (Elsewhere s b) (DeferredBreakpoints.reconcileRequest modules r) := by
  unfold DeferredBreakpoints.reconcileRequest
  rw [hanswers r.target]
  refine (Preserves.pure _).bind fun resolved => ?_
  cases r.breakpointId with
  | none => exact elsewhere_armRequest hne resolved
  | some j =>
    dsimp only
    cases r.address with
    | none => exact Preserves.raise _
    | some x =>
      refine Preserves.ite (Preserves.pure _) ?_
      refine Preserves.bind ((elsewhere_discard j).bind fun _ => Preserves.check ?_)
        fun _ => elsewhere_armRequest hne resolved
      exact elsewhere_store hne

/-- The loop over other requests. -/
theorem elsewhere_forEach {modules : Modules} (hanswers : modules.Answers f)
    {rest : List DeferredBreakpoint} (hne : ∀ r ∈ rest, r.requestId ≠ b.requestId) :
    Preserves (Elsewhere s b) (forEach (DeferredBreakpoints.reconcileRequest modules) rest) := by
  induction rest with
  | nil => exact Preserves.pure ()
  | cons r rest ih =>
    refine (elsewhere_reconcileRequest hanswers (hne r List.mem_cons_self)).bind fun _ => ?_
    exact ih fun r' hr' => hne r' (List.mem_cons_of_mem r hr')

/-- The ways in which the pass for `b` can get through to a session that meets `R`. -/
inductive Passes (f : DeferredBreakpointTarget → Option Addr) (t : DeferredSession)
    (b : DeferredBreakpoint) (R : DeferredSession → Prop) : Prop
  | waits (hid : b.breakpointId = none) (hf : f b.target = none) (hR : R t)
  | keeps (id : Nat) (hid : b.breakpointId = some id) (ha : b.address ≠ none)
      (hf : f b.target = b.address) (hR : R t)
  | arms (x : Addr) (hid : b.breakpointId = none) (hf : f b.target = some x)
      (hvacant : x ∉ t.table) (hacc : accessible t.memory x = true) (hR : R (t.armedAt b x))
  | drops (id : Nat) (a : Addr) (hid : b.breakpointId = some id) (ha : t.ids[id]? = some a)
      (hf : f b.target = none)
  | moves (id : Nat) (a x : Addr) (hid : b.breakpointId = some id) (ha : t.ids[id]? = some a)
      (hf : f b.target = some x) (hvacant : x ∉ (t.leave b id a).table)
      (hacc : accessible t.memory x = true) (hR : R ((t.leave b id a).armedAt b x))

theorem passes_of_returns {modules : Modules} {R : DeferredSession → Prop}
    (hanswers : modules.Answers f) (ht : t.Operational)
    (h : wp (DeferredBreakpoints.reconcileRequest modules b)
      ⟨fun _ => R, fun _ _ => False, fun _ _ => False⟩ t) : Passes f t b R := by
  simp only [DeferredBreakpoints.reconcileRequest, hanswers b.target, wp_bind, wp_pure] at h
  rcases hid : b.breakpointId with _ | id
  · rw [hid] at h
    rcases hf : f b.target with _ | x
    · rw [hf] at h
      exact .waits hid hf h
    · rw [hf] at h
      obtain ⟨hvacant, hacc, hR⟩ := armRequest_returns ht h
      exact .arms x hid hf hvacant hacc hR
  · rw [hid] at h
    rcases ha : b.address with _ | a
    · rw [ha] at h
      exact h.elim
    · simp only [ha, wp_ite, wp_bind, wp_pure] at h
      split at h
      · rename_i hf
        exact .keeps id hid (by simp [ha]) (hf.trans ha.symm) h
      · obtain ⟨y, hy, hrest⟩ := dropStale_returns h
        rcases hf : f b.target with _ | x
        · exact .drops id y hid hy hf
        · rw [hf] at hrest
          obtain ⟨hvacant, hacc, hR⟩ := armRequest_returns ht.leave hrest
          rw [leave_memory] at hacc
          exact .moves id y x hid hy hf hvacant hacc hR

/-- A pass that has to arm its request at `x` found `x` free and leaves it taken. -/
theorem Passes.arming {R : DeferredSession → Prop} {x : Addr} (h : Passes f t b R)
    (ht : t.Operational)
    (hnamed : ∀ id a, b.breakpointId = some id → t.ids[id]? = some a → b.address = some a)
    (harms : b.Arms f x) :
    x ∉ t.table ∧ accessible t.memory x = true ∧
      ∃ u : DeferredSession, R u ∧ u.Operational ∧ x ∈ u.table ∧
        ∀ (id : Nat) (a : Addr), id < t.next → u.ids[id]? = some a → t.ids[id]? = some a := by
  have hheld : ∀ id, b.breakpointId = some id → b.address ≠ some x := by
    intro id hid
    exact harms.2.resolve_left (by simp [hid])
  cases h with
  | waits _ hf _ =>
    rw [harms.1] at hf
    cases hf
  | keeps id hid _ hf _ => exact absurd (hf.symm.trans harms.1) (hheld id hid)
  | arms y hid hf hvacant hacc hR =>
    obtain rfl : y = x := Option.some.inj (hf.symm.trans harms.1)
    refine ⟨hvacant, hacc, _, hR, ⟨ht.ready, ht.policy, ht.faults⟩, ?_, fun id a hid ha => ?_⟩
    · rw [armedAt_table]
      exact ExtTreeMap.mem_insert_self
    · rw [armedAt_ids, ExtTreeMap.getElem?_insert, if_neg (by simp; omega)] at ha
      exact ha
  | drops id a _ _ hf =>
    rw [harms.1] at hf
    cases hf
  | moves id a y hid ha hf hvacant hacc hR =>
    obtain rfl : y = x := Option.some.inj (hf.symm.trans harms.1)
    have hne : a ≠ y := by
      rintro rfl
      exact hheld id hid (hnamed id a hid ha)
    rw [leave_table, ExtTreeMap.mem_erase] at hvacant
    have hleave : (t.leave b id a).Operational := ht.leave
    refine ⟨fun hin => hvacant ⟨by simpa using hne, hin⟩, hacc, _, hR,
      ⟨hleave.ready, hleave.policy, hleave.faults⟩, ?_, fun j z hj hz => ?_⟩
    · rw [armedAt_table]
      exact ExtTreeMap.mem_insert_self
    · rw [armedAt_ids, leave_next, ExtTreeMap.getElem?_insert, if_neg (by simp; omega), leave_ids,
        ExtTreeMap.getElem?_erase] at hz
      split at hz
      · cases hz
      · exact hz

/-- The record of `b` at the end of a loop over the other requests. -/
theorem settled_of_forEach {modules : Modules} {rest : List DeferredBreakpoint}
    (hanswers : modules.Answers f) (hs : s.Consistent) (hb : b ∈ s.requests)
    (hne : ∀ r ∈ rest, r.requestId ≠ b.requestId)
    (h : wp (forEach (DeferredBreakpoints.reconcileRequest modules) rest)
      ⟨fun _ u => Reconciled f s u, fun _ _ => False, fun _ _ => False⟩ s) :
    b.address = f b.target ∧ ∀ id a, b.breakpointId = some id → f b.target = some a →
      s.ids[id]? = some a := by
  have hstart : Elsewhere s b s := ⟨hs.getElem hb, le_rfl, fun _ _ _ h => h⟩
  have := wp_and (elsewhere_forEach hanswers hne s hstart) h
  unfold wp at this
  split at this
  · obtain ⟨helse, hdone⟩ := this
    obtain ⟨r', hr', -, -, haddress, -, hsome⟩ := hdone.settled b hb
    rw [helse.record] at hr'
    cases hr'
    refine ⟨haddress, fun id a hid hf => ?_⟩
    obtain ⟨j, hj, hja⟩ := hsome a hf
    rw [hid] at hj
    cases hj
    exact helse.ids id a (hs.issued b hb id hid) hja
  · exact this.2.elim
  · exact this.2.elim

theorem ReconcilesInAnyOrder.first {modules : Modules} (h : ReconcilesInAnyOrder modules f s)
    {rest : List DeferredBreakpoint} (hperm : (b :: rest).Perm s.requests) :
    wp (DeferredBreakpoints.reconcileRequest modules b)
      ⟨fun _ t => wp (forEach (DeferredBreakpoints.reconcileRequest modules) rest)
        ⟨fun _ u => Reconciled f s u, fun _ _ => False, fun _ _ => False⟩ t,
        fun _ _ => False, fun _ _ => False⟩ s := by
  have := h _ hperm
  rwa [forEach, wp_bind] at this

/-- Requests that can be reconciled in any order are compatible. -/
theorem compatible_of_reconciles {modules : Modules} (hanswers : modules.Answers f)
    (hop : s.Operational) (hs : s.Consistent) (h : ReconcilesInAnyOrder modules f s) :
    Compatible f s := by
  have hothers : ∀ b ∈ s.requests, ∀ r ∈ s.requests.erase b, r.requestId ≠ b.requestId := by
    intro b hb r hr
    have hne := ((nodup_requests hs).mem_erase_iff.mp hr).1
    exact hs.requestId_ne hb (List.mem_of_mem_erase hr) hne.symm
  have hpass := fun (b : DeferredBreakpoint) (hb : b ∈ s.requests) =>
    passes_of_returns hanswers hop (h.first (List.perm_cons_erase hb).symm)
  refine ⟨fun b hb id hid => ?_, fun b hb x harms => ?_, fun b hb x harms => ?_,
    fun b hb r hr x harms harms' => ?_, fun b hb hid hf => ?_⟩
  · cases hpass b hb with
    | waits hid' => rw [hid] at hid'; cases hid'
    | arms _ hid' => rw [hid] at hid'; cases hid'
    | keeps _ _ ha hf hR =>
      obtain ⟨a, ha⟩ := Option.ne_none_iff_exists'.mp ha
      rw [ha]
      exact (settled_of_forEach hanswers hs hb (hothers b hb) hR).2 id a hid (hf.trans ha)
    | drops j a hid' ha _ =>
      rw [hid] at hid'
      cases hid'
      rw [ha, hs.named b hb id a hid ha]
    | moves j a _ hid' ha =>
      rw [hid] at hid'
      cases hid'
      rw [ha, hs.named b hb id a hid ha]
  · exact ((hpass b hb).arming hop (hs.named b hb) harms).1
  · exact ((hpass b hb).arming hop (hs.named b hb) harms).2.1
  · by_contra hne
    have hr' : r ∈ s.requests.erase b := (List.mem_erase_of_ne (Ne.symm hne)).mpr hr
    have hperm : (b :: r :: (s.requests.erase b).erase r).Perm s.requests :=
      ((List.perm_cons_erase hr').symm.cons b).trans (List.perm_cons_erase hb).symm
    obtain ⟨-, -, u, hu, huop, htaken, huids⟩ :=
      (passes_of_returns hanswers hop (h.first hperm)).arming hop (hs.named b hb) harms
    rw [forEach, wp_bind] at hu
    refine ((passes_of_returns hanswers huop hu).arming huop (fun id a hid ha => ?_) harms').1 htaken
    exact hs.named r hr id a hid (huids id a (hs.issued r hr id hid) ha)
  · cases hpass b hb with
    | waits _ _ hR =>
      rw [(settled_of_forEach hanswers hs hb (hothers b hb) hR).1, hf]
    | arms _ _ hf' => rw [hf] at hf'; cases hf'
    | keeps _ hid' => rw [hid] at hid'; cases hid'
    | drops _ _ hid' => rw [hid] at hid'; cases hid'
    | moves _ _ _ hid' => rw [hid] at hid'; cases hid'

end

end DeferredSession

/-- In a stopped process the requests are reconciled, in whatever order they stand, if and only if
they are compatible. -/
theorem reconciles_iff_compatible {modules : Modules}
    {f : DeferredBreakpointTarget → Option Addr} {s : DeferredSession}
    (hanswers : modules.Answers f) (hop : s.Operational) (hs : s.Consistent) :
    s.ReconcilesInAnyOrder modules f ↔ s.Compatible f :=
  ⟨DeferredSession.compatible_of_reconciles hanswers hop hs,
    DeferredSession.reconciles_of_compatible hanswers hop hs⟩

/-! ## Two requests -/

/-- Modules in which only some symbols can be found. -/
def Modules.ofSymbols (f : String → Option Addr) : Modules where
  loadBias := fun _ => .ok 0
  findModuleSymbolByName := fun _ name => .ok (f name)
  findModuleSourceByFileLine := fun _ _ _ => .ok none

/-- What these modules answer. -/
def symbolAddresses (f : String → Option Addr) (target : DeferredBreakpointTarget) : Option Addr :=
  match target.kind with
  | .symbol => f target.name
  | .source => none

theorem answers_ofSymbols (f : String → Option Addr) :
    (Modules.ofSymbols f).Answers (symbolAddresses f) := by
  intro target
  funext s
  cases hkind : target.kind <;>
    simp [DeferredBreakpoints.resolveTarget, consult, Modules.ofSymbols, symbolAddresses, hkind,
      bind, Command.read]

def firstRequest : DeferredBreakpoint := { requestId := 1, target := { kind := .symbol, name := "f" } }

def secondRequest : DeferredBreakpoint := { requestId := 2, target := { kind := .symbol, name := "g" } }

/-- A stopped process with two pending requests. -/
def twoRequests : DeferredSession where
  deferred := {
    metadata := ⟨0, 0⟩
    requests := ((∅ : ExtTreeMap Nat DeferredBreakpoint).insert 1 firstRequest).insert 2 secondRequest
    nextRequestId := 3 }
  session := Session.onePage

theorem twoRequests_requests : twoRequests.requests = [firstRequest, secondRequest] := by
  decide +kernel

theorem operational_twoRequests : twoRequests.Operational :=
  ⟨⟨rfl, by decide, by decide +kernel⟩, by decide, rfl⟩

theorem consistent_twoRequests : twoRequests.Consistent where
  sound := Domain.Sound.empty
  filed := by
    intro n r h
    simp only [twoRequests, ExtTreeMap.getElem?_insert] at h
    grind [firstRequest, secondRequest]
  recorded := by simp [twoRequests_requests, firstRequest, secondRequest]
  issued := by simp [twoRequests_requests, firstRequest, secondRequest]
  named := by simp [twoRequests_requests, firstRequest, secondRequest]
  distinct := by simp [twoRequests_requests, firstRequest, secondRequest]

/-- Two symbols at two addresses. -/
def twoAddresses : String → Option Addr
  | "f" => some 0x1000
  | "g" => some 0x1100
  | _ => none

theorem reconciles_twoRequests :
    twoRequests.ReconcilesInAnyOrder (Modules.ofSymbols twoAddresses) (symbolAddresses twoAddresses) := by
  have harms : ∀ r ∈ twoRequests.requests, ∀ x, r.Arms (symbolAddresses twoAddresses) x →
      r = firstRequest ∧ x = 0x1000 ∨ r = secondRequest ∧ x = 0x1100 := by
    rw [twoRequests_requests]
    intro r hr x hx
    rcases List.mem_pair.mp hr with rfl | rfl
    · exact .inl ⟨rfl, (Option.some.inj hx.1).symm⟩
    · exact .inr ⟨rfl, (Option.some.inj hx.1).symm⟩
  refine (reconciles_iff_compatible (answers_ofSymbols _) operational_twoRequests
    consistent_twoRequests).mpr ⟨?_, fun r hr x hx => ?_, fun r hr x hx => ?_,
      fun r hr r' hr' x hx hx' => ?_, ?_⟩
  · simp [twoRequests_requests, firstRequest, secondRequest]
  · exact ExtTreeMap.not_mem_empty
  · rcases harms r hr x hx with ⟨-, rfl⟩ | ⟨-, rfl⟩
    · decide +kernel
    · decide +kernel
  · have := harms r hr x hx
    have := harms r' hr' x hx'
    grind
  · simp [twoRequests_requests, firstRequest, secondRequest]

/-- Two requests whose symbols are at one address. -/
theorem one_address_throws :
    ¬∀ (modules : Modules) (f : DeferredBreakpointTarget → Option Addr) (s : DeferredSession),
      modules.Answers f → s.Operational → s.Consistent → s.ReconcilesInAnyOrder modules f := by
  intro h
  have hcompat := DeferredSession.compatible_of_reconciles (answers_ofSymbols fun _ => some 0x1000)
    operational_twoRequests consistent_twoRequests (h _ _ _ (answers_ofSymbols _)
      operational_twoRequests consistent_twoRequests)
  have := hcompat.apart firstRequest (by simp [twoRequests_requests]) secondRequest
    (by simp [twoRequests_requests]) 0x1000 ⟨rfl, .inl rfl⟩ ⟨rfl, .inl rfl⟩
  exact absurd this (by decide)

end MiniDebugger
