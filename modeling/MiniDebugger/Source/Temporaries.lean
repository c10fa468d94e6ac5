import MiniDebugger.Debugger.Entries
import MiniDebugger.Loader.LoneTable
import MiniDebugger.Source.Motion

/-!
# Temporary breakpoints

`next` and `finish` put a breakpoint at a return address and take it away again. Between the two the
tracees do what they like: the table the breakpoint is in can be dropped by an `exec`, or exchanged
for that of another process. Whatever happens, a command that returns has left no breakpoint behind
in the table of any process; one that throws can have left its own, and no other.
-/

namespace MiniDebugger

open Command
open Relation (ReflTransGen)
open Std (ExtTreeMap)

def Session.Has (s : Session) (address : Addr) (id : Nat) : Prop := s.dbg.holdings.Has address id

def Session.Booked (s : Session) : Prop := s.dbg.ledger.Booked

section Rules

variable {sources : SourceFinder} {tracees : Tracees} {s t : Session} {d : Debugger}
  {address : Addr} {what : String}

theorem Session.Booked.of_ledger (h : s.Booked) (hledger : t.dbg.ledger = s.dbg.ledger) :
    t.Booked := by
  unfold Session.Booked
  rw [hledger]
  exact h

theorem Session.Turned.booked (h : t.Turned s.dbg) (hs : s.Booked) : t.Booked := by
  have hturns : ∀ H, ReflTransGen Holdings.Turn s.dbg.holdings H →
      H.Booked s.dbg.nextBreakpointId := by
    intro H hH
    induction hH with
    | refl => exact hs
    | tail _ hturn ih => exact ih.turn hturn
  have := hturns _ h.turns
  rwa [← h.nextBreakpoint] at this

theorem Session.Turned.has (h : t.Turned s.dbg) {a : Addr} {i : Nat} (hhas : t.Has a i) :
    s.Has a i := Holdings.turns_has h.turns hhas

/-! ## One temporary breakpoint -/

/-- The tables of a session in which a breakpoint has been added. -/
structure Session.Placed (s t : Session) (address : Addr) : Prop where
  new : s.dbg.holdings.active.table[address]? = none
  holdings : ∃ original, t.dbg.holdings = { s.dbg.holdings with
    active := s.dbg.holdings.active.insert s.dbg.nextBreakpointId address original }
  next : t.dbg.nextBreakpointId = s.dbg.nextBreakpointId + 1

theorem Session.Placed.booked (h : s.Placed t address) (hs : s.Booked) : t.Booked := by
  obtain ⟨original, hholdings⟩ := h.holdings
  refine ⟨?_, fun pid domain hdomain => ?_⟩
  · rw [Debugger.ledger, hholdings, h.next]
    exact hs.active.insert h.new
  · rw [Debugger.ledger, hholdings] at hdomain
    rw [Debugger.ledger, h.next]
    exact (hs.retained pid domain hdomain).mono (Nat.le_succ _)

theorem Session.Placed.has (h : s.Placed t address) {a : Addr} {i : Nat} (hhas : t.Has a i) :
    s.Has a i ∨ a = address ∧ i = s.dbg.nextBreakpointId := by
  obtain ⟨original, hholdings⟩ := h.holdings
  rw [Session.Has, hholdings] at hhas
  obtain hhas | hhas := hhas
  · obtain hnew | ⟨-, hold⟩ := Holding.has_insert.mp hhas
    · exact .inr hnew
    · exact .inl (.inl hold)
  · exact .inl (.inr hhas)

theorem wp_addBreakpoint_placed {Q : Post WaitCall Exception Session Nat}
    (added : ∀ t, s.Placed t address → Q.returned s.dbg.nextBreakpointId t)
    (raised : ∀ faults e, Q.raised e { s with faults }) : wp (addBreakpoint address) Q s := by
  refine wp_addBreakpoint (fun faults original _ _ _ hnew _ _ => ?_) raised
  refine added _ ⟨?_, ⟨original, rfl⟩, rfl⟩
  simpa [Debugger.holdings, Debugger.holding] using hnew

/-- Removing the temporary breakpoint, if that is possible, gives back the tables there were before
it was placed. -/
theorem wp_removePlaced {u : Session} (hs : s.Booked) (hu : s.Placed u address)
    (ht : t.Turned u.dbg) {Q : Post WaitCall Exception Session Bool}
    (unknown : Q.returned false t)
    (removed : ∀ v, s.dbg.holdings.Kept v.dbg.holdings → v.Booked →
      v.dbg.nextBreakpointId = s.dbg.nextBreakpointId + 1 → Q.returned true v)
    (raised : ∀ faults e, Q.raised e { t with faults }) :
    wp (removeBreakpoint s.dbg.nextBreakpointId) Q t := by
  have htb := ht.booked (hu.booked hs)
  have hnext : t.dbg.nextBreakpointId = s.dbg.nextBreakpointId + 1 :=
    ht.nextBreakpoint.trans hu.next
  obtain ⟨original, hholdings⟩ := hu.holdings
  have erased : ∀ (v : Session) (a : Addr),
      t.dbg.breakpointIds[s.dbg.nextBreakpointId]? = some a →
      v.dbg = (t.dbg.clearPendingStep a).eraseBreakpoint s.dbg.nextBreakpointId a →
      Q.returned true v := by
    intro v a hid hv
    -- the entry is still there, so the tables are those it was added to
    have hhas : t.dbg.holdings.active.Has a s.dbg.nextBreakpointId := (htb.active.listed _ _).mp hid
    have hkept : u.dbg.holdings.Kept t.dbg.holdings := by
      refine Holdings.kept_of_turns ht.turns (fun pid domain b hdomain hb => ?_) (.inl hhas)
      rw [hholdings] at hdomain
      exact lt_irrefl _ ((hs.retained pid domain hdomain).below _ _ hb)
    have ha : a = address := by
      have := (hkept.active _ _).mp hhas
      rw [hholdings] at this
      obtain ⟨rfl, -⟩ | ⟨-, hold⟩ := Holding.has_insert.mp this
      · rfl
      · exact (lt_irrefl _ (hs.active.below _ _ hold)).elim
    subst ha
    have hstep : v.dbg.holdings = { t.dbg.holdings with
        active := t.dbg.holdings.active.erase s.dbg.nextBreakpointId a } := by
      have hclear := ledger_clearPendingStep t.dbg a
      rw [hv]
      exact congrArg (fun L : Ledger => { L.holdings with
        active := L.holdings.active.erase s.dbg.nextBreakpointId a }) hclear
    have hcounter : v.dbg.nextBreakpointId = t.dbg.nextBreakpointId := by
      rw [hv]
      exact congrArg Ledger.nextBreakpoint (ledger_clearPendingStep t.dbg a)
    refine removed v ⟨fun b i => ?_, fun pid domain hdomain => ?_, fun pid domain hdomain => ?_⟩ ?_
      (hcounter.trans hnext)
    · rw [hstep, Holding.has_erase, hkept.active, hholdings, Holding.has_insert]
      have hout : s.dbg.holdings.active.Has b i → b ≠ a := by
        rintro ⟨bp, hbp, -⟩ rfl
        rw [hu.new] at hbp
        cases hbp
      grind
    · rw [hstep]
      exact hkept.retained pid domain (by rwa [hholdings])
    · rw [hstep] at hdomain
      have := hkept.new pid domain hdomain
      rwa [hholdings] at this
    · refine ⟨?_, fun pid domain hdomain => ?_⟩
      · rw [Debugger.ledger, hstep, hcounter]
        exact htb.active.erase hid
      · rw [Debugger.ledger, hstep] at hdomain
        rw [Debugger.ledger, hcounter]
        exact htb.retained pid domain hdomain
  exact wp_removeBreakpoint (fun _ => unknown)
    (fun a bp faults hid _ _ _ _ => erased _ a hid rfl) (fun a hid _ => erased _ a hid rfl) raised

theorem Holdings.Kept.has {H K : Holdings} (h : H.Kept K) {a : Addr} {i : Nat}
    (hhas : K.Has a i) : H.Has a i := by
  obtain hhas | ⟨pid, domain, hdomain, hhas⟩ := hhas
  · exact .inl ((h.active a i).mp hhas)
  · obtain hold | hnone := h.new pid domain hdomain
    · exact .inr ⟨pid, domain, hold, hhas⟩
    · exact (hnone a i hhas).elim

/-- There is no breakpoint at the address. -/
def Session.Free (s : Session) (address : Addr) : Prop :=
  ∀ (a : Addr) (bp : Breakpoint), s.dbg.breakpointsByAddress[a]? = some bp → bp.address ≠ address

/-- Running to an address: a run that returns has left the tables as they were, if the breakpoint
there was its own; one that throws has added at most that. -/
theorem wp_runTo (hs : s.Booked) {Q : Post WaitCall Exception Session (Bool × StopInfo)}
    (returned : ∀ t user stop, t.Booked → s.dbg.nextBreakpointId ≤ t.dbg.nextBreakpointId →
      (s.Free address → s.dbg.holdings.Kept t.dbg.holdings) → (∀ a i, t.Has a i → s.Has a i) →
      Q.returned (user, stop) t)
    (raised : ∀ t e, t.Booked → s.dbg.nextBreakpointId ≤ t.dbg.nextBreakpointId →
      (∀ a i, t.Has a i → s.Has a i ∨ a = address ∧ i = s.dbg.nextBreakpointId) → Q.raised e t)
    (blocked : ∀ w t, Q.blocked w t) : wp (runTo tracees what address) Q s := by
  have unchanged : ∀ faults e, Q.raised e { s with faults } := fun faults e =>
    raised { s with faults } e (hs.of_ledger rfl) le_rfl fun a i h => .inl h
  simp only [runTo, hasBreakpointAt, breakpoints, wp_bind, wp_view, wp_pure]
  unfold addTemporaryBreakpoint
  cases huser : (s.dbg.breakpointsByAddress.toList.map (·.2)).any (·.address = address) with
  | true =>
    have husers : ¬s.Free address := by
      simp only [List.any_map, List.any_eq_true, Function.comp_apply, decide_eq_true_eq] at huser
      obtain ⟨entry, hentry, heq⟩ := huser
      exact fun hfree => hfree entry.1 entry.2
        (ExtTreeMap.mem_toList_iff_getElem?_eq_some.mp hentry) heq
    simp only [if_true, wp_pure, wp_handle]
    refine wp_mono (turning_continueExecution s.turned) (fun stop t ht => ?_) (fun e t ht => ?_)
      fun _ _ _ => blocked _ _
    · exact returned t true stop (ht.booked hs) ht.nextBreakpoint.ge (fun h => (husers h).elim)
        fun a i h => ht.has h
    · simp only [abandonMotion, wp_bind, wp_view, Option.isSome_none, Bool.false_eq_true, false_and,
        if_false, wp_raise]
      exact raised t e (ht.booked hs) ht.nextBreakpoint.ge fun a i h => .inl (ht.has h)
  | false =>
    simp only [Bool.false_eq_true, if_false, wp_map, wp_handle]
    refine wp_addBreakpoint_placed (fun u hu => ?_) unchanged
    have litter : ∀ (t : Session) faults e, t.Turned u.dbg → Q.raised e { t with faults } := by
      intro t faults e ht
      refine raised _ e ((ht.booked (hu.booked hs)).of_ledger rfl) ?_ fun a i h => hu.has (ht.has h)
      exact (Nat.le_succ _).trans (ht.nextBreakpoint.trans hu.next).ge
    refine wp_mono (turning_continueExecution u.turned) (fun stop t ht => ?_) (fun e t ht => ?_)
      fun _ _ _ => blocked _ _
    · simp only [removeTemporaryBreakpoint, wp_bind]
      refine wp_removePlaced hs hu ht ?_ (fun v hv hb hnext => ?_) fun faults e => litter t faults e ht
      · exact litter t t.faults _ ht
      · exact returned v false stop hb (hnext ▸ Nat.le_succ _) (fun _ => hv) fun a i h => hv.has h
    · simp only [abandonMotion, wp_bind, wp_view, Option.isSome_some, true_and, wp_ite, wp_handle,
        wp_raise, wp_pure, removeTemporaryBreakpoint]
      split
      · refine wp_removePlaced hs hu ht ?_ (fun v hv hb hnext => ?_)
          fun faults _ => litter t faults e ht
        · exact litter t t.faults e ht
        · exact raised v e hb (hnext ▸ Nat.le_succ _) fun a i h => .inl (hv.has h)
      · exact litter t t.faults e ht

/-! ## Whole commands -/

/-- Every entry was there when the debugger was `d`. -/
structure Session.Tidy (d : Debugger) (s : Session) : Prop where
  booked : s.Booked
  next : d.nextBreakpointId ≤ s.dbg.nextBreakpointId
  old : ∀ a i, s.Has a i → d.holdings.Has a i

/-- Every entry but one was there when the debugger was `d`, and that one is newer. -/
structure Session.Littered (d : Debugger) (s : Session) : Prop where
  booked : s.Booked
  next : d.nextBreakpointId ≤ s.dbg.nextBreakpointId
  old : ∃ a i, d.nextBreakpointId ≤ i ∧
    ∀ b j, s.Has b j → d.holdings.Has b j ∨ b = a ∧ j = i

theorem Session.Tidy.littered (h : s.Tidy d) : s.Littered d :=
  ⟨h.booked, h.next, 0, _, le_rfl, fun b j hb => .inl (h.old b j hb)⟩

theorem Session.Booked.tidy (h : s.Booked) : s.Tidy s.dbg := ⟨h, le_rfl, fun _ _ h => h⟩

theorem Session.Tidy.of_dbg (h : s.Tidy d) (hdbg : t.dbg = s.dbg) : t.Tidy d := by
  refine ⟨h.booked.of_ledger (by rw [hdbg]), by rw [hdbg]; exact h.next, fun a i hi => ?_⟩
  rw [Session.Has, hdbg] at hi
  exact h.old a i hi

theorem Session.Turned.tidy (ht : t.Turned s.dbg) (h : s.Tidy d) : t.Tidy d :=
  ⟨ht.booked h.booked, h.next.trans ht.nextBreakpoint.ge, fun a i hi => h.old a i (ht.has hi)⟩

/-- A command that returns has left no breakpoint behind; one that throws, at most one. -/
def tidying (d : Debugger) {α : Type} : Post WaitCall Exception Session α where
  returned _ t := t.Tidy d
  raised _ t := t.Littered d
  blocked _ _ := True

/-- From a tidy session on, however it ends. -/
def Tidies {α : Type} (d : Debugger) (x : Act α) : Prop := ∀ s, s.Tidy d → wp x (tidying d) s

section Commands

variable {α β : Type}

theorem Tidies.pure (a : α) : Tidies d (Pure.pure a : Act α) := fun _ h => h

theorem Tidies.raise (e : Exception) : Tidies d (Command.raise e : Act α) := fun _ h => h.littered

theorem Tidies.read (f : Session → α) : Tidies d (Command.read f : Act α) := fun _ h => h

theorem Tidies.bind {x : Act α} {f : α → Act β} (hx : Tidies d x) (hf : ∀ a, Tidies d (f a)) :
    Tidies d (x >>= f) := fun s h =>
  (wp_bind x f (tidying d) s).mpr (wp_mono (hx s h) (fun a t ht => hf a t ht) (fun _ _ ht => ht)
    fun _ _ ht => ht)

theorem Tidies.ite {c : Prop} [Decidable c] {x y : Act α} (hx : Tidies d x) (hy : Tidies d y) :
    Tidies d (if c then x else y) := by
  split
  · exact hx
  · exact hy

theorem Tidies.check {c : Prop} [Decidable c] {e : Exception} {f : β → Act α} {x : Act α}
    (hx : Tidies d x) : Tidies d (if c then Command.raise e >>= f else x) :=
  .ite (fun _ h => h.littered) hx

/-- Commands that leave the debugger's own state alone. -/
theorem Tidies.of_alike {x : Act α} {E : Exception → Prop} (hx : Within Session.Alike E x) :
    Tidies d x := by
  intro s h
  have same : ∀ t, s.Alike t → t.Tidy d := by
    rintro t ⟨_, _, _, rfl⟩
    exact h.of_dbg rfl
  exact hx.wp (fun _ t ht => same t ht) fun _ t ht _ => (same t ht).littered

end Commands

theorem tidies_singleStep {policy : SignalPolicy} : Tidies d (singleStep tracees policy) :=
  fun s h => wp_mono (turning_singleStep s.turned) (fun _ _ ht => ht.tidy h)
    (fun _ _ ht => (ht.tidy h).littered) fun _ _ _ => trivial

theorem tidies_runTo : Tidies d (runTo tracees what address) := by
  intro s h
  refine wp_runTo h.booked ?_ ?_ (fun _ _ => trivial)
  · exact fun t user stop hb hnext _ hold =>
      ⟨hb, h.next.trans hnext, fun a i hi => h.old a i (hold a i hi)⟩
  · exact fun t e hb hnext hold => ⟨hb, h.next.trans hnext, address, s.dbg.nextBreakpointId, h.next,
      fun b j hj => (hold b j hj).imp_left (h.old b j)⟩

theorem tidies_registers : Tidies d registers := by
  intro s h
  have later : ∀ faults, ({ s with faults } : Session).Tidy d := fun _ => h.of_dbg rfl
  rw [registers, wp_bind]
  refine wp_stoppedTid (fun _ _ _ => ?_) fun _ _ => h.littered
  exact Lowlevel.wp_getRegisters (fun faults => later faults) fun faults _ _ =>
    (later faults).littered

theorem tidies_currentModuleSource : Tidies d (currentModuleSource sources) := by
  refine .bind (.read _) fun process => .ite (.pure _) ?_
  refine .bind tidies_registers fun regs => .bind (.read _) fun position => ?_
  cases position with
  | ok position => exact .pure _
  | error e => exact .raise e

theorem tidies_readInstructionByte (rip : Addr) (offset : Nat) :
    Tidies d (readInstructionByte rip offset) :=
  .ite (.pure _) (.bind (.of_alike (within_readMemory _ _)) fun _ => .pure _)

theorem tidies_decode {readByte : Nat → Act (Option Byte)} (hread : ∀ n, Tidies d (readByte n)) :
    Tidies d (decodeSupportedNearCallLength readByte) := by
  refine .bind (hread 0) fun first => ?_
  cases first with
  | none => exact .pure _
  | some first =>
    refine .ite (.pure _) (.ite ?_ (.ite (.pure _) ?_))
    · refine .bind (hread 1) fun opcode => .bind (hread 2) fun modrm => ?_
      cases opcode with
      | none => exact .pure _
      | some opcode =>
        cases modrm with
        | none => exact .pure _
        | some modrm => exact .ite (.pure _) (.ite (.pure _) (.pure _))
    · refine .bind (hread 1) fun modrm => ?_
      cases modrm with
      | none => exact .pure _
      | some modrm =>
        refine .ite (.pure _) (.ite (.pure _) (.ite (.pure _) (.ite ?_ (.ite (.pure _)
          (.ite (.pure _) (.ite (.pure _) (.pure _)))))))
        refine .bind (hread 2) fun sib => ?_
        cases sib with
        | none => exact .pure _
        | some sib => exact .ite (.pure _) (.pure _)

theorem tidies_supportedCallReturnAddress : Tidies d supportedCallReturnAddress := by
  refine .bind tidies_registers fun regs => ?_
  refine .bind (tidies_decode (tidies_readInstructionByte regs.rip)) fun length => ?_
  cases length with
  | none => exact .pure _
  | some length => exact .check (.pure _)

theorem tidies_judgeStop {start : ModuleSourcePosition} {interrupted : Bool} {stop : StopInfo}
    {instructions : Nat} : Tidies d (judgeStop sources start interrupted stop instructions) :=
  .bind tidies_currentModuleSource fun _ => .ite (.pure _) (.ite (.pure _) (.pure _))

theorem tidies_stepPass {start : ModuleSourcePosition} {instructions : Nat} :
    Tidies d (stepPass sources tracees start instructions) :=
  .bind tidies_singleStep fun _ => tidies_judgeStop

theorem tidies_nextPass {start : ModuleSourcePosition} {instructions : Nat} :
    Tidies d (nextPass sources tracees start instructions) := by
  refine .bind tidies_supportedCallReturnAddress fun address => ?_
  cases address with
  | none => exact tidies_stepPass
  | some address => exact .bind tidies_runTo fun _ => tidies_judgeStop

/-- By induction on the passes that are left. -/
theorem tidies_motionLoop {pass : Nat → Act (Option SourceStepResult)} {instructionLimit : Nat}
    (hpass : ∀ n, Tidies d (pass n)) :
    ∀ left, Tidies d (motionLoop sources pass instructionLimit left) := by
  intro left
  induction left with
  | zero => exact .bind tidies_currentModuleSource fun _ => .bind (.read _) fun _ => .pure _
  | succ left ih =>
    refine .bind (hpass _) fun result => ?_
    cases result with
    | none => exact ih
    | some result => exact .pure _

theorem tidies_sourceMotion {operation : String} {instructionLimit : Nat}
    {pass : ModuleSourcePosition → Nat → Act (Option SourceStepResult)}
    (hpass : ∀ start n, Tidies d (pass start n)) :
    Tidies d (sourceMotion sources operation pass instructionLimit) := by
  refine .bind (.check (.bind (.read _) fun _ => .ite (.raise _) (.pure _))) fun _ => ?_
  refine .bind tidies_currentModuleSource fun start => ?_
  cases start with
  | none => exact .raise _
  | some start => exact tidies_motionLoop (hpass start) _

theorem tidies_stepSource {instructionLimit : Nat} :
    Tidies d (stepSource sources tracees instructionLimit) :=
  tidies_sourceMotion fun _ _ => tidies_stepPass

theorem tidies_nextSource {instructionLimit : Nat} :
    Tidies d (nextSource sources tracees instructionLimit) :=
  tidies_sourceMotion fun _ _ => tidies_nextPass

theorem tidies_runToReturnAddress : Tidies d (runToReturnAddress tracees address) :=
  .bind tidies_runTo fun _ => .pure _

theorem tidies_finishFrame {returnAddress : Session → Except Exception Addr} :
    Tidies d (finishFrame tracees returnAddress) := by
  refine .bind (.read _) fun address => ?_
  cases address with
  | ok address => exact tidies_runToReturnAddress
  | error e => exact .raise e

end Rules

/-! ## Sessions with source commands in them -/

/-- The commands that move by source lines. -/
inductive Motion where
  | step (instructionLimit : Nat)
  | next (instructionLimit : Nat)
  | finish (returnAddress : Session → Except Exception Addr)

section Tours

variable (sources : SourceFinder) (tracees : Tracees)

def Motion.run : Motion → Act Unit
  | step instructionLimit => (fun _ => ()) <$> stepSource sources tracees instructionLimit
  | next instructionLimit => (fun _ => ()) <$> nextSource sources tracees instructionLimit
  | finish returnAddress => (fun _ => ()) <$> finishFrame tracees returnAddress

/-- The sessions that operations and source commands reach, in any order, whatever the tracees and
`ptrace` do. -/
inductive Tour : Session → Prop
  | start {s : Session} (h : Started s) : Tour s
  | operation {s t : Session} {op : Operation} {script : List Wakeup} {faults : List (Option Nat)}
      (h : Tour s) (hrun : (∃ r, op.run tracees (s.facing script faults) = .returned r t) ∨
        ∃ e, op.run tracees (s.facing script faults) = .raised e t) : Tour t
  | motion {s t : Session} {m : Motion} {script : List Wakeup} {faults : List (Option Nat)}
      (h : Tour s) (hrun : (∃ r, m.run sources tracees (s.facing script faults) = .returned r t) ∨
        ∃ e, m.run sources tracees (s.facing script faults) = .raised e t) : Tour t

variable {sources tracees} {s : Session}

theorem tidies_motion {d : Debugger} (m : Motion) : Tidies d (m.run sources tracees) := by
  intro s h
  cases m with
  | step => exact (wp_map _ _ _ _).mpr (tidies_stepSource s h)
  | next => exact (wp_map _ _ _ _).mpr (tidies_nextSource s h)
  | finish => exact (wp_map _ _ _ _).mpr (tidies_finishFrame s h)

theorem Tour.booked (h : Tour sources tracees s) : s.Booked := by
  induction h with
  | start h => exact Ledger.booked_blank.changes h.changed
  | @operation s t op script faults _ hrun ih =>
    have hwp : wp (op.run tracees) (changing s.dbg.ledger) (s.facing script faults) :=
      changing_run op .refl
    obtain ⟨r, hrun⟩ | ⟨e, hrun⟩ := hrun
    · exact ih.changes (wp_returned hwp hrun)
    · exact ih.changes (wp_raised hwp hrun)
  | @motion s t m script faults _ hrun ih =>
    have hwp : wp (m.run sources tracees) (tidying s.dbg) (s.facing script faults) :=
      tidies_motion m _ (ih.tidy.of_dbg rfl)
    obtain ⟨r, hrun⟩ | ⟨e, hrun⟩ := hrun
    · exact (wp_returned hwp hrun).booked
    · exact (wp_raised hwp hrun).booked

/-- A `step`, `next` or `finish` that returns has left no breakpoint behind in any process, and one
that throws has left at most one, under a new id. If there was no breakpoint at the address a
`finish` that returns has run to, all tables list what they did. -/
theorem temporary_breakpoints_removed (h : Tour sources tracees s) (script : List Wakeup)
    (faults : List (Option Nat)) :
    (∀ m : Motion, wp (m.run sources tracees)
      ⟨fun _ t => ∀ a i, t.Has a i → s.Has a i,
        fun _ t => ∃ a i, s.dbg.nextBreakpointId ≤ i ∧ ∀ b j, t.Has b j → s.Has b j ∨ b = a ∧ j = i,
        fun _ _ => True⟩ (s.facing script faults)) ∧
    ∀ address, s.Free address → wp (runToReturnAddress tracees address)
      ⟨fun _ t => s.dbg.holdings.Kept t.dbg.holdings, fun _ _ => True, fun _ _ => True⟩
      (s.facing script faults) := by
  refine ⟨fun m => ?_, fun address hfree => ?_⟩
  · exact wp_mono (tidies_motion m _ (h.booked.tidy.of_dbg rfl)) (fun _ _ ht => ht.old)
      (fun _ _ ht => ht.old) fun _ _ _ => trivial
  · rw [runToReturnAddress, wp_bind]
    exact wp_runTo (s := s.facing script faults) (h.booked.of_ledger rfl)
      (fun t user stop _ _ hkept _ => hkept hfree) (fun _ _ _ _ _ => trivial) fun _ _ => trivial

end Tours

/-- A process in front of a call, with a breakpoint elsewhere. -/
def Session.beforeCall : Session :=
  (Session.launch 10 (fun a => some (if a = 0xffb then 0xe8 else 0x90)) { rip := 0xffb }).after
    anyTracees (.addBreakpoint 0x2000) []

/-- The line changes behind the call. -/
def linesAroundCall : SourceFinder := fun _ address =>
  .ok (some ⟨"/a.out", ⟨"a.c", if address = 0x1000 then 2 else 1, 0⟩⟩)

/-- The call comes back to the temporary breakpoint behind it. -/
def callReturns : Wakeup :=
  .report { tid := 10, status := .stopped sigtrap .none, cause := .int3 0x1000
            regs := { rip := 0x1001 } }

theorem tour_beforeCall : Tour linesAroundCall anyTracees Session.beforeCall := by
  have hadd : ((Operation.addBreakpoint 0x2000).run anyTracees ((Session.launch 10
      (fun a => some (if a = 0xffb then 0xe8 else 0x90)) { rip := 0xffb }).facing [] [])) =
      .returned (.breakpoint 1) Session.beforeCall :=
    Session.run_of_value rfl
  exact .operation (.start (started_launch (by decide) _ _)) (.inl ⟨.breakpoint 1, hadd⟩)

/-- `next` and `finish` place breakpoint 2 at `0x1000` and report that it was hit; the one at
`0x2000` is all that is left. -/
theorem temporary_breakpoints_removed_called :
    let s := Session.beforeCall.facing [callReturns] []
    (∃ result t, nextSource linesAroundCall anyTracees 5 s = .returned result t ∧
      result.reason = .lineChanged ∧ t.dbg.nextBreakpointId = 3 ∧
      ∀ a i, t.Has a i → Session.beforeCall.Has a i) ∧
    ∃ result t, runToReturnAddress anyTracees 0x1000 s = .returned result t ∧
      result.reason = .returned ∧ t.dbg.nextBreakpointId = 3 ∧
      Session.beforeCall.dbg.holdings.Kept t.dbg.holdings := by
  obtain ⟨next, finish⟩ := temporary_breakpoints_removed tour_beforeCall [callReturns] []
  refine ⟨?_, ?_⟩
  · have hreason : (nextSource linesAroundCall anyTracees 5
        (Session.beforeCall.facing [callReturns] [])).value?.map (·.reason) =
          some .lineChanged := by decide +kernel
    obtain ⟨result, hvalue, hresult⟩ := Option.map_eq_some_iff.mp hreason
    have hrun := Outcome.eq_returned_of_value? hvalue
    refine ⟨result, _, hrun, hresult, by decide +kernel, ?_⟩
    have hnext := next (.next 5)
    rw [Motion.run, wp_map] at hnext
    exact wp_returned hnext hrun
  · have hreason : (runToReturnAddress anyTracees 0x1000
        (Session.beforeCall.facing [callReturns] [])).value?.map (·.reason) =
          some .returned := by decide +kernel
    obtain ⟨result, hvalue, hresult⟩ := Option.map_eq_some_iff.mp hreason
    have hrun := Outcome.eq_returned_of_value? hvalue
    refine ⟨result, _, hrun, hresult, by decide +kernel, ?_⟩
    have hfree : ∀ entry ∈ Session.beforeCall.dbg.breakpointsByAddress.toList,
        entry.2.address ≠ 0x1000 := by decide +kernel
    exact wp_returned (finish 0x1000 fun a bp hbp =>
      hfree (a, bp) (ExtTreeMap.mem_toList_iff_getElem?_eq_some.mpr hbp)) hrun

end MiniDebugger
