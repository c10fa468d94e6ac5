import MiniDebugger.Sessions.Tables

/-!
# The registry of process domains

`Core` is the part of a session the tables are about. `Core.Tables` is the invariant of the
debugger's own bookkeeping: every domain is sound, retained domains are at rest, and no two
domains share a breakpoint id. `Core.Bytes` adds that the memory of the tracees shows what the
tables say. The lemmas say which changes keep the two.
-/

namespace MiniDebugger

open Function (update update_self update_of_ne)
open Std (ExtTreeMap)
open Overlay

/-- The part of a session the breakpoint tables are about. -/
structure Core where
  active : Domain
  next : Nat
  policy : ForkFollowPolicy
  retained : ExtTreeMap Pid RetainedProcessDomain
  tasks : ExtTreeMap Pid Pid
  memory : Pid → Memory

def Session.core (s : Session) : Core where
  active := s.dbg.domain
  next := s.dbg.nextBreakpointId
  policy := s.dbg.forkFollowPolicy
  retained := s.dbg.retainedProcesses
  tasks := s.world.tasks
  memory := s.world.memory

/-- A domain that waits in the registry under `pid`. -/
structure Domain.Kept (next : Nat) (tasks : ExtTreeMap Pid Pid) (pid : Pid) (D : Domain) :
    Prop where
  sound : D.Sound next
  linked : D.process.Linked tasks
  owned : D.Owned
  resting : D.Resting
  key : D.process.pid = pid

namespace Core

/-- The bookkeeping of the debugger is in order; `issued` are breakpoint ids handed out before. -/
structure Tables (issued : List Nat) (c : Core) : Prop where
  sound : c.active.Sound c.next
  linked : c.active.process.Linked c.tasks
  owned : c.active.Owned
  kept : ∀ (pid : Pid) (domain : RetainedProcessDomain), c.retained[pid]? = some domain →
    domain.domain.Kept c.next c.tasks pid
  free : c.active.process.pid ∉ c.retained
  apart : ∀ (pid : Pid) (domain : RetainedProcessDomain) (i : Nat) (a : Addr),
    c.retained[pid]? = some domain → domain.breakpointIds[i]? = some a → c.active.ids[i]? = none
  disjoint : ∀ (p q : Pid) (P Q : RetainedProcessDomain) (i : Nat) (a b : Addr),
    c.retained[p]? = some P → c.retained[q]? = some Q → P.breakpointIds[i]? = some a →
    Q.breakpointIds[i]? = some b → p = q
  both : c.retained ≠ ∅ → c.policy = .both
  live : c.retained ≠ ∅ → c.active.process.live
  room : c.retained.size ≤ 2
  issued : issued.Nodup ∧ ∀ i ∈ issued, i < c.next

/-- The memory of the tracees shows what the tables say. -/
structure Bytes (c : Core) : Prop where
  active : Armed int3 (patches c.active.table) (c.memory c.active.process.pid)
  kept : ∀ (pid : Pid) (domain : RetainedProcessDomain), c.retained[pid]? = some domain →
    Armed int3 (patches domain.breakpointsByAddress) (c.memory pid)

/-- The tables are in order and, if `b`, so is the memory. -/
structure Good (b : Bool) (issued : List Nat) (c : Core) : Prop where
  tables : c.Tables issued
  bytes : b = true → c.Bytes

variable {b : Bool} {issued : List Nat} {c : Core}

theorem retained_ne_empty {pid : Pid} {domain : RetainedProcessDomain}
    (h : c.retained[pid]? = some domain) : c.retained ≠ ∅ := by
  rintro he
  simp [he] at h

/-- The process record, the watchpoint owner and the traced tasks change; the breakpoints do not. -/
theorem Tables.advance (h : c.Tables issued) {p : Process} {owner : Option Pid}
    {tasks : ExtTreeMap Pid Pid} {memory : Pid → Memory}
    (hpid : p.pid = c.active.process.pid) (hlive : p.live → c.active.process.live)
    (hstays : c.retained ≠ ∅ → p.live)
    (hlinked : p.Linked tasks)
    (howned : ∀ tid, owner = some tid → tid ∈ p.taskStates)
    (htasks : ∀ tid pid : Pid, pid ∈ c.retained → c.tasks[tid]? = some pid →
      tasks[tid]? = some pid) :
    Tables issued { c with
      active := { c.active with process := p, owner }, tasks, memory } where
  sound := h.sound.process hlive
  linked := hlinked
  owned := howned
  kept pid domain hdomain := by
    have hk := h.kept pid domain hdomain
    refine { hk with linked := hk.linked.mono fun tid => htasks tid _ ?_ }
    rw [hk.key, ExtTreeMap.mem_iff_isSome_getElem?, hdomain]
    rfl
  free := by
    rw [hpid]
    exact h.free
  apart := h.apart
  disjoint := h.disjoint
  both := h.both
  live := hstays
  room := h.room
  issued := h.issued

/-- The traced tasks change, but not for the processes of the debugger. -/
theorem Tables.retask (h : c.Tables issued) {tasks : ExtTreeMap Pid Pid} {memory : Pid → Memory}
    (htasks : ∀ tid pid : Pid, pid = c.active.process.pid ∨ pid ∈ c.retained →
      c.tasks[tid]? = some pid → tasks[tid]? = some pid) :
    Tables issued { c with tasks, memory } := by
  have hactive : c.active.process.Linked tasks :=
    h.linked.mono fun tid => htasks tid _ (.inl rfl)
  exact h.advance rfl id h.live hactive h.owned fun tid pid hpid => htasks tid pid (.inr hpid)

/-- The breakpoints of the active process change; new ids are new. -/
theorem Tables.retable (h : c.Tables issued) {table : ExtTreeMap Addr Breakpoint}
    {ids : ExtTreeMap Nat Addr} {pending : Option PendingBreakpointStep} {next : Nat}
    {memory : Pid → Memory} (hnext : c.next ≤ next)
    (hsound : Domain.Sound next { c.active with table, ids, pending })
    (hids : ∀ (i : Nat) (a : Addr), ids[i]? = some a → i ∈ c.active.ids ∨ c.next ≤ i) :
    Tables issued { c with
      active := { c.active with table, ids, pending }, next, memory } where
  sound := hsound
  linked := h.linked
  owned := h.owned
  kept pid domain hdomain := by
    have hk := h.kept pid domain hdomain
    exact { hk with sound := hk.sound.mono hnext }
  free := h.free
  apart pid domain i a hdomain hi := by
    have hnone := h.apart pid domain i a hdomain hi
    have hbelow := (h.kept pid domain hdomain).sound.below i a hi
    rcases hget : ids[i]? with _ | a'
    · rfl
    · rcases hids i a' hget with hin | hnew
      · simp [ExtTreeMap.mem_iff_isSome_getElem?, hnone] at hin
      · omega
  disjoint := h.disjoint
  both := h.both
  live := h.live
  room := h.room
  issued := ⟨h.issued.1, fun i hi => (h.issued.2 i hi).trans_le hnext⟩

/-- The active process takes a new image or a new identity outside the registry. -/
theorem Tables.restart (h : c.Tables issued) {D : Domain} {tasks : ExtTreeMap Pid Pid}
    {memory : Pid → Memory} (hsound : D.Sound c.next) (hlinked : D.process.Linked tasks)
    (howned : D.Owned) (hlive : D.process.live) (hfree : D.process.pid ∉ c.retained)
    (hids : ∀ (i : Nat) (a : Addr), D.ids[i]? = some a → c.active.ids[i]? = some a)
    (htasks : ∀ tid pid : Pid, pid ∈ c.retained → c.tasks[tid]? = some pid →
      tasks[tid]? = some pid) :
    Tables issued { c with active := D, tasks, memory } where
  sound := hsound
  linked := hlinked
  owned := howned
  kept pid domain hdomain := by
    have hk := h.kept pid domain hdomain
    refine { hk with linked := hk.linked.mono fun tid => htasks tid _ ?_ }
    rw [hk.key, ExtTreeMap.mem_iff_isSome_getElem?, hdomain]
    rfl
  free := hfree
  apart pid domain i a hdomain hi := by
    have hnone := h.apart pid domain i a hdomain hi
    rcases hget : D.ids[i]? with _ | a'
    · rfl
    · rw [hids i a' hget] at hnone
      cases hnone
  disjoint := h.disjoint
  both := h.both
  live _ := hlive
  room := h.room
  issued := h.issued

/-- A retained domain takes the place of the active process, which is dropped. -/
theorem Tables.promote (h : c.Tables issued) {pid : Pid} {domain : RetainedProcessDomain}
    (hdomain : c.retained[pid]? = some domain) :
    Tables issued { c with active := domain.domain, retained := c.retained.erase pid } := by
  have hk := h.kept pid domain hdomain
  have herase : ∀ (q : Pid) (Q : RetainedProcessDomain), (c.retained.erase pid)[q]? = some Q →
      q ≠ pid ∧ c.retained[q]? = some Q := by
    intro q Q hQ
    rw [ExtTreeMap.getElem?_erase] at hQ
    grind
  refine ⟨hk.sound, hk.linked, hk.owned, fun q Q hQ => h.kept q Q (herase q Q hQ).2, ?_, ?_, ?_,
    ?_, ?_, ?_, h.issued⟩
  · rw [hk.key]
    simp
  · intro q Q i a hQ hi
    obtain ⟨hne, hQ⟩ := herase q Q hQ
    rcases hget : domain.domain.ids[i]? with _ | a'
    · rfl
    · exact absurd (h.disjoint q pid Q domain i a a' hQ hdomain hi hget) hne
  · intro p q P Q i a a' hP hQ
    exact h.disjoint p q P Q i a a' (herase p P hP).2 (herase q Q hQ).2
  · intro _
    exact h.both (retained_ne_empty hdomain)
  · intro _
    exact .inl hk.resting.stopped
  · exact (ExtTreeMap.size_erase_le).trans h.room

/-- A domain enters the registry. -/
theorem Tables.retain (h : c.Tables issued) {pid : Pid} {domain : RetainedProcessDomain}
    (hnew : pid ∉ c.retained) (hkept : domain.domain.Kept c.next c.tasks pid)
    (hfree : c.active.process.pid ≠ pid) (hlive : c.active.process.live)
    (hboth : c.policy = .both) (hroom : c.retained.size < 2)
    (hapart : ∀ (i : Nat) (a : Addr), domain.breakpointIds[i]? = some a →
      c.active.ids[i]? = none ∧ ∀ (q : Pid) (Q : RetainedProcessDomain),
        c.retained[q]? = some Q → Q.breakpointIds[i]? = none) :
    Tables issued { c with retained := c.retained.insert pid domain } := by
  have hinsert : ∀ (q : Pid) (Q : RetainedProcessDomain),
      (c.retained.insert pid domain)[q]? = some Q →
      (q = pid ∧ Q = domain) ∨ c.retained[q]? = some Q := by
    intro q Q hQ
    rw [ExtTreeMap.getElem?_insert] at hQ
    grind
  refine ⟨h.sound, h.linked, h.owned, fun q Q hQ => ?_, ?_, ?_, ?_, fun _ => hboth,
    fun _ => hlive, ?_, h.issued⟩
  · rcases hinsert q Q hQ with ⟨rfl, rfl⟩ | hold
    · exact hkept
    · exact h.kept q Q hold
  · rw [ExtTreeMap.mem_insert]
    rintro (heq | hold)
    · exact hfree (Eq.symm (by simpa using heq))
    · exact h.free hold
  · intro q Q i a hQ hi
    rcases hinsert q Q hQ with ⟨rfl, rfl⟩ | hold
    · exact (hapart i a hi).1
    · exact h.apart q Q i a hold hi
  · intro p q P Q i a a' hP hQ hi hi'
    rcases hinsert p P hP with ⟨rfl, rfl⟩ | hPold <;> rcases hinsert q Q hQ with ⟨rfl, rfl⟩ | hQold
    · rfl
    · simp [(hapart i a hi).2 q Q hQold] at hi'
    · simp [(hapart i a' hi').2 p P hPold] at hi
    · exact h.disjoint p q P Q i a a' hPold hQold hi hi'
  · have hsize := ExtTreeMap.size_insert_le (t := c.retained) (k := pid) (v := domain)
    have : c.retained.size + 1 ≤ 2 := hroom
    exact hsize.trans this

/-- A byte of the active process and the patch over it change together. -/
theorem Bytes.repatch (h : c.Bytes) (hfree : c.active.process.pid ∉ c.retained)
    {table : ExtTreeMap Addr Breakpoint} {ids : ExtTreeMap Nat Addr}
    {pending : Option PendingBreakpointStep} {next : Nat} {address : Addr}
    {patch : Option (Patch Byte)} {value : Byte}
    (htable : patches table = update (patches c.active.table) address patch)
    (hvalue : ∀ p, patch = some p → value = p.cell int3) :
    Bytes { c with
      active := { c.active with table, ids, pending }
      next
      memory := update c.memory c.active.process.pid
        (update (c.memory c.active.process.pid) address (some value)) } := by
  refine ⟨?_, fun pid domain hdomain => ?_⟩
  · simp only [update_self, htable]
    exact h.active.update fun p hp => congrArg some (hvalue p hp)
  · have hne : pid ≠ c.active.process.pid := by
      rintro rfl
      exact hfree (ExtTreeMap.mem_iff_isSome_getElem?.mpr (Option.isSome_of_eq_some hdomain))
    simp only [update_of_ne hne]
    exact h.kept pid domain hdomain

end Core

/-- A tracked task runs in the memory of the active process. -/
theorem Session.space_of_tracked {issued : List Nat} {s : Session} {tid : Pid}
    (h : s.core.Tables issued) (hin : tid ∈ s.dbg.process.taskStates) :
    Lowlevel.space s.world tid = s.dbg.process.pid := by
  have hgroup : s.world.tasks[tid]? = some s.dbg.process.pid := h.linked.group tid hin
  rw [Lowlevel.space, hgroup]
  rfl

end MiniDebugger
