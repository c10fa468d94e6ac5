import MiniDebugger.Breakpoints.Tenants
import MiniDebugger.Breakpoints.UserBreakpointRegistry

/-!
# The registry of the user agrees with the debugger

The registry remembers ids of the debugger and of the controllers of deferred breakpoints, and the
debugger moves its breakpoints about behind its back: a fork copies them, an `exec` drops them, and
selecting a process exchanges them. `Agrees` says that every id that is remembered is still found
where the registry looks for it. It holds between any two commands of the command loop, as long as
the kernel gives no new process the id of one that has breakpoints.

`step`, `next` and `finish` are not among the commands: they set breakpoints of their own, and give
up without telling the registry when the image is replaced under them.
-/

namespace MiniDebugger

open Command UserBreakpointRegistry
open DeferredBreakpoints (Slot Filed)
open Std (ExtTreeMap)

/-! ## The ids of all processes -/

/-- No breakpoint is lost or changes its process, though another process may be the active one. -/
structure Debugger.KeepsIds (d d' : Debugger) : Prop where
  owns : ∀ pid, d'.Owns pid → d.Owns pid
  idsOf : ∀ pid, d'.Owns pid → d'.idsOf pid = d.idsOf pid
  next : d'.nextBreakpointId = d.nextBreakpointId

theorem Debugger.SameIds.keeps {d d' : Debugger} (h : d.SameIds d') : d.KeepsIds d' :=
  ⟨fun _ => h.owns.mp, fun _ _ => h.idsOf, h.next⟩

def keepingIds (d : Debugger) : Post WaitCall Exception Session Unit :=
  ⟨fun _ t => d.KeepsIds t.dbg, fun _ t => d.KeepsIds t.dbg, fun _ _ => True⟩

section Keeping

variable {s : Session}

theorem keepingIds_selectThread {tid : Pid} :
    wp (MiniDebugger.selectThread tid) (keepingIds s.dbg) s :=
  wp_selectThread (fun _ => Debugger.SameIds.keeps ⟨rfl, rfl, rfl, rfl⟩)
    fun _ => Debugger.SameIds.keeps (.refl _)

theorem keepingIds_setForkFollowPolicy {policy : ForkFollowPolicy} :
    wp (MiniDebugger.setForkFollowPolicy policy) (keepingIds s.dbg) s :=
  wp_setForkFollowPolicy (fun _ => Debugger.SameIds.keeps ⟨rfl, rfl, rfl, rfl⟩)
    fun _ => Debugger.SameIds.keeps (.refl _)

theorem keepingIds_writeMemory {address : Addr} {bytes : List Byte} :
    wp (MiniDebugger.writeMemory address bytes) (keepingIds s.dbg) s :=
  wp_writeMemory (fun _ _ _ _ _ _ _ => Debugger.SameIds.keeps ⟨rfl, rfl, rfl, rfl⟩)
    fun _ _ _ _ _ _ => Debugger.SameIds.keeps (.refl _)

theorem keepingIds_selectProcess {pid : Pid} (h : s.core.Good false []) :
    wp (MiniDebugger.selectProcess pid) (keepingIds s.dbg) s := by
  refine wp_selectProcess (fun _ => Debugger.SameIds.keeps (.refl _))
    (fun domain hdomain _ _ _ => ?_) (fun domain e _ hcollide => absurd hcollide h.tables.free)
    fun _ => Debugger.SameIds.keeps (.refl _)
  have hkey : domain.process.pid = pid := (h.tables.kept pid domain hdomain).key
  have hin : pid ∈ s.dbg.retainedProcesses :=
    ExtTreeMap.mem_iff_isSome_getElem?.mpr (Option.isSome_of_eq_some hdomain)
  have hne : pid ≠ s.dbg.process.pid := by
    rintro rfl
    exact h.tables.free hin
  have howns : ∀ q, (s.dbg.swapped pid domain).Owns q →
      q = pid ∨ q = s.dbg.process.pid ∨ q ≠ pid ∧ q ∈ s.dbg.retainedProcesses := by
    rintro q (hq | hq)
    · exact .inl (hq.trans hkey)
    · obtain hq | hq := ExtTreeMap.mem_insert.mp hq
      · have hq : s.dbg.process.pid = q := by simpa using hq
        exact .inr (.inl hq.symm)
      · obtain ⟨hq, hkept⟩ := ExtTreeMap.mem_erase.mp hq
        have hq : ¬pid = q := by simpa using hq
        exact .inr (.inr ⟨Ne.symm hq, hkept⟩)
  have hparked : (s.dbg.swapped pid domain).idsOf s.dbg.process.pid = s.dbg.breakpointIds := by
    have hfound : (s.dbg.swapped pid domain).retainedProcesses[s.dbg.process.pid]? =
        some s.dbg.parked := ExtTreeMap.getElem?_insert_self
    exact Debugger.idsOf_retained (fun h => hne (h.trans hkey).symm) hfound
  refine ⟨fun q hq => ?_, fun q hq => ?_, rfl⟩
  · obtain rfl | rfl | hq := howns q hq
    · exact .inr hin
    · exact .inl rfl
    · exact .inr hq.2
  · show (s.dbg.swapped pid domain).idsOf q = s.dbg.idsOf q
    by_cases hactive : q = s.dbg.process.pid
    · rw [hactive, hparked, Debugger.idsOf_active rfl]
    obtain rfl | rfl | hq := howns q hq
    · rw [Debugger.idsOf_active hkey.symm, Debugger.idsOf_retained hne hdomain]
      rfl
    · exact absurd rfl hactive
    · refine Debugger.idsOf_congr hactive (fun h => hq.1 (h.trans hkey)) ?_
      show ((s.dbg.retainedProcesses.erase pid).insert s.dbg.process.pid s.dbg.parked)[q]? = _
      rw [ExtTreeMap.getElem?_insert, if_neg (by simpa using Ne.symm hactive),
        ExtTreeMap.getElem?_erase, if_neg (by simpa using Ne.symm hq.1)]

end Keeping

/-! ## The invariant -/

/-- Who holds a breakpoint of the debugger: a process, and in its domain an entry of the user or the
controller. -/
abbrev UserHolder := Pid × (Nat ⊕ Slot)

def UserEntry.managedId (entry : UserEntry) : Option Nat :=
  match entry.kind with
  | .managed => some entry.backendId
  | .deferred => none

namespace DomainState

def held (D : DomainState) : Nat ⊕ Slot → Option Nat
  | .inl id => (D.entries[id]?).bind (·.managedId)
  | .inr x => D.deferred.bind (·.held x)

/-- The requests that entries of the user stand for. -/
def Awaits (D : DomainState) (n : Nat) : Prop :=
  ∃ (id : Nat) (entry : UserEntry), D.entries[id]? = some entry ∧ entry.kind = .deferred ∧
    entry.backendId = n

/-- The request is there. -/
def Requested (D : DomainState) (n : Nat) : Prop := ∃ c, D.deferred = some c ∧ n ∈ c.requests

/-- The domain of one process is in order; `nextId` is the next number the registry gives out. -/
structure InOrder (nextId : Nat) (D : DomainState) : Prop where
  filed : ∀ c, D.deferred = some c → c.Filed
  numbered : ∀ id, id ∈ D.entries → id < nextId
  requested : ∀ n, D.Awaits n → D.Requested n
  apart : ∀ (id id' : Nat) (entry entry' : UserEntry), D.entries[id]? = some entry →
    D.entries[id']? = some entry' → entry.kind = .deferred → entry'.kind = .deferred →
    entry.backendId = entry'.backendId → id = id'

end DomainState

namespace UserSession

def held (u : UserSession) (h : UserHolder) : Option Nat := (u.domain h.1).held h.2

/-- In whose table the holder looks for its breakpoint. -/
def place : UserHolder → Option Pid
  | (pid, .inl _) | (pid, .inr (.request _)) => some pid
  | (_, .inr .loader) | (_, .inr .bootstrap) => none

/-- What the registry remembers is so; `live` are the processes whose breakpoints it may rely on. -/
structure Agrees (live : Pid → Prop) (u : UserSession) : Prop where
  good : u.session.core.Good false []
  handles : Handles u.session.dbg.nextBreakpointId u.held
    fun h id => u.session.dbg.Lists live (place h) id
  domains : ∀ pid, (u.domain pid).InOrder u.registry.nextId
  unique : ∀ pid pid' id, id ∈ (u.domain pid).entries → id ∈ (u.domain pid').entries → pid = pid'

/-- What the controller of `home` has to respect. -/
def neighbours (u : UserSession) (live : Pid → Prop) (home : Pid) (awaited : Nat → Prop) :
    Neighbours where
  Holder := UserHolder
  held h := if h.1 = home ∧ h.2.isRight then none else u.held h
  place := place
  home := home
  live := live
  awaited := awaited

/-- `v` has the domain `D` for `pid` and the others of `u`. -/
structure Sets (pid : Pid) (D : DomainState) (u v : UserSession) : Prop where
  home : v.domain pid = D
  others : ∀ q, q ≠ pid → v.domain q = u.domain q

theorem domain_setDomain {u : UserSession} {pid q : Pid} {D : DomainState} :
    (u.setDomain pid D).domain q = if q = pid then D else u.domain q := by
  simp only [domain, setDomain, ExtTreeMap.getElem?_insert]
  by_cases h : pid = q
  · simp [h]
  · simp [h, Ne.symm h]

theorem sets_of_insert {u v : UserSession} {pid : Pid} {D : DomainState}
    (h : v.registry.domains = u.registry.domains.insert pid D) : Sets pid D u v := by
  have hall : ∀ q, v.domain q = (u.setDomain pid D).domain q := fun q => by
    rw [domain, h]
    rfl
  exact ⟨(hall pid).trans (domain_setDomain.trans (if_pos rfl)),
    fun q hq => (hall q).trans (domain_setDomain.trans (if_neg hq))⟩

theorem domain_of_some {u : UserSession} {pid : Pid} {D : DomainState}
    (h : u.registry.domains[pid]? = some D) : u.domain pid = D := by
  rw [UserSession.domain, h]
  rfl

theorem domain_of_none {u : UserSession} {pid : Pid} (h : u.registry.domains[pid]? = none) :
    u.domain pid = {} := by
  rw [UserSession.domain, h]
  rfl

section Agrees

variable {u v : UserSession} {live live' : Pid → Prop} {pid : Pid} {D : DomainState}

/-- What holds of the new domain and of the others holds of all. -/
theorem Sets.each {P : Pid → DomainState → Prop} (h : Sets pid D u v) (hself : P pid D)
    (hothers : ∀ q, q ≠ pid → P q (u.domain q)) (q : Pid) : P q (v.domain q) := by
  by_cases hq : q = pid
  · subst hq
    rw [h.home]
    exact hself
  · rw [h.others q hq]
    exact hothers q hq

theorem Sets.inOrder {n : Nat} (h : Sets pid D u v) (hself : D.InOrder n)
    (hall : ∀ q, (u.domain q).InOrder n) (q : Pid) : (v.domain q).InOrder n :=
  h.each (P := fun _ E => E.InOrder n) hself (fun q _ => hall q) q

theorem Sets.mem_entries (h : Sets pid D u v)
    (hself : ∀ k, k ∈ D.entries → k ∈ (u.domain pid).entries) (q : Pid) (k : Nat) :
    k ∈ (v.domain q).entries → k ∈ (u.domain q).entries :=
  h.each (P := fun q E => k ∈ E.entries → k ∈ (u.domain q).entries) (hself k) (fun _ _ hk => hk) q

/-- The handles that are left, in other tables. -/
theorem Agrees.drop (h : u.Agrees live) (hgood : v.session.core.Good false [])
    (hnext : v.session.dbg.nextBreakpointId = u.session.dbg.nextBreakpointId)
    (hheld : ∀ x i, v.held x = some i → u.held x = some i)
    (hids : ∀ x i, v.held x = some i → place x = some x.1 → live' x.1 → v.session.dbg.Owns x.1 →
      live x.1 ∧ u.session.dbg.Owns x.1 ∧
        (i ∈ u.session.dbg.idsOf x.1 → i ∈ v.session.dbg.idsOf x.1))
    (hdomains : ∀ q, (v.domain q).InOrder v.registry.nextId)
    (hunique : ∀ q q' id, id ∈ (v.domain q).entries → id ∈ (v.domain q').entries → q = q') :
    v.Agrees live' := by
  refine ⟨hgood, ?_, hdomains, hunique⟩
  rw [hnext]
  refine h.handles.drop hheld fun x i hx hlisted q hplace hlive howns => ?_
  have hself : q = x.1 := by
    obtain ⟨p, id | ⟨_ | _ | k⟩⟩ := x <;> cases hplace <;> rfl
  subst hself
  obtain ⟨hlive, howns, hids⟩ := hids x i hx hplace hlive howns
  exact hids (hlisted _ hplace hlive howns)

theorem held_of_domain (hdomain : ∀ q, v.domain q = u.domain q) : v.held = u.held :=
  funext fun x => by rw [held, hdomain, held]

/-- The debugger has changed, and the registry has not. -/
theorem Agrees.onSession (h : u.Agrees live) (hgood : v.session.core.Good false [])
    (hnext : v.session.dbg.nextBreakpointId = u.session.dbg.nextBreakpointId)
    (hdomain : ∀ q, v.domain q = u.domain q) (hnumber : v.registry.nextId = u.registry.nextId)
    (hids : ∀ q, u.domain q ≠ {} → live' q → v.session.dbg.Owns q → live q ∧ u.session.dbg.Owns q ∧
      v.session.dbg.idsOf q = u.session.dbg.idsOf q) : v.Agrees live' := by
  refine h.drop hgood hnext (fun x i hx => held_of_domain hdomain ▸ hx)
    (fun x i hx _ hlive howns => ?_) (fun q => ?_) fun q q' id => ?_
  · have hsome : u.domain x.1 ≠ {} := by
      intro hnone
      rw [held_of_domain hdomain, held, hnone] at hx
      obtain ⟨p, id | y⟩ := x <;> simp [DomainState.held] at hx
    obtain ⟨hlive, howns, hids⟩ := hids x.1 hsome hlive howns
    exact ⟨hlive, howns, fun hi => hids ▸ hi⟩
  · rw [hdomain, hnumber]
    exact h.domains q
  · rw [hdomain, hdomain]
    exact h.unique q q' id

/-- Processes without a domain do not matter. -/
theorem Agrees.widen (h : u.Agrees live)
    (hlive : ∀ q, u.domain q ≠ {} → live' q → u.session.dbg.Owns q → live q) : u.Agrees live' :=
  h.onSession h.good rfl (fun _ => rfl) rfl fun q hq hlive' howns =>
    ⟨hlive q hq hlive' howns, howns, rfl⟩

theorem Agrees.congr (h : u.Agrees live) (hsession : v.session = u.session)
    (hdomain : ∀ q, v.domain q = u.domain q) (hnumber : v.registry.nextId = u.registry.nextId) :
    v.Agrees live :=
  h.onSession (hsession ▸ h.good) (by rw [hsession]) hdomain hnumber fun q _ hlive howns =>
    ⟨hlive, hsession ▸ howns, by rw [hsession]⟩

/-! ## Controllers -/

/-- A controller as it is found in the domain of `pid`. -/
theorem Agrees.tenant (h : u.Agrees live) {c : DeferredBreakpoints} {awaited : Nat → Prop}
    (hc : (u.domain pid).deferred = some c) (hawaited : ∀ n, awaited n → n ∈ c.requests) :
    (DeferredSession.mk c u.session []).Tenant (u.neighbours live pid awaited) := by
  have hslot : ∀ x, u.held (pid, .inr x) = c.held x := fun x => by
    rw [held, DomainState.held, hc]
    rfl
  refine ⟨h.good, ?_, (h.domains pid).filed c hc, hawaited⟩
  refine h.handles.comap (f := Sum.elim id fun x => (pid, .inr x)) (fun y i hy => ?_)
    (fun y z i hy hz hyz => ?_) fun y i hy hlisted => ?_
  · rcases y with y | x
    · have hy : (if y.1 = pid ∧ y.2.isRight then none else u.held y) = some i := hy
      split at hy
      · cases hy
      · exact hy
    · exact (hslot x).trans hy
  · have apart : ∀ (y : UserHolder) (x : Slot) (j : Nat),
        (u.neighbours live pid awaited).heldWith c (.inl y) = some j → y ≠ (pid, .inr x) := by
      rintro _ x j hy rfl
      have hy : (if pid = pid ∧ (Sum.inr x : Nat ⊕ Slot).isRight then none
        else u.held (pid, .inr x)) = some j := hy
      simp at hy
    rcases y with y | x <;> rcases z with z | x'
    · exact congrArg _ hyz
    · exact absurd hyz (apart y x' i hy)
    · exact absurd hyz.symm (apart z x i hz)
    · cases hyz
      rfl
  · rcases y with y | x
    · exact hlisted
    · cases x <;> exact hlisted

/-- A controller of which only the entries of its own domain expect something. -/
theorem Agrees.tenant_of_deferred (h : u.Agrees live) {c : DeferredBreakpoints}
    (hc : (u.domain pid).deferred = some c) :
    (DeferredSession.mk c u.session []).Tenant (u.neighbours live pid (u.domain pid).Awaits) :=
  h.tenant hc fun n hn => by
    obtain ⟨c', hc', hin⟩ := (h.domains pid).requested n hn
    cases hc.symm.trans hc'
    exact hin

/-- The holders, with the controller of `home` apart. -/
def splitAt (home : Pid) : UserHolder → UserHolder ⊕ Slot
  | (pid, .inl id) => .inl (pid, .inl id)
  | (pid, .inr x) => if pid = home then .inr x else .inl (pid, .inr x)

theorem splitAt_injective (home : Pid) : Function.Injective (splitAt home) := by
  rintro ⟨q, id | x⟩ ⟨q', id' | x'⟩ h <;> simp only [splitAt] at h
  · cases h
    rfl
  · split at h <;> cases h
  · split at h <;> cases h
  · split at h <;> split at h <;> simp_all

theorem heldWith_splitAt {home : Pid} {awaited : Nat → Prop} {c : DeferredBreakpoints}
    (x : UserHolder) : (u.neighbours live home awaited).heldWith c (splitAt home x) =
      if x.1 = home then ({ u.domain home with deferred := some c } : DomainState).held x.2
      else u.held x := by
  obtain ⟨q, id | x⟩ := x
  · show (if q = home ∧ (Sum.inl id : Nat ⊕ Slot).isRight then none else u.held (q, .inl id)) = _
    by_cases hq : q = home
    · subst hq
      simp [held, DomainState.held]
    · simp [hq]
  · by_cases hq : q = home
    · simp only [splitAt, hq, if_true]
      rfl
    · simp only [splitAt, hq, if_false]
      show (if q = home ∧ (Sum.inr x : Nat ⊕ Slot).isRight then none else u.held (q, .inr x)) = _
      simp [hq]

theorem placeWith_splitAt {home : Pid} {awaited : Nat → Prop} (x : UserHolder) :
    (u.neighbours live home awaited).placeWith (splitAt home x) = place x := by
  obtain ⟨q, id | x⟩ := x
  · rfl
  · by_cases hq : q = home
    · subst hq
      simp only [splitAt, if_true]
      cases x <;> rfl
    · simp only [splitAt, hq, if_false]
      rfl

/-- The controller of `pid` is put back. -/
theorem Agrees.of_tenant (h : u.Agrees live) {t : DeferredSession} {awaited : Nat → Prop}
    (ht : t.Tenant (u.neighbours live' pid awaited))
    (hawaited : ∀ n, (u.domain pid).Awaits n → awaited n)
    (hsets : Sets pid { u.domain pid with deferred := some t.deferred } u v)
    (hnumber : v.registry.nextId = u.registry.nextId) (hsession : v.session = t.session) :
    v.Agrees live' := by
  have hentries := hsets.mem_entries fun _ hk => hk
  refine ⟨hsession ▸ ht.good, ?_, ?_, fun q q' id hid hid' => ?_⟩
  · rw [hsession]
    refine ht.handles.comap (f := splitAt pid) (fun y i hy => ?_)
      (fun y z i _ _ hyz => splitAt_injective pid hyz) fun y i _ hlisted => ?_
    · rw [heldWith_splitAt]
      have hy : (v.domain y.1).held y.2 = some i := hy
      split
      · rename_i hq
        rwa [hq, hsets.home] at hy
      · rename_i hq
        rwa [hsets.others y.1 hq] at hy
    · rwa [placeWith_splitAt] at hlisted
  · rw [hnumber]
    have hold := h.domains pid
    refine hsets.inOrder ⟨?_, hold.numbered,
      fun n hn => ⟨_, rfl, ht.awaited n (hawaited n hn)⟩, hold.apart⟩ h.domains
    rintro c ⟨⟩
    exact ht.filed
  · exact h.unique q q' id (hentries q id hid) (hentries q' id hid')

end Agrees

end UserSession

/-! ## Entries -/

theorem getElem?_insertIfNew_fresh {V : Type} {m : ExtTreeMap Nat V} {n k : Nat} {x : V}
    (hn : n ∉ m) : (m.insertIfNew n x)[k]? = if k = n then some x else m[k]? := by
  rw [ExtTreeMap.getElem?_insertIfNew]
  by_cases h : k = n
  · subst h
    simp [hn]
  · simp [h, Ne.symm h]

theorem getElem?_erase_eq_some {V : Type} {m : ExtTreeMap Nat V} {n k : Nat} {x : V}
    (h : (m.erase n)[k]? = some x) : k ≠ n ∧ m[k]? = some x := by
  rw [ExtTreeMap.getElem?_erase] at h
  split at h
  · cases h
  · rename_i hne
    exact ⟨by rintro rfl; exact hne (by simp), h⟩

namespace DomainState.InOrder

variable {D : DomainState} {n : Nat}

theorem emplace (h : D.InOrder n) (entry : UserEntry)
    (hnew : entry.kind = .deferred → ¬D.Awaits entry.backendId ∧ D.Requested entry.backendId) :
    ({ D with entries := D.entries.insertIfNew n entry } : DomainState).InOrder (n + 1) := by
  have hfresh : n ∉ D.entries := fun hn => lt_irrefl _ (h.numbered n hn)
  have hcases : ∀ (k : Nat) (e : UserEntry), (D.entries.insertIfNew n entry)[k]? = some e →
      k = n ∧ e = entry ∨ D.entries[k]? = some e := by
    intro k e he
    rw [getElem?_insertIfNew_fresh hfresh] at he
    split at he
    · exact .inl ⟨‹_›, (Option.some.inj he).symm⟩
    · exact .inr he
  refine ⟨h.filed, fun k hk => ?_, ?_, ?_⟩
  · obtain hk | hk := ExtTreeMap.mem_insertIfNew.mp hk
    · have hk : n = k := by simpa using hk
      omega
    · exact Nat.lt_succ_of_lt (h.numbered k hk)
  · rintro m ⟨k, e, he, hkind, rfl⟩
    obtain ⟨-, rfl⟩ | he := hcases k e he
    · exact (hnew hkind).2
    · exact h.requested _ ⟨k, e, he, hkind, rfl⟩
  · intro k k' e e' he he' hkind hkind' hid
    obtain ⟨rfl, rfl⟩ | hold := hcases k e he <;> obtain ⟨rfl, rfl⟩ | hold' := hcases k' e' he'
    · rfl
    · exact absurd ⟨k', e', hold', hkind', hid.symm⟩ (hnew hkind).1
    · exact absurd ⟨k, e, hold, hkind, hid⟩ (hnew hkind').1
    · exact h.apart k k' e e' hold hold' hkind hkind' hid

theorem eraseEntry (h : D.InOrder n) (id : Nat) :
    ({ D with entries := D.entries.erase id } : DomainState).InOrder n where
  filed := h.filed
  numbered k hk := h.numbered k (ExtTreeMap.mem_erase.mp hk).2
  requested := by
    rintro m ⟨k, e, he, hkind, rfl⟩
    exact h.requested _ ⟨k, e, (getElem?_erase_eq_some he).2, hkind, rfl⟩
  apart k k' e e' he he' := h.apart k k' e e' (getElem?_erase_eq_some he).2
    (getElem?_erase_eq_some he').2

theorem empty : DomainState.InOrder n {} where
  filed := by rintro c ⟨⟩
  numbered id hid := by simp at hid
  requested := by
    rintro m ⟨id, entry, hentry, -⟩
    simp at hentry
  apart id id' entry entry' hentry := by simp at hentry

/-- A controller that has not been asked for anything. -/
theorem openDeferred (h : D.InOrder n) (hnone : D.deferred = none) (metadata : LoaderMetadata) :
    ({ D with deferred := some { metadata } } : DomainState).InOrder n where
  filed := by
    rintro c ⟨⟩ m r hr
    simp at hr
  numbered := h.numbered
  requested m hm := by
    obtain ⟨c, hc, -⟩ := h.requested m hm
    cases hnone.symm.trans hc
  apart := h.apart

end DomainState.InOrder

namespace UserSession

section Entries

variable {u v : UserSession} {live live' : Pid → Prop} {pid : Pid} {entry : UserEntry} {id : Nat}

/-- What a new entry changes about who holds what. -/
theorem Agrees.held_emplace (h : u.Agrees live)
    (hsets : Sets pid { u.domain pid with
      entries := (u.domain pid).entries.insertIfNew u.registry.nextId entry } u v)
    {x : UserHolder} {i : Nat} (hx : v.held x = some i) :
    u.held x = some i ∨ x = (pid, .inl u.registry.nextId) ∧ entry.managedId = some i := by
  obtain ⟨q, y⟩ := x
  refine hsets.each (P := fun q E => E.held y = some i → u.held (q, y) = some i ∨
    (q, y) = (pid, .inl u.registry.nextId) ∧ entry.managedId = some i) (fun hx => ?_)
    (fun _ _ hx => .inl hx) q hx
  rcases y with id | x
  · have hfresh : u.registry.nextId ∉ (u.domain pid).entries := fun hn =>
      lt_irrefl _ ((h.domains pid).numbered _ hn)
    simp only [DomainState.held, getElem?_insertIfNew_fresh hfresh] at hx
    split at hx
    · rename_i hid
      exact .inr ⟨by rw [hid], hx⟩
    · exact .inl hx
  · exact .inl hx

/-- A new entry, given that the handles are still in order. -/
theorem Agrees.emplace (h : u.Agrees live)
    (hnew : entry.kind = .deferred → ¬(u.domain pid).Awaits entry.backendId ∧
      (u.domain pid).Requested entry.backendId)
    (hsets : Sets pid { u.domain pid with
      entries := (u.domain pid).entries.insertIfNew u.registry.nextId entry } u v)
    (hnumber : v.registry.nextId = u.registry.nextId + 1)
    (hgood : v.session.core.Good false [])
    (hhandles : Handles v.session.dbg.nextBreakpointId v.held
      fun x i => v.session.dbg.Lists live' (place x) i) : v.Agrees live' := by
  have hcases (q : Pid) (k : Nat) : k ∈ (v.domain q).entries →
      k ∈ (u.domain q).entries ∨ q = pid ∧ k = u.registry.nextId := by
    refine hsets.each (P := fun q E => k ∈ E.entries →
      k ∈ (u.domain q).entries ∨ q = pid ∧ k = u.registry.nextId) (fun hk => ?_)
      (fun _ _ hk => .inl hk) q
    obtain hk | hk := ExtTreeMap.mem_insertIfNew.mp hk
    · have hk : u.registry.nextId = k := by simpa using hk
      exact .inr ⟨rfl, hk.symm⟩
    · exact .inl hk
  refine ⟨hgood, hhandles, ?_, fun q q' k hk hk' => ?_⟩
  · rw [hnumber]
    refine hsets.inOrder ((h.domains pid).emplace entry hnew) fun q => ?_
    have hold := h.domains q
    exact ⟨hold.filed, fun k hk => Nat.lt_succ_of_lt (hold.numbered k hk), hold.requested,
      hold.apart⟩
  · obtain hold | ⟨hq, hid⟩ := hcases q k hk <;> obtain hold' | ⟨hq', hid'⟩ := hcases q' k hk'
    · exact h.unique q q' k hold hold'
    · exact absurd ((h.domains q).numbered _ hold) (by omega)
    · exact absurd ((h.domains q').numbered _ hold') (by omega)
    · exact hq.trans hq'.symm

/-- An entry goes, and with it perhaps its breakpoint. -/
theorem Agrees.eraseEntry (h : u.Agrees live)
    (hsets : Sets pid { u.domain pid with entries := (u.domain pid).entries.erase id } u v)
    (hnumber : v.registry.nextId = u.registry.nextId) (hgood : v.session.core.Good false [])
    (hnext : v.session.dbg.nextBreakpointId = u.session.dbg.nextBreakpointId)
    (howns : ∀ q, v.session.dbg.Owns q → u.session.dbg.Owns q)
    (hids : ∀ x i, u.held x = some i → x ≠ (pid, .inl id) → i ∈ u.session.dbg.idsOf x.1 →
      i ∈ v.session.dbg.idsOf x.1) : v.Agrees live := by
  have hheld : ∀ x i, v.held x = some i → u.held x = some i ∧ x ≠ (pid, .inl id) := by
    rintro ⟨q, y⟩ i hx
    refine hsets.each (P := fun q E => E.held y = some i →
      u.held (q, y) = some i ∧ (q, y) ≠ (pid, .inl id)) (fun hx => ?_)
      (fun q hq hx => ⟨hx, fun heq => hq (congrArg Prod.fst heq)⟩) q hx
    rcases y with k | x
    · simp only [DomainState.held, Option.bind_eq_some_iff] at hx
      obtain ⟨e, he, hid⟩ := hx
      obtain ⟨hne, he⟩ := getElem?_erase_eq_some he
      refine ⟨?_, by simpa using hne⟩
      simp [held, DomainState.held, he, hid]
    · exact ⟨hx, by simp⟩
  have hentries := hsets.mem_entries fun k hk => (ExtTreeMap.mem_erase.mp hk).2
  refine h.drop hgood hnext (fun x i hx => (hheld x i hx).1) (fun x i hx _ hlive hown => ?_) ?_
    fun q q' k hk hk' => h.unique q q' k (hentries q k hk) (hentries q' k hk')
  · obtain ⟨hx, hne⟩ := hheld x i hx
    exact ⟨hlive, howns _ hown, hids x i hx hne⟩
  · rw [hnumber]
    exact hsets.inOrder ((h.domains pid).eraseEntry id) h.domains

/-- A domain in which nothing is held any more, or that gets a controller that holds nothing. -/
theorem Agrees.reset {D : DomainState} (h : u.Agrees live) (hsets : Sets pid D u v)
    (hnumber : v.registry.nextId = u.registry.nextId) (hsession : v.session = u.session)
    (hheld : ∀ y i, D.held y = some i → (u.domain pid).held y = some i)
    (horder : D.InOrder u.registry.nextId)
    (hentries : ∀ k, k ∈ D.entries → k ∈ (u.domain pid).entries)
    (hlive : ∀ q, live' q → (∃ y i, (v.domain q).held y = some i) → live q) : v.Agrees live' := by
  have hall := hsets.mem_entries hentries
  refine h.drop (hsession ▸ h.good) (by rw [hsession]) (fun x i hx => ?_)
    (fun x i hx _ hlive' howns => ?_) ?_
    fun q q' k hk hk' => h.unique q q' k (hall q k hk) (hall q' k hk')
  · exact hsets.each (P := fun q E => E.held x.2 = some i → u.held (q, x.2) = some i)
      (hheld x.2 i) (fun _ _ hx => hx) x.1 hx
  · rw [hsession] at howns ⊢
    exact ⟨hlive x.1 hlive' ⟨x.2, i, hx⟩, howns, fun hi => hi⟩
  · rw [hnumber]
    exact hsets.inOrder horder h.domains

end Entries

end UserSession

/-! ## Setting -/

namespace UserSession

section Commands

variable {u v : UserSession} {live live' : Pid → Prop} {pid : Pid} {modules : Modules}
  {loaderMetadata : Session → Except Exception LoaderMetadata} {tracees : Tracees}

/-- The registry stays in order, whether the command returns or throws. -/
def agreeing {α : Type} (live : Pid → Prop) : Post WaitCall Exception UserSession α :=
  ⟨fun _ v => v.Agrees live, fun _ v => v.Agrees live, fun _ _ => True⟩

theorem agrees_addAddress {address : Addr} {expression : String} (h : u.Agrees live) :
    wp (addAddress address expression) (agreeing live) u := by
  simp only [addAddress, onDebugger, emplace, wp_bind, wp_zoom, wp_read, wp_update, wp_pure]
  refine wp_addBreakpoint (fun faults original _ _ htask hnew hacc _ => ?_) fun faults e => ?_
  · refine h.emplace (by rintro ⟨⟩) (sets_of_insert rfl) rfl
      (h.good.insertBreakpoint htask hnew (Lowlevel.bound_of_accessible hacc)).forgetIssued ?_
    refine h.handles.issue (k := (u.pid, .inl u.registry.nextId)) (fun x i hx => ?_)
      (fun _ q hplace _ _ => ?_) fun x i _ hlisted q hplace hlive howns => ?_
    · obtain hx | ⟨rfl, hid⟩ := h.held_emplace (sets_of_insert rfl) hx
      · exact .inl hx
      · exact .inr ⟨rfl, (Option.some.inj hid).symm⟩
    · cases hplace
      exact mem_idsOf_inserted
    · exact mem_idsOf_insertBreakpoint (hlisted q hplace hlive howns)
  · exact h.onSession h.good rfl (fun _ => rfl) rfl fun q _ hlive howns => ⟨hlive, howns, rfl⟩

/-- What adding a request to a controller leaves behind. -/
def AddsRequest (add : DeferredAct Nat) : Prop :=
  ∀ (N : Neighbours) (d : Debugger) (s : DeferredSession), s.Serves N d → d.process.pid = N.home →
    wp add ⟨fun k t => t.Serves N d ∧ k = s.deferred.nextRequestId ∧ k ∈ t.deferred.requests,
      fun _ t => t.Serves N d, fun _ _ => True⟩ s

theorem addsRequest_addSymbol (symbol : String) :
    AddsRequest (DeferredBreakpoints.addSymbol modules symbol) := by
  intro N d s h hhome
  simp only [DeferredBreakpoints.addSymbol, wp_bind, wp_ite, wp_raise]
  split
  · exact h
  · exact serves_addTarget h hhome _

theorem addsRequest_addSource (file : String) (line : Nat) :
    AddsRequest (DeferredBreakpoints.addSource modules file line) := by
  intro N d s h hhome
  simp only [DeferredBreakpoints.addSource, wp_bind, wp_ite, wp_raise]
  split
  · exact h
  split
  · exact h
  · exact serves_addTarget h hhome _

theorem agrees_ensureDeferred (h : u.Agrees live) :
    wp (ensureDeferred loaderMetadata u.pid)
      ⟨fun c v => v.Agrees live ∧ (v.domain u.pid).deferred = some c ∧ v.session = u.session,
        fun _ v => v.Agrees live, fun _ _ => True⟩ u := by
  have hself : ∀ q, (u.setDomain u.pid (u.domain u.pid)).domain q = u.domain q := fun q => by
    rw [domain_setDomain]
    split
    · rename_i hq
      rw [hq]
    · rfl
  have hsame : (u.setDomain u.pid (u.domain u.pid)).Agrees live := h.congr rfl hself rfl
  simp only [ensureDeferred, lookUp, wp_bind, wp_update, wp_read]
  cases hc : ((u.setDomain u.pid (u.domain u.pid)).domain u.pid).deferred with
  | some c => exact ⟨hsame, hc, rfl⟩
  | none =>
    simp only [wp_bind, wp_read]
    split
    · simp only [wp_pure, wp_update]
      refine ⟨?_, ?_, rfl⟩
      · refine hsame.reset (sets_of_insert rfl) rfl rfl (fun y i hy => ?_)
          ((hsame.domains u.pid).openDeferred hc _) (fun _ hk => hk) fun q hq _ => hq
        rcases y with id | ⟨_ | _ | k⟩
        · exact hy
        · cases hy
        · cases hy
        · simp [DomainState.held, DeferredBreakpoints.held] at hy
      · exact congrArg DomainState.deferred (domain_setDomain.trans (if_pos rfl))
    · exact hsame

theorem agrees_addDeferred {add : DeferredAct Nat} (hadd : AddsRequest add) {expression : String}
    (h : u.Agrees live) : wp (addDeferred loaderMetadata add expression) (agreeing live) u := by
  simp only [addDeferred, wp_bind, wp_read]
  refine wp_mono (agrees_ensureDeferred h) ?_ (fun _ _ ht => ht) fun _ _ _ => trivial
  rintro c v ⟨hv, hc, hsession⟩
  have hpid : v.pid = u.pid := by
    rw [pid, hsession, ← pid]
  simp only [onDeferred, emplace, wp_zoom, wp_bind, wp_read, wp_update, wp_pure]
  have htenant := hv.tenant_of_deferred hc
  refine wp_mono (hadd _ v.session.dbg _ ⟨htenant, rfl, rfl⟩ hpid) ?_ ?_ fun _ _ _ => trivial
  · rintro k t ⟨ht, rfl, hk⟩
    have hsets : Sets u.pid { v.domain u.pid with deferred := some t.deferred } v
        { v.setDomain u.pid { v.domain u.pid with deferred := some t.deferred } with
          session := t.session } := sets_of_insert rfl
    have hback := hv.of_tenant ht.1 (fun _ hn => hn) hsets rfl rfl
    refine hback.emplace (fun _ => ⟨?_, t.deferred, ?_, hk⟩) (sets_of_insert rfl) rfl hback.good ?_
    · rw [hsets.home]
      intro hn
      obtain ⟨c', hc', hin⟩ := (hv.domains u.pid).requested _ hn
      cases hc.symm.trans hc'
      obtain ⟨r, hr⟩ := Option.isSome_iff_exists.mp (ExtTreeMap.isSome_getElem?_iff_mem.mpr hin)
      exact lt_irrefl _ ((hv.domains u.pid).filed c hc _ r hr).2
    · rw [hsets.home]
    · refine hback.handles.drop (fun x i hx => ?_) fun _ _ _ hx => hx
      obtain hx | ⟨-, hid⟩ := hback.held_emplace (sets_of_insert rfl) hx
      · exact hx
      · cases hid
  · rintro e t ht
    exact hv.of_tenant ht.1 (fun _ hn => hn) (sets_of_insert rfl) rfl rfl

theorem agrees_lookUp {α : Type} {f : Session → Except Exception α} {x : α → UserAct Nat}
    (h : u.Agrees live) (hx : ∀ a, wp (x a) (agreeing live) u) :
    wp (lookUp f >>= x) (agreeing live) u := by
  simp only [lookUp, wp_bind, wp_read]
  split
  · exact hx _
  · exact h

theorem agrees_addSymbol {symbol : String} (h : u.Agrees live) :
    wp (addSymbol modules loaderMetadata symbol) (agreeing live) u := by
  simp only [addSymbol, wp_ite]
  split
  · simp only [wp_bind, wp_raise]
    exact h
  · refine agrees_lookUp h fun a => ?_
    cases a with
    | none => exact agrees_addDeferred (addsRequest_addSymbol symbol) h
    | some address => exact agrees_addAddress h

theorem agrees_addSource {file text : String} {line : Nat} (h : u.Agrees live) :
    wp (addSource modules loaderMetadata file line text) (agreeing live) u := by
  simp only [addSource, wp_ite]
  split
  · simp only [wp_bind, wp_raise]
    exact h
  split
  · simp only [wp_bind, wp_raise]
    exact h
  · refine agrees_lookUp h fun a => ?_
    cases a with
    | none => exact agrees_addDeferred (addsRequest_addSource file line) h
    | some address => exact agrees_addAddress h

theorem agrees_setBreakpoint {location : BreakLocation} (h : u.Agrees live) :
    wp (UserCommand.setBreakpoint modules loaderMetadata location) (agreeing live) u := by
  have hadd : wp (UserCommand.addAt modules loaderMetadata location) (agreeing live) u := by
    cases location with
    | address value text => exact agrees_addAddress h
    | source file line text => exact agrees_addSource h
    | symbol name => exact agrees_addSymbol h
  simp only [UserCommand.setBreakpoint, wp_bind]
  refine wp_mono hadd (fun id v hv => ?_) (fun _ _ hv => hv) fun _ _ _ => trivial
  simp only [wp_read]
  split <;> exact hv

/-! ## Deleting -/

/-- An entry is deleted, or the debugger refuses to remove its breakpoint. -/
def removing (live : Pid → Prop) (id : Nat) (u : UserSession) :
    Post WaitCall Exception UserSession Bool where
  returned r v := v.Agrees live ∧ (r = true ↔ id ∈ (u.domain u.pid).entries) ∧
    id ∉ (v.domain u.pid).entries
  raised e v := id ∈ (u.domain u.pid).entries ∧
    ∃ i, removeBreakpoint i u.session = .raised e v.session
  blocked _ _ := False

/-- What an entry stands on is taken away, and all is well once the entry goes too. -/
def releasing (live : Pid → Prop) (id : Nat) (u : UserSession) :
    Post WaitCall Exception UserSession Bool where
  returned r v := r = true ∧ (v.setDomain u.pid { v.domain u.pid with
    entries := (v.domain u.pid).entries.erase id }).Agrees live
  raised e v := ∃ i, removeBreakpoint i u.session = .raised e v.session
  blocked _ _ := False

theorem releasing_managed {id : Nat} {entry : UserEntry} (h : u.Agrees live) (hlive : live u.pid)
    (hentry : (u.domain u.pid).entries[id]? = some entry) (hkind : entry.kind = .managed) :
    wp (onDebugger (removeBreakpoint entry.backendId)) (releasing live id u) u := by
  have hheld : u.held (u.pid, .inl id) = some entry.backendId := by
    simp [held, DomainState.held, hentry, UserEntry.managedId, hkind]
  have hlisted : entry.backendId ∈ u.session.dbg.breakpointIds := by
    have := h.handles.found hheld u.pid rfl hlive (.inl rfl)
    rwa [Debugger.idsOf_active (show u.pid = u.session.dbg.process.pid from rfl)] at this
  simp only [onDebugger, wp_zoom]
  refine removeBreakpoint_good h.good (fun hout => absurd hlisted hout)
    (fun t a hdbg hgood => ⟨rfl, ?_⟩) fun t e he _ _ => ⟨_, he⟩
  refine h.eraseEntry (sets_of_insert rfl) rfl hgood ?_ (fun q hq => ?_) fun x i hx hne hi => ?_
  · show t.dbg.nextBreakpointId = _
    rw [hdbg]
    exact (core_eraseBreakpoint u.session.dbg entry.backendId a).1
  · change t.dbg.Owns q at hq
    rwa [hdbg, owns_eraseBreakpoint] at hq
  · show i ∈ t.dbg.idsOf x.1
    rw [hdbg]
    refine mem_idsOf_eraseBreakpoint hi ?_
    rintro rfl
    exact hne (h.handles.single hx hheld)

-- The entry is erased after its request, but the request goes while nothing awaits it: what the
-- controller does is judged in `w`, where the entry has gone already.
theorem releasing_deferred {id : Nat} {entry : UserEntry} {c : DeferredBreakpoints}
    (h : u.Agrees live) (hlive : live u.pid)
    (hentry : (u.domain u.pid).entries[id]? = some entry) (hkind : entry.kind = .deferred)
    (hc : (u.domain u.pid).deferred = some c) (hk : entry.backendId ∈ c.requests) :
    wp (onDeferred u.pid c (DeferredBreakpoints.remove entry.backendId)) (releasing live id u)
      u := by
  generalize hw : u.setDomain u.pid { u.domain u.pid with
    entries := (u.domain u.pid).entries.erase id } = w
  have hsets : Sets u.pid { u.domain u.pid with
      entries := (u.domain u.pid).entries.erase id } u w := sets_of_insert (by rw [← hw]; rfl)
  have hsession : w.session = u.session := by
    rw [← hw]
    rfl
  have hnumber : w.registry.nextId = u.registry.nextId := by
    rw [← hw]
    rfl
  have herased : w.Agrees live := h.eraseEntry hsets hnumber (hsession ▸ h.good)
    (by rw [hsession]) (fun _ hq => hsession ▸ hq) fun _ _ _ _ hi => hsession ▸ hi
  have hforgotten : ¬(w.domain u.pid).Awaits entry.backendId := by
    rw [hsets.home]
    rintro ⟨k, e, he, hkind', hid⟩
    obtain ⟨hne, he⟩ := getElem?_erase_eq_some he
    exact hne ((h.domains u.pid).apart k id e entry he hentry hkind' hkind hid)
  have hstill : (w.domain u.pid).deferred = some c := by
    rw [hsets.home]
    exact hc
  have htenant := herased.tenant_of_deferred hstill
  rw [hsession] at htenant
  simp only [onDeferred, wp_zoom]
  refine wp_mono (serves_remove ⟨htenant, rfl, rfl⟩ rfl hlive hforgotten) ?_
    (fun e t he => he) fun _ _ hv => hv.elim
  rintro r t ⟨ht, hr⟩
  have hback : Sets u.pid { u.domain u.pid with deferred := some t.deferred } u
      { u.setDomain u.pid { u.domain u.pid with deferred := some t.deferred } with
        session := t.session } := sets_of_insert rfl
  refine ⟨hr hk, herased.of_tenant ht.1 (fun _ hn => hn) ⟨?_, fun q hq => ?_⟩ hnumber.symm rfl⟩
  · rw [domain_setDomain, if_pos rfl, hback.home, hsets.home]
  · rw [domain_setDomain, if_neg hq, hback.others q hq, hsets.others q hq]

theorem releasing_removeBackend {id : Nat} {entry : UserEntry} (h : u.Agrees live)
    (hlive : live u.pid) (hentry : (u.domain u.pid).entries[id]? = some entry) :
    wp (removeBackend u.pid (u.domain u.pid) entry) (releasing live id u) u := by
  unfold removeBackend
  cases hkind : entry.kind with
  | managed => exact releasing_managed h hlive hentry hkind
  | deferred =>
    obtain ⟨c, hc, hk⟩ := (h.domains u.pid).requested entry.backendId
      ⟨id, entry, hentry, hkind, rfl⟩
    simp only [hc]
    exact releasing_deferred h hlive hentry hkind hc hk

theorem agrees_remove {id : Nat} (h : u.Agrees live) (hlive : live u.pid) :
    wp (UserBreakpointRegistry.remove id) (removing live id u) u := by
  have hunknown (hout : id ∉ (u.domain u.pid).entries) : (removing live id u).returned false u :=
    ⟨h, by simp [hout], hout⟩
  simp only [UserBreakpointRegistry.remove, activeDomainIfPresent, wp_bind, wp_read]
  cases hdomain : u.registry.domains[u.pid]? with
  | none =>
    refine hunknown ?_
    rw [domain_of_none hdomain]
    simp
  | some D =>
    obtain rfl := domain_of_some hdomain
    cases hentry : (u.domain u.pid).entries[id]? with
    | none =>
      simp only [hentry]
      exact hunknown (by simpa using hentry)
    | some entry =>
      have hin : id ∈ (u.domain u.pid).entries :=
        ExtTreeMap.mem_iff_isSome_getElem?.mpr (by simp [hentry])
      simp only [hentry, wp_bind]
      refine wp_mono (releasing_removeBackend h hlive hentry) ?_ (fun e v he => ⟨hin, he⟩)
        fun _ _ hv => hv.elim
      rintro r v ⟨rfl, hv⟩
      simp only [Bool.not_true, Bool.false_eq_true, if_false, UserBreakpointRegistry.eraseEntry,
        wp_bind, wp_update, wp_pure]
      refine ⟨hv, iff_of_true rfl hin, ?_⟩
      rw [domain_setDomain, if_pos rfl]
      simp

/-! ## Commands of the debugger -/

theorem agrees_onDebugger {x : Act Unit} (h : u.Agrees live)
    (hgood : wp x ⟨fun _ t => t.core.Good false [], fun _ t => t.core.Good false [],
      fun _ _ => True⟩ u.session)
    (hids : wp x (keepingIds u.session.dbg) u.session) : wp (onDebugger x) (agreeing live) u := by
  have kept : ∀ t : Session, t.core.Good false [] → u.session.dbg.KeepsIds t.dbg →
      ({ u with session := t } : UserSession).Agrees live := fun t ht hkept =>
    h.onSession ht hkept.next (fun _ => rfl) rfl fun q _ hlive howns =>
      ⟨hlive, hkept.owns q howns, hkept.idsOf q howns⟩
  simp only [onDebugger, wp_zoom]
  exact wp_mono (wp_and hgood hids) (fun _ t ht => kept t ht.1 ht.2)
    (fun _ t ht => kept t ht.1 ht.2) fun _ _ _ => trivial

theorem agrees_operation (htame : Tame false tracees) (h : u.Agrees live) (op : Operation)
    (hdetach : op.detaches = false) {x : Act Unit} (hx : op.run tracees = (fun _ => .done) <$> x)
    (hids : wp x (keepingIds u.session.dbg) u.session) : wp (onDebugger x) (agreeing live) u := by
  refine agrees_onDebugger h ?_ hids
  have hrun := maintained_run htame op h.good
  rw [hx, wp_map] at hrun
  exact wp_mono hrun (fun _ _ ht => ht.forgetIssued) (fun _ _ ht => ht hdetach) fun _ _ _ => trivial

theorem agrees_reported {x : UserAct Unit} (hx : wp x (agreeing live) u) :
    wp (UserCommand.reported x) (agreeing live) u := by
  simp only [UserCommand.reported, wp_handle, wp_pure]
  exact hx

/-! ## Stops -/

/-- What a stop leaves behind: nothing is known about new processes, nor about the image that has
been replaced. -/
def stopping (u : UserSession) : Post WaitCall Exception UserSession StopInfo where
  returned info v := (v.Agrees fun q => u.session.dbg.Owns q ∧ (info.reason = .exec → q ≠ v.pid)) ∧
    ∀ q, q ≠ u.pid → u.domain q = {} → v.domain q = {}
  raised _ _ := True
  blocked _ _ := True

theorem agrees_stop {x : Act StopInfo} (h : u.Agrees fun _ => True)
    (hgood : wp x ⟨fun _ t => t.core.Good false [], fun _ _ => True, fun _ _ => True⟩ u.session)
    (htold : wp x (told u.session.dbg) u.session) : wp (onDebugger x) (stopping u) u := by
  simp only [onDebugger, wp_zoom]
  refine wp_mono (wp_and hgood htold) ?_ (fun _ _ _ => trivial) fun _ _ _ => trivial
  rintro info t ⟨ht, htold⟩
  refine ⟨h.onSession ht htold.next (fun _ => rfl) rfl fun q _ hlive howns => ?_, fun q _ hq => hq⟩
  exact ⟨trivial, hlive.1, htold.kept h.good.tables.free hlive.1 howns hlive.2⟩

theorem agrees_continueExecution (htame : Tame false tracees) (h : u.Agrees fun _ => True)
    (policy : SignalPolicy) :
    wp (UserBreakpointRegistry.continueExecution modules tracees policy) (stopping u) u := by
  simp only [UserBreakpointRegistry.continueExecution, wp_bind, wp_read]
  cases hc : u.activeDomainIfPresent.bind (·.deferred) with
  | none =>
    refine agrees_stop h ?_ (told_continueExecution htame h.good)
    exact wp_mono (reported_continueExecution htame h.good) (fun _ _ ht => ht.good)
      (fun _ _ _ => trivial) fun _ _ _ => trivial
  | some c =>
    obtain ⟨D, hD, hc⟩ := Option.bind_eq_some_iff.mp hc
    have hdomain : (u.domain u.pid).deferred = some c := by
      rw [domain_of_some hD]
      exact hc
    simp only [onDeferred, wp_zoom]
    refine wp_mono (tenant_continueExecution htame (h.tenant_of_deferred hdomain) rfl policy) ?_
      (fun _ _ _ => trivial) fun _ _ _ => trivial
    intro info t ht
    have hsets : Sets u.pid { u.domain u.pid with deferred := some t.deferred } u
        { u.setDomain u.pid { u.domain u.pid with deferred := some t.deferred } with
          session := t.session } := sets_of_insert rfl
    have hback := h.of_tenant ht (fun _ hn => hn) hsets rfl rfl
    exact ⟨hback.widen fun q _ hlive _ => ⟨trivial, hlive⟩, fun q hq hnone =>
      (hsets.others q hq).trans hnone⟩

/-- The domain of the process whose image has been replaced is forgotten. -/
theorem agrees_onImageReplaced {P : Pid → Prop} (h : u.Agrees fun q => P q ∧ q ≠ u.pid) :
    wp onImageReplaced ⟨fun _ v => v.Agrees P ∧ ∀ q, u.domain q = {} → v.domain q = {},
      fun _ _ => True, fun _ _ => True⟩ u := by
  have forget : ∀ v : UserSession, (v.Agrees fun q => P q ∧ q ≠ u.pid) →
      (∀ q, q ≠ u.pid → v.domain q = u.domain q) → (v.setDomain u.pid {}).Agrees P ∧
        ∀ q, u.domain q = {} → (v.setDomain u.pid {}).domain q = {} := by
    intro v hv hothers
    have hsets : Sets u.pid {} v (v.setDomain u.pid {}) := sets_of_insert rfl
    refine ⟨hv.reset hsets rfl rfl (fun y i hy => ?_) .empty (fun k hk => ?_) fun q hq hsome => ?_,
      fun q hq => ?_⟩
    · rcases y with id | x <;> simp [DomainState.held] at hy
    · simp at hk
    · refine ⟨hq, ?_⟩
      rintro rfl
      obtain ⟨y, i, hy⟩ := hsome
      rw [hsets.home] at hy
      rcases y with id | x <;> simp [DomainState.held] at hy
    · by_cases hself : q = u.pid
      · rw [hself, hsets.home]
      · rw [hsets.others q hself, hothers q hself, hq]
  simp only [onImageReplaced, activeDomainIfPresent, wp_bind, wp_read]
  cases hD : u.registry.domains[u.pid]? with
  | none =>
    refine ⟨h.widen fun q hq hP _ => ⟨hP, ?_⟩, fun q hq => hq⟩
    rintro rfl
    exact hq (domain_of_none hD)
  | some D =>
    cases hc : D.deferred with
    | none =>
      simp only [hc, wp_update]
      exact forget u h fun _ _ => rfl
    | some c =>
      have hdomain : (u.domain u.pid).deferred = some c := by
        rw [domain_of_some hD]
        exact hc
      simp only [hc, onDeferred, wp_bind, wp_zoom, wp_update]
      refine wp_mono (monitors_suspendMonitoring
        ⟨h.tenant_of_deferred hdomain, ⟨rfl, rfl⟩, rfl, rfl⟩) (fun _ t ht => ?_)
        (fun _ _ _ => trivial) fun _ _ _ => trivial
      have hsets : Sets u.pid { u.domain u.pid with deferred := some t.deferred } u
          { u.setDomain u.pid { u.domain u.pid with deferred := some t.deferred } with
            session := t.session } := sets_of_insert rfl
      exact forget _ (h.of_tenant ht.tenant (fun _ hn => hn) hsets rfl rfl) hsets.others

/-! ## Runs -/

/-- No process appears under an id that the registry has a domain for. -/
def NoReuse (u v : UserSession) : Prop :=
  ∀ q, v.session.dbg.Owns q → ¬u.session.dbg.Owns q → q ∉ u.registry.domains

/-- The registry is in order again after a command that came back. -/
def settling (u : UserSession) : Post WaitCall Exception UserSession Unit where
  returned _ v := NoReuse u v → v.Agrees fun _ => True
  raised _ _ := True
  blocked _ _ := True

theorem agrees_refreshImage {x : UserAct StopInfo} (hx : wp x (stopping u) u) :
    wp (x >>= refreshImage) (settling u) u := by
  have settle : ∀ v : UserSession, (v.Agrees u.session.dbg.Owns) →
      (∀ q, q ≠ u.pid → u.domain q = {} → v.domain q = {}) → (settling u).returned () v := by
    refine fun v hv hnone hfresh => hv.widen fun q hq _ howns => ?_
    by_contra hnew
    have hpid : q ≠ u.pid := fun h => hnew (.inl h)
    refine hq (hnone q hpid (domain_of_none ?_))
    simpa using hfresh q howns hnew
  simp only [wp_bind]
  refine wp_mono hx ?_ (fun _ _ _ => trivial) fun _ _ _ => trivial
  rintro info v ⟨hv, hnone⟩
  simp only [refreshImage, wp_ite, wp_pure]
  split
  · rename_i hreason
    refine wp_mono (agrees_onImageReplaced (hv.widen fun q _ hq _ => ⟨hq.1, fun _ => hq.2⟩)) ?_
      (fun _ _ _ => trivial) fun _ _ _ => trivial
    rintro _ w ⟨hw, hcleared⟩
    exact settle w hw fun q hq hq' => hcleared q (hnone q hq hq')
  · rename_i hreason
    exact settle v (hv.widen fun q _ hq _ => ⟨hq, fun h => absurd h hreason⟩) hnone

theorem agrees_run (htame : Tame false tracees) (h : u.Agrees fun _ => True)
    (command : UserCommand) :
    wp (command.run modules loaderMetadata tracees) (settling u) u := by
  have settled : ∀ {x : UserAct Unit}, wp x (agreeing fun _ => True) u → wp x (settling u) u :=
    fun hx => wp_mono hx (fun _ _ hv _ => hv) (fun _ _ _ => trivial) fun _ _ _ => trivial
  cases command with
  | «continue» => exact agrees_refreshImage (agrees_continueExecution htame h .suppress)
  | stepi =>
    simp only [UserCommand.run, UserCommand.stepInstruction]
    rw [wp_bind, wp_read]
    dsimp only
    split
    · trivial
    · exact fun _ => h
    · refine agrees_refreshImage (agrees_stop h ?_ (told_singleStep htame h.good))
      exact wp_mono (reported_singleStep htame h.good) (fun _ _ ht => ht.good)
        (fun _ _ _ => trivial) fun _ _ _ => trivial
  | «break» location => exact settled (agrees_reported (agrees_setBreakpoint h))
  | delete id =>
    simp only [UserCommand.run, wp_bind]
    exact wp_mono (agrees_remove h trivial) (fun _ _ hv _ => hv.1) (fun _ _ _ => trivial)
      fun _ _ hv => hv.elim
  | process pid => exact settled (agrees_reported (agrees_operation htame h (.selectProcess pid) rfl
      rfl (keepingIds_selectProcess h.good)))
  | thread tid => exact settled (agrees_reported (agrees_operation htame h (.selectThread tid) rfl
      rfl keepingIds_selectThread))
  | followForkMode policy => exact settled (agrees_reported (agrees_operation htame h
      (.setForkFollowPolicy policy) rfl rfl keepingIds_setForkFollowPolicy))
  | memory address bytes => exact settled (agrees_reported (agrees_operation htame h
      (.writeMemory address bytes) rfl rfl keepingIds_writeMemory))

end Commands

end UserSession

end MiniDebugger
