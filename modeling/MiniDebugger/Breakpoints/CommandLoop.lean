import MiniDebugger.Breakpoints.Agreement
import MiniDebugger.Checks

/-!
# The command loop and the breakpoints of the user

What `info breakpoints`, the check before a step and `delete` find, given that the registry agrees
with the debugger, and that it does between any two commands of the loop.
-/

namespace MiniDebugger

open Command UserBreakpointRegistry
open Std (ExtTreeMap)

/-! ## Listing -/

section Listing

variable {u : UserSession} {live : Pid → Prop} {id : Nat} {entry : UserEntry}

theorem exists_findManaged (h : u.session.core.Good false [])
    (hid : id ∈ u.session.dbg.breakpointIds) : ∃ bp, findManaged u.session.dbg id = some bp := by
  obtain ⟨a, ha⟩ := Option.isSome_iff_exists.mp (ExtTreeMap.isSome_getElem?_iff_mem.mpr hid)
  obtain ⟨bp, hbp, hsame⟩ := h.tables.sound.backward id a ha
  refine Option.isSome_iff_exists.mp (List.find?_isSome.mpr ⟨bp, ?_, by simpa using hsame⟩)
  exact List.mem_map.mpr ⟨(a, bp), ExtTreeMap.mem_toList_iff_getElem?_eq_some.mpr hbp, rfl⟩

/-- Every entry of the active process can be shown. -/
theorem UserSession.Agrees.exists_snapshot (h : u.Agrees live) (hlive : live u.pid)
    (hentry : (u.domain u.pid).entries[id]? = some entry) :
    ∃ bp, snapshot u.session.dbg id entry (u.domain u.pid) = .ok bp := by
  have listed : ∀ x i, u.held (u.pid, x) = some i → UserSession.place (u.pid, x) = some u.pid →
      ∃ bp, findManaged u.session.dbg i = some bp := by
    intro x i hheld hplace
    have hi := h.handles.found hheld u.pid hplace hlive (.inl rfl)
    rw [Debugger.idsOf_active (show u.pid = u.session.dbg.process.pid from rfl)] at hi
    exact exists_findManaged h.good hi
  cases hkind : entry.kind with
  | managed =>
    obtain ⟨bp, hbp⟩ := listed (.inl id) entry.backendId
      (by simp [UserSession.held, DomainState.held, hentry, UserEntry.managedId, hkind]) rfl
    simp [snapshot, hkind, hbp]
  | deferred =>
    obtain ⟨c, hc, hk⟩ := (h.domains u.pid).requested entry.backendId
      ⟨id, entry, hentry, hkind, rfl⟩
    obtain ⟨r, hr⟩ := Option.isSome_iff_exists.mp (ExtTreeMap.isSome_getElem?_iff_mem.mpr hk)
    have hfiled := (h.domains u.pid).filed c hc
    have hsome : ∃ request, (c.requests.toList.map (·.2)).find? (·.requestId = entry.backendId) =
        some request := by
      refine Option.isSome_iff_exists.mp (List.find?_isSome.mpr ⟨r, ?_, ?_⟩)
      · exact List.mem_map.mpr
          ⟨(entry.backendId, r), ExtTreeMap.mem_toList_iff_getElem?_eq_some.mpr hr, rfl⟩
      · simpa using (hfiled _ r hr).1
    obtain ⟨request, hrequest⟩ := hsome
    have hself : c.requests[entry.backendId]? = some request := by
      obtain ⟨⟨k, r'⟩, hin, rfl⟩ := List.mem_map.mp (List.mem_of_find?_eq_some hrequest)
      have hfound := ExtTreeMap.mem_toList_iff_getElem?_eq_some.mp hin
      have hid : r'.requestId = entry.backendId := by simpa using List.find?_some hrequest
      rwa [← hid, (hfiled k r' hfound).1]
    simp only [snapshot, hkind, hc, hrequest]
    split
    · rename_i i address hi _
      obtain ⟨bp, hbp⟩ := listed (.inr (.request entry.backendId)) i
        (by simp [UserSession.held, DomainState.held, hc, DeferredBreakpoints.held, hself, hi]) rfl
      simp [hbp]
    · exact ⟨_, rfl⟩

variable {d : Debugger} {D : DomainState} {entries : List (Nat × UserEntry)}
  {list : List UserBreakpoint}

theorem id_of_snapshot {bp : UserBreakpoint} (h : snapshot d id entry D = .ok bp) : bp.id = id := by
  unfold snapshot at h
  split at h
  · split at h <;> cases h
    rfl
  · split at h
    · cases h
    split at h
    · cases h
    split at h
    · split at h <;> cases h
      rfl
    · cases h
      rfl

/-- Each entry is shown under its number. -/
def Shown (d : Debugger) (D : DomainState) (entry : Nat × UserEntry) (bp : UserBreakpoint) : Prop :=
  snapshot d entry.1 entry.2 D = .ok bp ∧ bp.id = entry.1

theorem ids_of_shown (h : List.Forall₂ (Shown d D) entries list) :
    list.map (·.id) = entries.map (·.1) := by
  induction h with
  | nil => rfl
  | cons hab _ ih => rw [List.map_cons, List.map_cons, hab.2, ih]

theorem anyPending_of_shown (h : List.Forall₂ (Shown d D) entries list) :
    anyPending d D entries = .ok (list.any (·.state = .pending)) := by
  induction h with
  | nil => rfl
  | @cons entry bp entries list hab _ ih =>
    rw [anyPending, hab.1]
    show (if bp.state = .pending then Except.ok true else anyPending d D entries) = _
    by_cases hpending : bp.state = .pending
    · simp [hpending]
    · simp [hpending, ih]

theorem exists_of_mem_shown (h : List.Forall₂ (Shown d D) entries list) {bp : UserBreakpoint}
    (hbp : bp ∈ list) : ∃ entry ∈ entries, Shown d D entry bp := by
  induction h with
  | nil => cases hbp
  | cons hab _ ih =>
    cases hbp with
    | head => exact ⟨_, List.mem_cons_self, hab⟩
    | tail _ hbp =>
      obtain ⟨entry, hentry, hshown⟩ := ih hbp
      exact ⟨entry, List.mem_cons_of_mem _ hentry, hshown⟩

/-- The breakpoint of a number is the one that is listed. -/
theorem breakpoint_of_shown (hD : u.activeDomainIfPresent = some D)
    (h : List.Forall₂ (Shown u.session.dbg D) D.entries.toList list) :
    breakpoint u id = .ok (list.find? (·.id = id)) := by
  simp only [breakpoint, hD]
  cases hfound : list.find? (·.id = id) with
  | none =>
    cases hentry : D.entries[id]? with
    | none => rfl
    | some entry =>
      have hin : id ∈ list.map (·.id) := by
        rw [ids_of_shown h]
        exact List.mem_map.mpr
          ⟨(id, entry), ExtTreeMap.mem_toList_iff_getElem?_eq_some.mpr hentry, rfl⟩
      obtain ⟨bp, hbp, hid⟩ := List.mem_map.mp hin
      exact absurd (by simpa using hid) (List.find?_eq_none.mp hfound bp hbp)
  | some bp =>
    have hid : bp.id = id := by simpa using List.find?_some hfound
    obtain ⟨⟨k, entry⟩, hin, hshown⟩ := exists_of_mem_shown h (List.mem_of_find?_eq_some hfound)
    obtain ⟨hshown, hk⟩ := hshown
    have hentry := ExtTreeMap.mem_toList_iff_getElem?_eq_some.mp hin
    obtain rfl : k = id := hk.symm.trans hid
    simp only [hentry, hshown]
    rfl

/-- What is listed for the active process, and what the lookups say about it. -/
theorem UserSession.Agrees.listing (h : u.Agrees live) (hlive : live u.pid) :
    ∃ list, UserBreakpointRegistry.breakpoints u = .ok list ∧
      list.map (·.id) = (u.domain u.pid).entries.toList.map (·.1) ∧
      hasPending u = .ok (list.any (·.state = .pending)) ∧
      ∀ id, breakpoint u id = .ok (list.find? (·.id = id)) := by
  cases hD : u.activeDomainIfPresent with
  | none =>
    refine ⟨[], by simp [UserBreakpointRegistry.breakpoints, hD], ?_, by simp [hasPending, hD],
      fun id => ?_⟩
    · rw [UserSession.domain_of_none hD]
      rfl
    · simp [breakpoint, hD]
  | some D =>
    have hdomain : u.domain u.pid = D := UserSession.domain_of_some hD
    have hshown : ∀ entry ∈ D.entries.toList,
        ∃ bp, snapshot u.session.dbg entry.1 entry.2 D = .ok bp := by
      rintro ⟨id, entry⟩ hin
      have hentry := ExtTreeMap.mem_toList_iff_getElem?_eq_some.mp hin
      rw [← hdomain] at hentry ⊢
      exact h.exists_snapshot hlive hentry
    obtain ⟨list, hlist⟩ := Checks.exists_mapM_eq_ok hshown
    have hall : List.Forall₂ (Shown u.session.dbg D) D.entries.toList list :=
      (Checks.mapM_eq_ok.mp hlist).imp fun _ _ hbp => ⟨hbp, id_of_snapshot hbp⟩
    refine ⟨list, by simp [UserBreakpointRegistry.breakpoints, hD, hlist], ?_, ?_,
      fun id => breakpoint_of_shown hD hall⟩
    · rw [hdomain]
      exact ids_of_shown hall
    · simp only [hasPending, hD]
      exact anyPending_of_shown hall

end Listing

/-! ## The command loop -/

/-- What the session meets next. -/
def UserSession.facing (u : UserSession) (script : List Wakeup) (faults : List (Option Nat)) :
    UserSession := { u with session := u.session.facing script faults }

/-- The sessions between the commands of a command loop that starts with `launch` or `attach`. The
loop goes on while the process is stopped, and ends with an exception that is not caught. -/
inductive CommandRun (modules : Modules)
    (loaderMetadata : Session → Except Exception LoaderMetadata) : UserSession → Prop
  | start {s : Session} (h : Started s) : CommandRun modules loaderMetadata ⟨{}, s⟩
  | step {u v : UserSession} {command : UserCommand} {script : List Wakeup}
      {faults : List (Option Nat)} (h : CommandRun modules loaderMetadata u)
      (hstopped : u.session.dbg.process.state = .stopped)
      (hrun : command.run modules loaderMetadata calm (u.facing script faults) = .returned () v)
      (hfresh : UserSession.NoReuse u v) : CommandRun modules loaderMetadata v

section CommandLoop

variable {modules : Modules} {loaderMetadata : Session → Except Exception LoaderMetadata}
  {u : UserSession}

theorem agrees_started {s : Session} (h : Started s) :
    UserSession.Agrees (fun _ => True) ⟨{}, s⟩ := by
  have hempty : ∀ pid, UserSession.domain ⟨{}, s⟩ pid = {} := fun pid => by
    simp [UserSession.domain]
  have hheld : ∀ x i, UserSession.held ⟨{}, s⟩ x ≠ some i := by
    rintro ⟨pid, id | x⟩ i <;> simp [UserSession.held, hempty, DomainState.held]
  refine ⟨good_started h, ⟨fun hx => absurd hx (hheld _ _), fun hx => absurd hx (hheld _ _),
    fun hx => absurd hx (hheld _ _)⟩, fun pid => ?_, fun pid pid' id hid => ?_⟩
  · rw [hempty]
    exact .empty
  · rw [hempty] at hid
    simp at hid

theorem CommandRun.agrees (h : CommandRun modules loaderMetadata u) : u.Agrees fun _ => True := by
  induction h with
  | start h => exact agrees_started h
  | @step u v command script faults _ _ hrun hfresh ih =>
    have hfacing : (u.facing script faults).Agrees fun _ => True :=
      ih.onSession ih.good rfl (fun _ => rfl) rfl fun _ _ hlive howns => ⟨hlive, howns, rfl⟩
    exact wp_returned (UserSession.agrees_run tame_calm hfacing command) hrun hfresh

/-- Between any two commands, the registry of the user's breakpoints and the debugger agree: the
breakpoints of the active process are listed without an error, under the numbers the registry has
for it; the lookups of one breakpoint and of pending ones say what the list says; and `delete` takes
the breakpoint of such a number away, unless the debugger itself refuses to remove it. -/
theorem user_breakpoints_agree (h : CommandRun modules loaderMetadata u) :
    (∃ list, UserBreakpointRegistry.breakpoints u = .ok list ∧
      list.map (·.id) = (u.domain u.pid).entries.toList.map (·.1) ∧
      hasPending u = .ok (list.any (·.state = .pending)) ∧
      ∀ id, breakpoint u id = .ok (list.find? (·.id = id))) ∧
    ∀ (id : Nat) (script : List Wakeup) (faults : List (Option Nat)),
      (∃ v, UserBreakpointRegistry.remove id (u.facing script faults) =
          .returned (decide (id ∈ (u.domain u.pid).entries)) v ∧
        id ∉ (v.domain u.pid).entries) ∨
      id ∈ (u.domain u.pid).entries ∧
        ∃ i e v, UserBreakpointRegistry.remove id (u.facing script faults) = .raised e v ∧
          removeBreakpoint i (u.session.facing script faults) = .raised e v.session := by
  have hagrees := h.agrees
  refine ⟨hagrees.listing trivial, fun id script faults => ?_⟩
  have hfacing : (u.facing script faults).Agrees fun _ => True :=
    hagrees.onSession hagrees.good rfl (fun _ => rfl) rfl fun _ _ hlive howns => ⟨hlive, howns, rfl⟩
  have hremove : wp (UserBreakpointRegistry.remove id)
      (UserSession.removing (fun _ => True) id (u.facing script faults)) (u.facing script faults) :=
    UserSession.agrees_remove hfacing trivial
  cases hrun : UserBreakpointRegistry.remove id (u.facing script faults) with
  | returned r v =>
    obtain ⟨-, hr, hout⟩ := wp_returned hremove hrun
    have hr : r = true ↔ id ∈ (u.domain u.pid).entries := hr
    refine .inl ⟨v, ?_, hout⟩
    have hr : r = decide (id ∈ (u.domain u.pid).entries) :=
      Bool.eq_iff_iff.mpr (by simpa using hr)
    rw [hr]
  | raised e v =>
    obtain ⟨hin, i, hraised⟩ := wp_raised hremove hrun
    exact .inr ⟨hin, i, e, v, rfl, hraised⟩
  | blocked w v => exact (wp_blocked hremove hrun).elim

/-! A process has been launched, and the user asks for a breakpoint on a symbol that no module has
yet. -/

def unloaded : Session → Except Exception LoaderMetadata := fun _ => .ok ⟨0x1000, 0x2000⟩

def UserSession.awaiting : UserSession :=
  ((UserCommand.break (.symbol "plugin_entry")).run Rendezvous.modules unloaded calm
    ⟨{}, Session.launch 10 Plugin.memory {}⟩).state

theorem awaiting_run : CommandRun Rendezvous.modules unloaded UserSession.awaiting := by
  have hrun : (UserCommand.break (.symbol "plugin_entry")).run Rendezvous.modules unloaded calm
      (UserSession.facing ⟨{}, Session.launch 10 Plugin.memory {}⟩ [] []) =
        .returned () UserSession.awaiting := rfl
  refine .step (.start (started_launch (by decide) _ _)) rfl hrun fun q _ _ hq => ?_
  simp at hq

theorem user_breakpoints_agree_awaiting :
    ∃ list, UserBreakpointRegistry.breakpoints UserSession.awaiting = .ok list ∧
      list.map (·.id) = [1] ∧ hasPending UserSession.awaiting = .ok true := by
  obtain ⟨⟨list, hlist, hids, -, -⟩, -⟩ := user_breakpoints_agree awaiting_run
  exact ⟨list, hlist, hids.trans (by decide +kernel), rfl⟩

end CommandLoop

end MiniDebugger
