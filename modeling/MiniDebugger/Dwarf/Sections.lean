import MiniDebugger.Dwarf.Window

/-!
# Sections as lists of entries

`Cut` cuts a section into its entries. On a section that can be cut, the search for an FDE only looks
at the entries in front of it: it parses each CIE, it reads the range of each FDE with the CIE the FDE
refers to, and it ends at the first range that covers the target.
-/

namespace MiniDebugger

open Std (ExtTreeMap)

/-- An `.eh_frame` section with its address. -/
structure EhSection where
  bytes : List Byte
  virtualAddress : Word

/-- Where an entry stands; its CIE pointer is 0 for a CIE. -/
structure EntrySpan where
  entry : Nat
  stop : Nat
  ciePointer : Nat
  deriving DecidableEq

/-- The entries from an offset on. -/
inductive Cut (bytes : List Byte) : Nat → List EntrySpan → Prop
  | ends {offset : Nat} : Ends bytes offset → Cut bytes offset []
  | entry {e : EntrySpan} {es : List EntrySpan} : EntryAt bytes e.entry e.stop e.ciePointer →
    Cut bytes e.stop es → Cut bytes e.entry (e :: es)

/-- An FDE refers to a CIE that stands in front of it. -/
structure EntrySpan.RefersTo (e c : EntrySpan) : Prop where
  fde : e.ciePointer ≠ 0
  back : e.ciePointer ≤ e.entry + 4
  cie : c.ciePointer = 0
  offset : c.entry = e.entry + 4 - e.ciePointer

namespace EhSection

/-- The CIE at an entry, where `parseCie` accepts it. -/
def cie (s : EhSection) (e : EntrySpan) : Option Cie :=
  (parseCie s.bytes e.stop (e.entry + 8)).toOption.map (·.1)

/-- The FDE at an entry with its CIE: its range and the cursor at its instructions. -/
def fde (s : EhSection) (cie : Cie) (e : EntrySpan) : Option ((Word × Word) × Nat) :=
  (readFdeRange s.bytes s.virtualAddress e.stop cie (e.entry + 8)).toOption

/-- The search over the entries of a section, each FDE with its CIE among `all`. -/
inductive Search (s : EhSection) (target : Word) (all : List EntrySpan) (found : Fde) :
    List EntrySpan → Prop
  | cie {e : EntrySpan} {es : List EntrySpan} {cie : Cie} : e.ciePointer = 0 →
    s.cie e = some cie → Search s target all found es → Search s target all found (e :: es)
  | past {e c : EntrySpan} {es : List EntrySpan} {cie : Cie} {initialLocation range : Word}
      {cursor : Nat} : c ∈ all → e.RefersTo c → s.cie c = some cie →
    s.fde cie e = some ((initialLocation, range), cursor) →
    ¬(initialLocation ≤ target ∧ target < initialLocation + range) →
    Search s target all found es → Search s target all found (e :: es)
  | here {e c : EntrySpan} {es : List EntrySpan} {cie : Cie} {initialLocation range : Word}
      {cursor : Nat} : c ∈ all → e.RefersTo c → s.cie c = some cie →
    s.fde cie e = some ((initialLocation, range), cursor) →
    (initialLocation ≤ target ∧ target < initialLocation + range) →
    found = ⟨e.entry, e.stop, cie, initialLocation, cursor⟩ →
    Search s target all found (e :: es)

end EhSection

section Cut

variable {bytes : List Byte} {entry stop stop' ciePointer ciePointer' : Nat}
  {es : List EntrySpan}

theorem not_ends_of_entryAt (h : EntryAt bytes entry stop ciePointer) : ¬Ends bytes entry := by
  intro hends
  have hinside := h.inside
  have hstart := h.start
  obtain hover | hzero := hends
  · omega
  · have hlength := Except.ok.inj (h.header.symm.trans hzero)
    omega

theorem EntryAt.unique (h : EntryAt bytes entry stop ciePointer)
    (h' : EntryAt bytes entry stop' ciePointer') : stop = stop' ∧ ciePointer = ciePointer' := by
  have hstart := h.start
  have hstart' := h'.start
  have hlength := Except.ok.inj (h.header.symm.trans h'.header)
  obtain rfl : stop = stop' := by omega
  have hpointer := Except.ok.inj (h.pointer.symm.trans h'.pointer)
  exact ⟨rfl, congrArg Prod.fst hpointer⟩

theorem EntryAt.content (h : EntryAt bytes entry stop ciePointer) : entry + 8 ≤ stop := by
  have hpointer := h.pointer
  have hstart := h.start
  unfold readScalar at hpointer
  split at hpointer
  case isTrue => cases hpointer
  case isFalse => omega

theorem Cut.cons_inv (h : Cut bytes entry es) (hentry : EntryAt bytes entry stop ciePointer) :
    ∃ es', es = ⟨entry, stop, ciePointer⟩ :: es' ∧ Cut bytes stop es' := by
  cases h with
  | ends hends => exact absurd hends (not_ends_of_entryAt hentry)
  | @entry e es' hentry' hrest =>
    obtain ⟨rfl, rfl⟩ := hentry.unique hentry'
    exact ⟨es', rfl, hrest⟩

theorem Cut.le_entry (h : Cut bytes entry es) {e : EntrySpan} (he : e ∈ es) : entry ≤ e.entry := by
  induction h with
  | ends => cases he
  | @entry first es' hentry _ ih =>
    obtain rfl | he := List.mem_cons.mp he
    · exact le_refl _
    · have := hentry.start
      have := ih he
      omega

/-- A CIE that an entry refers to is not among the entries from there on. -/
theorem Cut.not_refersTo (h : Cut bytes entry es) {e c : EntrySpan}
    (he : es.head? = some e) (hrefers : e.RefersTo c) : c ∉ es := by
  intro hc
  cases h with
  | ends => cases hc
  | @entry first es' hentry hrest =>
    cases he
    have hfde := hrefers.fde
    have hoffset := hrefers.offset
    obtain rfl | hc := List.mem_cons.mp hc
    · exact hfde hrefers.cie
    · have := hrest.le_entry hc
      have := hentry.content
      omega

end Cut

/-! ## The search on a section that can be cut -/

/-- The CIEs remembered at an offset are those in front of it. -/
structure Known (s : EhSection) (done : List EntrySpan) (offset : Nat)
    (cies : ExtTreeMap Nat Cie) : Prop where
  before : ∀ c ∈ done, c.entry < offset
  stored : ∀ c ∈ done, c.ciePointer = 0 → ∃ cie, s.cie c = some cie ∧ cies[c.entry]? = some cie
  parsed : ∀ position cie, cies[position]? = some cie →
    ∃ c ∈ done, c.ciePointer = 0 ∧ c.entry = position ∧ s.cie c = some cie

section Known

variable {s : EhSection} {target : Word} {done es all : List EntrySpan} {offset : Nat}
  {cies : ExtTreeMap Nat Cie} {e : EntrySpan} {found : Fde}

theorem known_nil (s : EhSection) : Known s [] 0 ∅ := by
  refine ⟨by simp, by simp, ?_⟩
  intro position cie h
  simp at h

theorem Known.cie {cie : Cie} (h : Known s done e.entry cies) (hstop : e.entry < e.stop)
    (hpointer : e.ciePointer = 0) (hcie : s.cie e = some cie) :
    Known s (done ++ [e]) e.stop (cies.insertIfNew e.entry cie) := by
  have hnew : e.entry ∉ cies := by
    intro hmem
    obtain ⟨old, hold⟩ := Option.isSome_iff_exists.mp (ExtTreeMap.isSome_getElem?_iff_mem.mpr hmem)
    obtain ⟨c, hc, -, hentry, -⟩ := h.parsed _ _ hold
    have := h.before c hc
    omega
  refine ⟨?_, ?_, ?_⟩
  · intro c hc
    rw [List.mem_append, List.mem_singleton] at hc
    obtain hc | rfl := hc
    · exact (h.before c hc).trans hstop
    · exact hstop
  · intro c hc hzero
    rw [List.mem_append, List.mem_singleton] at hc
    obtain hc | rfl := hc
    · obtain ⟨old, hold, hstored⟩ := h.stored c hc hzero
      have hne : c.entry ≠ e.entry := Nat.ne_of_lt (h.before c hc)
      refine ⟨old, hold, ?_⟩
      rw [ExtTreeMap.getElem?_insertIfNew, if_neg (by simp [hne.symm])]
      exact hstored
    · refine ⟨cie, hcie, ?_⟩
      rw [ExtTreeMap.getElem?_insertIfNew, if_pos ⟨by simp, hnew⟩]
  · intro position other hother
    rw [ExtTreeMap.getElem?_insertIfNew] at hother
    split at hother
    case isTrue hat =>
      cases hother
      refine ⟨e, by simp, hpointer, ?_, hcie⟩
      simpa using hat.1
    case isFalse =>
      obtain ⟨c, hc, hzero, hentry, hparsed⟩ := h.parsed position other hother
      exact ⟨c, by simp [hc], hzero, hentry, hparsed⟩

theorem Known.fde (h : Known s done e.entry cies) (hstop : e.entry < e.stop)
    (hpointer : e.ciePointer ≠ 0) : Known s (done ++ [e]) e.stop cies := by
  refine ⟨?_, ?_, ?_⟩
  · intro c hc
    rw [List.mem_append, List.mem_singleton] at hc
    obtain hc | rfl := hc
    · exact (h.before c hc).trans hstop
    · exact hstop
  · intro c hc hzero
    rw [List.mem_append, List.mem_singleton] at hc
    obtain hc | rfl := hc
    · exact h.stored c hc hzero
    · exact absurd hzero hpointer
  · intro position cie hcie
    obtain ⟨c, hc, hzero, hentry, hparsed⟩ := h.parsed position cie hcie
    exact ⟨c, by simp [hc], hzero, hentry, hparsed⟩

theorem cie_eq_some_iff {cie : Cie} :
    s.cie e = some cie ↔ ∃ cursor, parseCie s.bytes e.stop (e.entry + 8) = .ok (cie, cursor) := by
  unfold EhSection.cie
  cases parseCie s.bytes e.stop (e.entry + 8) with
  | error err => simp [Except.toOption]
  | ok result =>
    obtain ⟨other, cursor⟩ := result
    simp [Except.toOption]

theorem fde_eq_some_iff {cie : Cie} {read : (Word × Word) × Nat} :
    s.fde cie e = some read ↔
      readFdeRange s.bytes s.virtualAddress e.stop cie (e.entry + 8) = .ok read := by
  unfold EhSection.fde
  cases readFdeRange s.bytes s.virtualAddress e.stop cie (e.entry + 8) with
  | error err => simp [Except.toOption]
  | ok result => simp [Except.toOption]

theorem search_of_fdeSearch
    (h : FdeSearch s.bytes s.virtualAddress target found cies offset)
    (hcut : Cut s.bytes offset es) (hknown : Known s done offset cies) :
    s.Search target (done ++ es) found es := by
  induction h generalizing done es with
  | @cie cies entry stop cursor cie hentry hparse _ ih =>
    obtain ⟨es, rfl, hrest⟩ := hcut.cons_inv hentry
    have hcie : s.cie ⟨entry, stop, 0⟩ = some cie := cie_eq_some_iff.mpr ⟨cursor, hparse⟩
    have hstop : entry < stop := by
      have := hentry.start
      omega
    refine .cie rfl hcie ?_
    rw [show done ++ ⟨entry, stop, 0⟩ :: es = (done ++ [⟨entry, stop, 0⟩]) ++ es by simp]
    exact ih hrest (hknown.cie hstop rfl hcie)
  | @past cies entry stop ciePointer cursor cie initialLocation range hentry hpointer hback hcie
      hrange hcovers _ ih =>
    obtain ⟨es, rfl, hrest⟩ := hcut.cons_inv hentry
    obtain ⟨c, hc, hzero, hoffset, hparsed⟩ := hknown.parsed _ _ hcie
    have hstop : entry < stop := by
      have := hentry.start
      omega
    refine .past (c := c) (by simp [hc]) ⟨hpointer, hback, hzero, hoffset⟩ hparsed
      (fde_eq_some_iff.mpr hrange) hcovers ?_
    rw [show done ++ ⟨entry, stop, ciePointer⟩ :: es =
      (done ++ [⟨entry, stop, ciePointer⟩]) ++ es by simp]
    exact ih hrest (hknown.fde (e := ⟨entry, stop, ciePointer⟩) hstop hpointer)
  | @here cies entry stop ciePointer cursor cie initialLocation range hentry hpointer hback hcie
      hrange hcovers hfound =>
    obtain ⟨es, rfl, hrest⟩ := hcut.cons_inv hentry
    obtain ⟨c, hc, hzero, hoffset, hparsed⟩ := hknown.parsed _ _ hcie
    exact .here (c := c) (by simp [hc]) ⟨hpointer, hback, hzero, hoffset⟩ hparsed
      (fde_eq_some_iff.mpr hrange) hcovers hfound

theorem fdeSearch_of_search (h : s.Search target all found es) (hcut : Cut s.bytes offset es)
    (hknown : Known s done offset cies) (hall : all = done ++ es) :
    FdeSearch s.bytes s.virtualAddress target found cies offset := by
  have hreferred {e c : EntrySpan} {cies : ExtTreeMap Nat Cie} {done es : List EntrySpan}
      (hcut : Cut s.bytes e.entry (e :: es)) (hknown : Known s done e.entry cies)
      (hall : all = done ++ e :: es) (hc : c ∈ all) (hrefers : e.RefersTo c) {cie : Cie}
      (hcie : s.cie c = some cie) : cies[e.entry + 4 - e.ciePointer]? = some cie := by
    rw [hall, List.mem_append] at hc
    have hdone : c ∈ done := hc.resolve_right (hcut.not_refersTo rfl hrefers)
    obtain ⟨other, hother, hstored⟩ := hknown.stored c hdone hrefers.cie
    rw [hcie] at hother
    cases hother
    rw [← hrefers.offset]
    exact hstored
  induction h generalizing done cies offset with
  | @cie e es cie hpointer hcie _ ih =>
    cases hcut with
    | @entry _ _ hentry hrest =>
      obtain ⟨cursor, hparse⟩ := cie_eq_some_iff.mp hcie
      have hstop := hentry.start
      refine .cie (hpointer ▸ hentry) hparse ?_
      refine ih hrest (hknown.cie (by omega) hpointer hcie) ?_
      rw [hall]
      simp
  | @past e c es cie initialLocation range cursor hc hrefers hcie hfde hcovers _ ih =>
    cases hcut with
    | @entry _ _ hentry hrest =>
      have hstop := hentry.start
      refine .past hentry hrefers.fde hrefers.back
        (hreferred (.entry hentry hrest) hknown hall hc hrefers hcie)
        (fde_eq_some_iff.mp hfde) hcovers ?_
      refine ih hrest (hknown.fde (by omega) hrefers.fde) ?_
      rw [hall]
      simp
  | @here e c es cie initialLocation range cursor hc hrefers hcie hfde hcovers hfound =>
    cases hcut with
    | @entry _ _ hentry hrest =>
      exact .here hentry hrefers.fde hrefers.back
        (hreferred (.entry hentry hrest) hknown hall hc hrefers hcie)
        (fde_eq_some_iff.mp hfde) hcovers hfound

end Known

theorem findFde_of_fdeSearch {bytes : List Byte} {virtualAddress target : Word} {found : Fde}
    {cies : ExtTreeMap Nat Cie} {entry : Nat}
    (h : FdeSearch bytes virtualAddress target found cies entry) :
    findFde bytes virtualAddress target cies entry = .ok (some found) := by
  induction h with
  | cie hentry hparse _ ih =>
    rw [findFde_of_cie hentry, hparse]
    exact ih
  | past hentry hpointer hback hcie hrange hcovers _ ih =>
    rw [findFde_of_fde hentry hpointer hback hcie, hrange]
    dsimp only [Bind.bind, Except.bind]
    rw [if_neg hcovers]
    exact ih
  | here hentry hpointer hback hcie hrange hcovers hfound =>
    rw [findFde_of_fde hentry hpointer hback hcie, hrange]
    dsimp only [Bind.bind, Except.bind]
    rw [if_pos hcovers, hfound]
    rfl

/-- The FDE found in a section, in terms of its entries. -/
theorem findFde_iff_search {s : EhSection} {target : Word} {found : Fde} {es : List EntrySpan}
    (hcut : Cut s.bytes 0 es) :
    findFde s.bytes s.virtualAddress target ∅ 0 = .ok (some found) ↔
      s.Search target es found es := by
  constructor
  · intro h
    exact search_of_fdeSearch (fdeSearch_of_findFde h) hcut (known_nil s)
  · intro h
    exact findFde_of_fdeSearch (fdeSearch_of_search h hcut (known_nil s) rfl)

end MiniDebugger
