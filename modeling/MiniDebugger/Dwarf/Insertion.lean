import Mathlib.Data.List.Pairwise
import MiniDebugger.Dwarf.Sections

/-!
# Further entries in a section

A section stays what it is for an address when entries that do not cover the address are inserted into
it: the frame is evaluated from what the covering FDE and its CIE say, wherever they stand. The loop of
`evaluate_frame` parses every CIE it comes by, though, so that one CIE that `parse_cie` does not accept
takes the frame away from every FDE behind it.
-/

namespace MiniDebugger

open Std (ExtTreeMap)

/-- What a CIE says, wherever it stands. -/
structure CieText where
  codeAlignment : Word
  dataAlignment : Int
  returnRegister : Word
  fdeEncoding : Nat
  instructions : List Byte
  deriving DecidableEq

/-- What an FDE says, wherever it stands. -/
structure FdeText where
  initialLocation : Word
  range : Word
  instructions : List Byte
  deriving DecidableEq

def FdeText.Covers (fde : FdeText) (target : Word) : Prop :=
  fde.initialLocation ≤ target ∧ target < fde.initialLocation + fde.range

instance (fde : FdeText) (target : Word) : Decidable (fde.Covers target) :=
  inferInstanceAs (Decidable (_ ∧ _))

namespace EhSection

def textOf (s : EhSection) (cie : Cie) : CieText :=
  ⟨cie.codeAlignment, cie.dataAlignment, cie.returnRegister, cie.fdeEncoding,
    (s.bytes.take cie.instructionsEnd).drop cie.instructionsBegin⟩

def cieText (s : EhSection) (e : EntrySpan) : Option CieText := (s.cie e).map s.textOf

def fdeText (s : EhSection) (fdeEncoding : Nat) (e : EntrySpan) : Option FdeText :=
  (s.fde { fdeEncoding } e).map fun read =>
    ⟨read.1.1, read.1.2, (s.bytes.take e.stop).drop read.2⟩

/-- The frame of the section for an address. -/
def frame (s : EhSection) (target : Word) (readMemory : CfiMemoryReader)
    (readRegister : Word → Except Exception Word) : Option EvaluatedFrame :=
  (evaluateFrame s.bytes s.virtualAddress target readMemory readRegister ∅ 0).toOption.join

/-- What `EhFrame::caller_frame` recovers with the section. -/
def caller (s : EhSection) (target : Word) (readMemory : CfiMemoryReader)
    (current : EhFrameCursor) : Option EhFrameCursor :=
  (EhFrame.callerFrame ⟨s.bytes, s.virtualAddress, true⟩ readMemory target current).toOption.join

end EhSection

/-- `new` is `old` with further entries. An entry of `old` says the same in `new`; an inserted FDE is
read with its CIE and does not cover the target. -/
structure Insertion (old new : EhSection) (target : Word) where
  /-- The entries of `new`, each with the entry of `old` it comes from. -/
  entries : List (EntrySpan × Option EntrySpan)
  cutNew : Cut new.bytes 0 (entries.map (·.1))
  cutOld : Cut old.bytes 0 (entries.filterMap (·.2))
  keptCie : ∀ e o, (e, some o) ∈ entries → o.ciePointer = 0 →
    e.ciePointer = 0 ∧ new.cieText e = old.cieText o
  keptFde : ∀ e o, (e, some o) ∈ entries → o.ciePointer ≠ 0 →
    ∃ c co, (c, some co) ∈ entries ∧ e.RefersTo c ∧ o.RefersTo co ∧
      ∀ text, old.cieText co = some text →
        new.fdeText text.fdeEncoding e = old.fdeText text.fdeEncoding o
  inserted : ∀ e, (e, none) ∈ entries → e.ciePointer ≠ 0 →
    ∃ c o, (c, o) ∈ entries ∧ e.RefersTo c ∧ ∀ text, new.cieText c = some text →
      ∃ fde, new.fdeText text.fdeEncoding e = some fde ∧ ¬fde.Covers target

/-- `parse_cie` accepts every inserted CIE in front of the FDE that covers the target. -/
def Insertion.Accepted {old new : EhSection} {target : Word} (ins : Insertion old new target) :
    Prop :=
  ∀ found, findFde old.bytes old.virtualAddress target ∅ 0 = .ok (some found) →
    ∀ e o, (e, some o) ∈ ins.entries → o.entry = found.entry →
      ∀ c, (c, none) ∈ ins.entries → c.ciePointer = 0 → c.entry < e.entry →
        (new.cie c).isSome = true

section Texts

variable {s : EhSection} {e : EntrySpan} {cie : Cie} {target : Word}

theorem cieText_eq_some_iff {text : CieText} :
    s.cieText e = some text ↔ ∃ cie, s.cie e = some cie ∧ s.textOf cie = text :=
  Option.map_eq_some_iff

theorem fdeText_eq_some_iff {text : FdeText} (cie : Cie) :
    s.fdeText cie.fdeEncoding e = some text ↔
      ∃ cursor, s.fde cie e = some ((text.initialLocation, text.range), cursor) ∧
        (s.bytes.take e.stop).drop cursor = text.instructions := by
  have hfde : s.fde { fdeEncoding := cie.fdeEncoding } e = s.fde cie e := rfl
  unfold EhSection.fdeText
  rw [hfde, Option.map_eq_some_iff]
  constructor
  · intro h
    obtain ⟨⟨⟨initialLocation, range⟩, cursor⟩, hread, rfl⟩ := h
    exact ⟨cursor, hread, rfl⟩
  · intro h
    obtain ⟨cursor, hread, hrest⟩ := h
    exact ⟨_, hread, by rw [hrest]⟩

/-- What a reader returns has this property. -/
def Returns {α : Type} (good : α → Prop) (x : Parse α) : Prop :=
  ∀ ⦃cursor a next⦄, x cursor = .ok (a, next) → good a

theorem returns_bind {α β : Type} {good : β → Prop} {x : Parse α} {f : α → Parse β}
    (hf : ∀ a, Returns good (f a)) : Returns good (x >>= f) := by
  intro cursor b next h
  obtain ⟨a, middle, -, hrest⟩ := bind_ok h
  exact hf a hrest

theorem returns_throw {α : Type} {good : α → Prop} (e : Exception) : Returns good (throw e) := by
  intro cursor a next h
  cases h

theorem returns_pure {α : Type} {good : α → Prop} {a : α} (h : good a) : Returns good (pure a) := by
  intro cursor b next hb
  cases hb
  exact h

theorem returns_ite {α : Type} {good : α → Prop} {c : Prop} [Decidable c] {x y : Parse α}
    (hx : Returns good x) (hy : Returns good y) : Returns good (if c then x else y) := by
  split
  · exact hx
  · exact hy

theorem returns_parseCie (bytes : List Byte) (stop : Nat) :
    Returns (fun cie => cie.instructionsEnd = stop) (parseCie bytes stop) := by
  refine returns_bind fun version => returns_ite (returns_throw _) ?_
  refine returns_bind fun augmentation => returns_ite (returns_throw _) ?_
  refine returns_bind fun codeAlignment => returns_bind fun dataAlignment => ?_
  refine returns_bind fun returnRegister => returns_bind fun augmentationSize => ?_
  refine returns_bind fun cursor => returns_ite (returns_throw _) ?_
  refine returns_bind fun fdeEncoding => ?_
  cases fdeEncoding with
  | none => exact returns_throw _
  | some fdeEncoding =>
    exact returns_bind fun cursor => returns_ite (returns_throw _) (returns_pure rfl)

theorem instructionsEnd_of_cie (h : s.cie e = some cie) : cie.instructionsEnd = e.stop := by
  obtain ⟨cursor, hparse⟩ := cie_eq_some_iff.mp h
  exact returns_parseCie s.bytes e.stop hparse

end Texts

/-! ## Frames of the same texts -/

/-- Two FDEs that were found say the same, with CIEs that say the same. -/
structure SameFde (old new : EhSection) (found found' : Fde) : Prop where
  cie : new.textOf found'.cie = old.textOf found.cie
  initialLocation : found'.initialLocation = found.initialLocation
  instructions : (new.bytes.take found'.stop).drop found'.cursor =
    (old.bytes.take found.stop).drop found.cursor
  fits : found.stop ≤ old.bytes.length ∧ found.cie.instructionsEnd ≤ old.bytes.length
  fits' : found'.stop ≤ new.bytes.length ∧ found'.cie.instructionsEnd ≤ new.bytes.length

/-- The frame depends only on what the FDE and its CIE say. -/
theorem SameFde.evaluateEntry_eq {old new : EhSection} {found found' : Fde}
    (h : SameFde old new found found') (target : Word) (readMemory : CfiMemoryReader)
    (readRegister : Word → Except Exception Word) :
    evaluateEntry new.bytes found'.stop found'.cie found'.initialLocation target readMemory
        readRegister found'.cursor =
      evaluateEntry old.bytes found.stop found.cie found.initialLocation target readMemory
        readRegister found.cursor := by
  have htext := h.cie
  have hscale : Window.SameScale found'.cie found.cie :=
    ⟨congrArg CieText.codeAlignment htext, congrArg CieText.dataAlignment htext⟩
  have hregister : found'.cie.returnRegister = found.cie.returnRegister :=
    congrArg CieText.returnRegister htext
  have hcie : execute new.bytes found'.cie.instructionsEnd found'.cie none (BitVec.allOnes 64)
        ⟨found.initialLocation, {}, []⟩ found'.cie.instructionsBegin =
      execute old.bytes found.cie.instructionsEnd found.cie none (BitVec.allOnes 64)
        ⟨found.initialLocation, {}, []⟩ found.cie.instructionsBegin :=
    Window.execute_congr (w := ⟨new.bytes, found'.cie.instructionsEnd, h.fits'.2⟩)
      (v := ⟨old.bytes, found.cie.instructionsEnd, h.fits.2⟩) hscale
      (congrArg CieText.instructions htext)
  have hfde (cieState : CfiState) : execute new.bytes found'.stop found'.cie (some cieState) target
        ⟨found.initialLocation, cieState, []⟩ found'.cursor =
      execute old.bytes found.stop found.cie (some cieState) target
        ⟨found.initialLocation, cieState, []⟩ found.cursor :=
    Window.execute_congr (w := ⟨new.bytes, found'.stop, h.fits'.1⟩)
      (v := ⟨old.bytes, found.stop, h.fits.1⟩) hscale h.instructions
  unfold evaluateEntry
  rw [h.initialLocation, hcie, hregister]
  simp only [hfde]

/-! ## The searches in both sections -/

section Cuts

variable {bytes : List Byte} {offset : Nat} {es : List EntrySpan} {e e' : EntrySpan}

theorem Cut.entryAt (h : Cut bytes offset es) (he : e ∈ es) :
    EntryAt bytes e.entry e.stop e.ciePointer := by
  induction h with
  | ends => cases he
  | entry hentry _ ih =>
    obtain rfl | he := List.mem_cons.mp he
    · exact hentry
    · exact ih he

theorem Cut.pairwise (h : Cut bytes offset es) : es.Pairwise fun e e' => e.entry < e'.entry := by
  induction h with
  | ends => exact .nil
  | entry hentry hrest ih =>
    refine List.pairwise_cons.mpr ⟨fun e' he' => ?_, ih⟩
    have hle := hrest.le_entry he'
    have hstart := hentry.start
    omega

theorem Cut.eq_of_entry (h : Cut bytes offset es) (he : e ∈ es) (he' : e' ∈ es)
    (hentry : e.entry = e'.entry) : e = e' := by
  have hat := h.entryAt he
  have hat' := h.entryAt he'
  rw [hentry] at hat
  obtain ⟨hstop, hpointer⟩ := hat.unique hat'
  cases e
  cases e'
  simp_all

variable {s : EhSection} {target : Word} {all : List EntrySpan} {found : Fde}

theorem EhSection.Search.found_mem (h : s.Search target all found es) :
    ∃ e ∈ es, e.entry = found.entry := by
  induction h with
  | cie _ _ _ ih =>
    obtain ⟨e, he, hentry⟩ := ih
    exact ⟨e, List.mem_cons_of_mem _ he, hentry⟩
  | past _ _ _ _ _ _ ih =>
    obtain ⟨e, he, hentry⟩ := ih
    exact ⟨e, List.mem_cons_of_mem _ he, hentry⟩
  | here _ _ _ _ _ hfound => exact ⟨_, List.mem_cons_self, by rw [hfound]⟩

/-- The search has parsed every CIE in front of what it finds. -/
theorem EhSection.Search.parsed (h : s.Search target all found es) (hcut : Cut bytes offset es)
    (he : e ∈ es) (hpointer : e.ciePointer = 0) (hbefore : e.entry < found.entry) :
    (s.cie e).isSome = true := by
  induction h generalizing offset with
  | cie _ hcie _ ih =>
    cases hcut with
    | entry _ hrest =>
      obtain rfl | he := List.mem_cons.mp he
      · rw [hcie]
        rfl
      · exact ih hrest he
  | past _ hrefers _ _ _ _ ih =>
    cases hcut with
    | entry _ hrest =>
      obtain rfl | he := List.mem_cons.mp he
      · exact absurd hpointer hrefers.fde
      · exact ih hrest he
  | here _ hrefers _ _ _ hfound =>
    cases hcut with
    | entry hentry hrest =>
      obtain rfl | he := List.mem_cons.mp he
      · exact absurd hpointer hrefers.fde
      · have hle := hrest.le_entry he
        have hstart := hentry.start
        rw [hfound] at hbefore
        dsimp only at hbefore
        omega

end Cuts

section Insertion

variable {old new : EhSection} {target : Word} (ins : Insertion old new target)
  {e o c co : EntrySpan} {suffix : List (EntrySpan × Option EntrySpan)} {found found' : Fde}

namespace Insertion

theorem mem_new {origin : Option EntrySpan} (h : (e, origin) ∈ ins.entries) :
    e ∈ ins.entries.map (·.1) := List.mem_map.mpr ⟨_, h, rfl⟩

theorem mem_old (h : (e, some o) ∈ ins.entries) : o ∈ ins.entries.filterMap (·.2) :=
  List.mem_filterMap.mpr ⟨_, h, rfl⟩

/-- A CIE that was kept is accepted in both sections or in neither. -/
theorem cie_old (h : (e, some o) ∈ ins.entries) (ho : o.ciePointer = 0) {cie' : Cie}
    (hcie' : new.cie e = some cie') :
    ∃ cie, old.cie o = some cie ∧ new.textOf cie' = old.textOf cie := by
  have htext : new.cieText e = some (new.textOf cie') := cieText_eq_some_iff.mpr ⟨_, hcie', rfl⟩
  rw [(ins.keptCie e o h ho).2] at htext
  obtain ⟨cie, hcie, heq⟩ := cieText_eq_some_iff.mp htext
  exact ⟨cie, hcie, heq.symm⟩

theorem cie_new (h : (e, some o) ∈ ins.entries) (ho : o.ciePointer = 0) {cie : Cie}
    (hcie : old.cie o = some cie) :
    ∃ cie', new.cie e = some cie' ∧ new.textOf cie' = old.textOf cie := by
  have htext : old.cieText o = some (old.textOf cie) := cieText_eq_some_iff.mpr ⟨_, hcie, rfl⟩
  rw [← (ins.keptCie e o h ho).2] at htext
  obtain ⟨cie', hcie', heq⟩ := cieText_eq_some_iff.mp htext
  exact ⟨cie', hcie', heq⟩

/-- An FDE that was kept has the same range in both sections, and the same instructions. -/
theorem fde_eq (h : (e, some o) ∈ ins.entries) (ho : o.ciePointer ≠ 0) :
    ∃ c co, (c, some co) ∈ ins.entries ∧ e.RefersTo c ∧ o.RefersTo co ∧
      ∀ cie' cie, new.cie c = some cie' → old.cie co = some cie →
        new.textOf cie' = old.textOf cie → ∀ initialLocation range,
          (∀ cursor', new.fde cie' e = some ((initialLocation, range), cursor') →
            ∃ cursor, old.fde cie o = some ((initialLocation, range), cursor) ∧
              (new.bytes.take e.stop).drop cursor' = (old.bytes.take o.stop).drop cursor) ∧
          (∀ cursor, old.fde cie o = some ((initialLocation, range), cursor) →
            ∃ cursor', new.fde cie' e = some ((initialLocation, range), cursor') ∧
              (new.bytes.take e.stop).drop cursor' = (old.bytes.take o.stop).drop cursor) := by
  obtain ⟨c, co, hc, he, hco, htext⟩ := ins.keptFde e o h ho
  refine ⟨c, co, hc, he, hco, ?_⟩
  intro cie' cie hcie' hcie heq initialLocation range
  have hencoding : cie'.fdeEncoding = cie.fdeEncoding := congrArg CieText.fdeEncoding heq
  have hsame : new.fdeText cie'.fdeEncoding e = old.fdeText cie.fdeEncoding o := by
    rw [hencoding]
    exact htext (old.textOf cie) (cieText_eq_some_iff.mpr ⟨cie, hcie, rfl⟩)
  constructor
  · intro cursor' hfde
    have hnew : new.fdeText cie'.fdeEncoding e =
        some ⟨initialLocation, range, (new.bytes.take e.stop).drop cursor'⟩ :=
      (fdeText_eq_some_iff cie').mpr ⟨cursor', hfde, rfl⟩
    rw [hsame] at hnew
    obtain ⟨cursor, hold, hrest⟩ := (fdeText_eq_some_iff cie).mp hnew
    exact ⟨cursor, hold, hrest.symm⟩
  · intro cursor hfde
    have hold : old.fdeText cie.fdeEncoding o =
        some ⟨initialLocation, range, (old.bytes.take o.stop).drop cursor⟩ :=
      (fdeText_eq_some_iff cie).mpr ⟨cursor, hfde, rfl⟩
    rw [← hsame] at hold
    obtain ⟨cursor', hnew, hrest⟩ := (fdeText_eq_some_iff cie').mp hold
    exact ⟨cursor', hnew, hrest⟩

/-- FDEs found at entries that correspond say the same. -/
theorem sameFde_of_mem (h : (e, some o) ∈ ins.entries) (hc : (c, some co) ∈ ins.entries)
    {cie' cie : Cie} (hcie' : new.cie c = some cie') (hcie : old.cie co = some cie)
    (htext : new.textOf cie' = old.textOf cie) {initialLocation : Word} {cursor' cursor : Nat}
    (hrest : (new.bytes.take e.stop).drop cursor' = (old.bytes.take o.stop).drop cursor) :
    SameFde old new ⟨o.entry, o.stop, cie, initialLocation, cursor⟩
      ⟨e.entry, e.stop, cie', initialLocation, cursor'⟩ := by
  refine ⟨htext, rfl, hrest, ⟨?_, ?_⟩, ?_, ?_⟩
  · exact (ins.cutOld.entryAt (ins.mem_old h)).fits
  · rw [instructionsEnd_of_cie hcie]
    exact (ins.cutOld.entryAt (ins.mem_old hc)).fits
  · exact (ins.cutNew.entryAt (ins.mem_new h)).fits
  · rw [instructionsEnd_of_cie hcie']
    exact (ins.cutNew.entryAt (ins.mem_new hc)).fits

theorem refersTo_unique {c' : EntrySpan} (hc : c ∈ ins.entries.map (·.1))
    (hc' : c' ∈ ins.entries.map (·.1)) (h : e.RefersTo c) (h' : e.RefersTo c') : c = c' :=
  ins.cutNew.eq_of_entry hc hc' (h.offset.trans h'.offset.symm)

theorem refersTo_unique_old {c' : EntrySpan} (hc : c ∈ ins.entries.filterMap (·.2))
    (hc' : c' ∈ ins.entries.filterMap (·.2)) (h : o.RefersTo c) (h' : o.RefersTo c') : c = c' :=
  ins.cutOld.eq_of_entry hc hc' (h.offset.trans h'.offset.symm)

/-- An entry that was kept is a CIE in both sections or in neither. -/
theorem ciePointer_eq_zero_iff (h : (e, some o) ∈ ins.entries) :
    e.ciePointer = 0 ↔ o.ciePointer = 0 := by
  constructor
  · intro he
    by_contra ho
    obtain ⟨c, co, -, hrefers, -⟩ := ins.keptFde e o h ho
    exact hrefers.fde he
  · exact fun ho => (ins.keptCie e o h ho).1

/-- An FDE that was kept, found in the larger section, is there in the smaller one. -/
theorem fde_old (h : (e, some o) ∈ ins.entries) (hc : c ∈ ins.entries.map (·.1))
    (hrefers : e.RefersTo c) {cie' : Cie} (hcie' : new.cie c = some cie')
    {initialLocation range : Word} {cursor' : Nat}
    (hfde : new.fde cie' e = some ((initialLocation, range), cursor')) :
    ∃ co cie cursor, co ∈ ins.entries.filterMap (·.2) ∧ o.RefersTo co ∧ old.cie co = some cie ∧
      old.fde cie o = some ((initialLocation, range), cursor) ∧
      SameFde old new ⟨o.entry, o.stop, cie, initialLocation, cursor⟩
        ⟨e.entry, e.stop, cie', initialLocation, cursor'⟩ := by
  have ho : o.ciePointer ≠ 0 := fun ho => hrefers.fde ((ins.ciePointer_eq_zero_iff h).mpr ho)
  obtain ⟨c', co, hc', hrefersNew, hrefersOld, hfdeEq⟩ := ins.fde_eq h ho
  obtain rfl := ins.refersTo_unique hc (ins.mem_new hc') hrefers hrefersNew
  obtain ⟨cie, hcie, htext⟩ := ins.cie_old hc' hrefersOld.cie hcie'
  obtain ⟨cursor, hfdeOld, hrest⟩ := (hfdeEq cie' cie hcie' hcie htext _ _).1 cursor' hfde
  exact ⟨co, cie, cursor, ins.mem_old hc', hrefersOld, hcie, hfdeOld,
    ins.sameFde_of_mem h hc' hcie' hcie htext hrest⟩

theorem fde_new (h : (e, some o) ∈ ins.entries) (hc : c ∈ ins.entries.filterMap (·.2))
    (hrefers : o.RefersTo c) {cie : Cie} (hcie : old.cie c = some cie)
    {initialLocation range : Word} {cursor : Nat}
    (hfde : old.fde cie o = some ((initialLocation, range), cursor)) :
    ∃ c' cie' cursor', c' ∈ ins.entries.map (·.1) ∧ e.RefersTo c' ∧ new.cie c' = some cie' ∧
      new.fde cie' e = some ((initialLocation, range), cursor') ∧
      SameFde old new ⟨o.entry, o.stop, cie, initialLocation, cursor⟩
        ⟨e.entry, e.stop, cie', initialLocation, cursor'⟩ := by
  obtain ⟨c', co, hc', hrefersNew, hrefersOld, hfdeEq⟩ := ins.fde_eq h hrefers.fde
  obtain rfl := ins.refersTo_unique_old hc (ins.mem_old hc') hrefers hrefersOld
  obtain ⟨cie', hcie', htext⟩ := ins.cie_new hc' hrefersOld.cie hcie
  obtain ⟨cursor', hfdeNew, hrest⟩ := (hfdeEq cie' cie hcie' hcie htext _ _).2 cursor hfde
  exact ⟨c', cie', cursor', ins.mem_new hc', hrefersNew, hcie', hfdeNew,
    ins.sameFde_of_mem h hc' hcie' hcie htext hrest⟩

/-- An inserted FDE is passed if the CIE that it refers to is accepted. -/
theorem inserted_past (h : (e, none) ∈ ins.entries) (hpointer : e.ciePointer ≠ 0)
    (hparsed : ∀ c ∈ ins.entries.map (·.1), e.RefersTo c → (new.cie c).isSome = true) :
    ∃ c cie initialLocation range cursor, c ∈ ins.entries.map (·.1) ∧ e.RefersTo c ∧
      new.cie c = some cie ∧ new.fde cie e = some ((initialLocation, range), cursor) ∧
      ¬(initialLocation ≤ target ∧ target < initialLocation + range) := by
  obtain ⟨c, origin, hc, hrefers, htext⟩ := ins.inserted e h hpointer
  obtain ⟨cie, hcie⟩ := Option.isSome_iff_exists.mp (hparsed c (ins.mem_new hc) hrefers)
  obtain ⟨text, hfdeText, hnot⟩ :=
    htext (new.textOf cie) (cieText_eq_some_iff.mpr ⟨cie, hcie, rfl⟩)
  obtain ⟨cursor, hfde, -⟩ := (fdeText_eq_some_iff cie).mp hfdeText
  exact ⟨c, cie, _, _, cursor, ins.mem_new hc, hrefers, hcie, hfde, hnot⟩

/-- An inserted FDE does not cover the target. -/
theorem inserted_not_covers (h : (e, none) ∈ ins.entries) (hc : c ∈ ins.entries.map (·.1))
    (hrefers : e.RefersTo c) {cie : Cie} (hcie : new.cie c = some cie)
    {initialLocation range : Word} {cursor : Nat}
    (hfde : new.fde cie e = some ((initialLocation, range), cursor)) :
    ¬(initialLocation ≤ target ∧ target < initialLocation + range) := by
  obtain ⟨c', cie', initialLocation', range', cursor', hc', hrefers', hcie', hfde', hnot⟩ :=
    ins.inserted_past h hrefers.fde fun c' hc' hrefers' => by
      rw [ins.refersTo_unique hc' hc hrefers' hrefers, hcie]
      rfl
  obtain rfl := ins.refersTo_unique hc hc' hrefers hrefers'
  cases hcie.symm.trans hcie'
  cases hfde.symm.trans hfde'
  exact hnot

/-- What is found in the larger section is found in the smaller one. -/
theorem search_old (hsuffix : suffix ⊆ ins.entries)
    (h : new.Search target (ins.entries.map (·.1)) found' (suffix.map (·.1))) :
    ∃ found, old.Search target (ins.entries.filterMap (·.2)) found (suffix.filterMap (·.2)) ∧
      SameFde old new found found' ∧
      ∃ e o, (e, some o) ∈ ins.entries ∧ e.entry = found'.entry ∧ o.entry = found.entry := by
  induction suffix with
  | nil => cases h
  | cons pair suffix ih =>
    obtain ⟨e, origin⟩ := pair
    have hmem : (e, origin) ∈ ins.entries := hsuffix List.mem_cons_self
    have hrest : suffix ⊆ ins.entries := fun p hp => hsuffix (List.mem_cons_of_mem _ hp)
    rw [List.map_cons] at h
    cases origin with
    | none =>
      rw [List.filterMap_cons_none rfl]
      cases h with
      | cie _ _ htail => exact ih hrest htail
      | past _ _ _ _ _ htail => exact ih hrest htail
      | here hc hrefers hcie hfde hcovers hfound =>
        exact absurd hcovers (ins.inserted_not_covers hmem hc hrefers hcie hfde)
    | some o =>
      have hcons : ((e, some o) :: suffix).filterMap (·.2) = o :: suffix.filterMap (·.2) := rfl
      rw [hcons]
      cases h with
      | cie hpointer hcie htail =>
        have ho := (ins.ciePointer_eq_zero_iff hmem).mp hpointer
        obtain ⟨cie, hcie, -⟩ := ins.cie_old hmem ho hcie
        obtain ⟨found, hfound, hsame, hpair⟩ := ih hrest htail
        exact ⟨found, .cie ho hcie hfound, hsame, hpair⟩
      | past hc hrefers hcie' hfde hcovers htail =>
        obtain ⟨co, cie, cursor, hco, hrefersOld, hcie, hfdeOld, -⟩ :=
          ins.fde_old hmem hc hrefers hcie' hfde
        obtain ⟨found, hfound, hsame, hpair⟩ := ih hrest htail
        exact ⟨found, .past hco hrefersOld hcie hfdeOld hcovers hfound, hsame, hpair⟩
      | here hc hrefers hcie' hfde hcovers hfound' =>
        obtain ⟨co, cie, cursor, hco, hrefersOld, hcie, hfdeOld, hsame⟩ :=
          ins.fde_old hmem hc hrefers hcie' hfde
        refine ⟨_, .here hco hrefersOld hcie hfdeOld hcovers rfl, ?_, e, o, hmem, ?_, rfl⟩
        · rwa [hfound']
        · rw [hfound']

/-- A CIE that an FDE refers to has been passed before it. -/
theorem cie_passed {before : List (EntrySpan × Option EntrySpan)} {offset : Nat}
    {origin : Option EntrySpan} (hentries : ins.entries = before ++ (e, origin) :: suffix)
    (hcut : Cut new.bytes offset (e :: suffix.map (·.1)))
    (hbefore : ∀ c origin, (c, origin) ∈ before → c.ciePointer = 0 → (new.cie c).isSome = true)
    (hc : c ∈ ins.entries.map (·.1)) (hrefers : e.RefersTo c) : (new.cie c).isSome = true := by
  obtain ⟨⟨c, origin'⟩, hmem, rfl⟩ := List.mem_map.mp hc
  rw [hentries, List.mem_append] at hmem
  rcases hmem with hmem | hmem
  · exact hbefore c origin' hmem hrefers.cie
  · exact absurd (List.mem_map.mpr ⟨_, hmem, rfl⟩) (hcut.not_refersTo rfl hrefers)

/-- What the smaller section finds stands behind the entries in front of it. -/
theorem entry_lt_of_search {offset : Nat}
    (hcut : Cut new.bytes offset (e :: suffix.map (·.1)))
    (h : old.Search target (ins.entries.filterMap (·.2)) found (suffix.filterMap (·.2))) :
    ∃ e' o', (e', some o') ∈ suffix ∧ o'.entry = found.entry ∧ e.entry < e'.entry := by
  obtain ⟨o', ho', hfound⟩ := h.found_mem
  obtain ⟨⟨e', origin'⟩, hpair, horigin⟩ := List.mem_filterMap.mp ho'
  obtain rfl : origin' = some o' := horigin
  have hordered := List.rel_of_pairwise_cons hcut.pairwise (List.mem_map.mpr ⟨_, hpair, rfl⟩)
  exact ⟨e', o', hpair, hfound, hordered⟩

/-- What is found in the smaller section is found in the larger one, if no inserted CIE in front of
it stops the search. -/
theorem search_new {before : List (EntrySpan × Option EntrySpan)} {offset : Nat}
    (hentries : ins.entries = before ++ suffix) (hcut : Cut new.bytes offset (suffix.map (·.1)))
    (hbefore : ∀ c origin, (c, origin) ∈ before → c.ciePointer = 0 → (new.cie c).isSome = true)
    (haccepted : ∀ e o, (e, some o) ∈ ins.entries → o.entry = found.entry →
      ∀ c, (c, none) ∈ ins.entries → c.ciePointer = 0 → c.entry < e.entry →
        (new.cie c).isSome = true)
    (h : old.Search target (ins.entries.filterMap (·.2)) found (suffix.filterMap (·.2))) :
    ∃ found', new.Search target (ins.entries.map (·.1)) found' (suffix.map (·.1)) ∧
      SameFde old new found found' := by
  induction suffix generalizing before offset with
  | nil => cases h
  | cons pair suffix ih =>
    obtain ⟨e, origin⟩ := pair
    have hmem : (e, origin) ∈ ins.entries := by
      rw [hentries]
      simp
    rw [List.map_cons] at hcut ⊢
    have hparsed : ∀ c ∈ ins.entries.map (·.1), e.RefersTo c → (new.cie c).isSome = true :=
      fun c hc hrefers => ins.cie_passed hentries hcut hbefore hc hrefers
    have hrest : ins.entries = (before ++ [(e, origin)]) ++ suffix := by
      rw [hentries]
      simp
    have hafter (hdone : e.ciePointer = 0 → (new.cie e).isSome = true) :
        ∀ c origin', (c, origin') ∈ before ++ [(e, origin)] → c.ciePointer = 0 →
          (new.cie c).isSome = true := by
      intro c origin' hc hpointer
      rw [List.mem_append, List.mem_singleton] at hc
      obtain hc | hc := hc
      · exact hbefore c origin' hc hpointer
      · cases hc
        exact hdone hpointer
    cases origin with
    | none =>
      rw [List.filterMap_cons_none rfl] at h
      obtain ⟨e', o', hpair, hfound, hlt⟩ := ins.entry_lt_of_search hcut h
      obtain - | ⟨-, htailCut⟩ := hcut
      by_cases hpointer : e.ciePointer = 0
      · have haccept : (new.cie e).isSome = true :=
          haccepted e' o' (by rw [hrest]; simp [hpair]) hfound e hmem hpointer hlt
        obtain ⟨cie, hcie⟩ := Option.isSome_iff_exists.mp haccept
        obtain ⟨found', hnew, hsame⟩ := ih hrest htailCut (hafter fun _ => haccept) h
        exact ⟨found', .cie hpointer hcie hnew, hsame⟩
      · obtain ⟨c, cie, initialLocation, range, cursor, hc, hrefers, hcie, hfde, hnot⟩ :=
          ins.inserted_past hmem hpointer hparsed
        obtain ⟨found', hnew, hsame⟩ :=
          ih hrest htailCut (hafter fun hzero => absurd hzero hpointer) h
        exact ⟨found', .past hc hrefers hcie hfde hnot hnew, hsame⟩
    | some o =>
      have hcons : ((e, some o) :: suffix).filterMap (·.2) = o :: suffix.filterMap (·.2) := rfl
      rw [hcons] at h
      obtain - | ⟨-, htailCut⟩ := hcut
      cases h with
      | cie ho hcie htail =>
        obtain ⟨cie', hcie', -⟩ := ins.cie_new hmem ho hcie
        obtain ⟨found', hnew, hsame⟩ :=
          ih hrest htailCut (hafter fun _ => by rw [hcie']; rfl) htail
        exact ⟨found', .cie ((ins.ciePointer_eq_zero_iff hmem).mpr ho) hcie' hnew, hsame⟩
      | past hc hrefers hcie hfde hcovers htail =>
        obtain ⟨c', cie', cursor', hc', hrefersNew, hcie', hfdeNew, -⟩ :=
          ins.fde_new hmem hc hrefers hcie hfde
        obtain ⟨found', hnew, hsame⟩ :=
          ih hrest htailCut (hafter fun hzero => absurd hzero hrefersNew.fde) htail
        exact ⟨found', .past hc' hrefersNew hcie' hfdeNew hcovers hnew, hsame⟩
      | here hc hrefers hcie hfde hcovers hfound =>
        obtain ⟨c', cie', cursor', hc', hrefersNew, hcie', hfdeNew, hsame⟩ :=
          ins.fde_new hmem hc hrefers hcie hfde
        refine ⟨_, .here hc' hrefersNew hcie' hfdeNew hcovers rfl, ?_⟩
        rwa [hfound]

/-- An entry comes from one entry only. -/
theorem origin_unique {e' : EntrySpan} (h : (e, some o) ∈ ins.entries)
    (h' : (e', some o) ∈ ins.entries) : e = e' := by
  have hordered := ins.cutOld.pairwise
  rw [List.pairwise_filterMap] at hordered
  by_contra hne
  have hpairs : ins.entries.Pairwise fun p q => ∀ a ∈ p.2, ∀ b ∈ q.2, a.entry ≠ b.entry :=
    hordered.imp fun hlt a ha b hb => Nat.ne_of_lt (hlt a ha b hb)
  have hsymm : Std.Symm fun (p q : EntrySpan × Option EntrySpan) =>
      ∀ a ∈ p.2, ∀ b ∈ q.2, a.entry ≠ b.entry :=
    ⟨fun p q hpq a ha b hb => (hpq b hb a ha).symm⟩
  exact hpairs.forall h h' (by simp [hne]) o rfl o rfl rfl

end Insertion

theorem frame_eq_some_iff {s : EhSection} {readMemory : CfiMemoryReader}
    {readRegister : Word → Except Exception Word} {frame : EvaluatedFrame} :
    s.frame target readMemory readRegister = some frame ↔
      ∃ found, findFde s.bytes s.virtualAddress target ∅ 0 = .ok (some found) ∧
        evaluateEntry s.bytes found.stop found.cie found.initialLocation target readMemory
          readRegister found.cursor = .ok frame := by
  unfold EhSection.frame
  rw [evaluateFrame_eq_findFde]
  cases findFde s.bytes s.virtualAddress target ∅ 0 with
  | error e => simp [bind, Except.bind, Except.toOption]
  | ok result =>
    cases result with
    | none => simp [bind, Except.bind, pure, Except.pure, Except.toOption]
    | some found =>
      cases hentry : evaluateEntry s.bytes found.stop found.cie found.initialLocation target
          readMemory readRegister found.cursor with
      | error e => simp [bind, Except.bind, Except.toOption, hentry]
      | ok other => simp [bind, Except.bind, pure, Except.pure, Except.toOption, hentry]

/-- A frame of the larger section is one of the smaller one, and every inserted CIE in front of its
FDE has been accepted. -/
theorem Insertion.frame_old {readMemory : CfiMemoryReader}
    {readRegister : Word → Except Exception Word} {frame : EvaluatedFrame}
    (h : new.frame target readMemory readRegister = some frame) :
    old.frame target readMemory readRegister = some frame ∧ ins.Accepted := by
  obtain ⟨found', hfound', hframe⟩ := frame_eq_some_iff.mp h
  have hsearch := (findFde_iff_search ins.cutNew).mp hfound'
  obtain ⟨found, hold, hsame, e, o, hpair, he, ho⟩ := ins.search_old (List.Subset.refl _) hsearch
  have hfound := (findFde_iff_search ins.cutOld).mpr hold
  refine ⟨frame_eq_some_iff.mpr ⟨found, hfound, ?_⟩, ?_⟩
  · rw [← hsame.evaluateEntry_eq]
    exact hframe
  · intro other hother e' o' hpair' ho' c hc hpointer hbefore
    rw [hfound] at hother
    cases hother
    obtain rfl : o' = o :=
      ins.cutOld.eq_of_entry (ins.mem_old hpair') (ins.mem_old hpair) (ho'.trans ho.symm)
    obtain rfl := ins.origin_unique hpair' hpair
    exact hsearch.parsed ins.cutNew (ins.mem_new hc) hpointer (he ▸ hbefore)

theorem Insertion.frame_new {readMemory : CfiMemoryReader}
    {readRegister : Word → Except Exception Word} {frame : EvaluatedFrame} (haccepted : ins.Accepted)
    (h : old.frame target readMemory readRegister = some frame) :
    new.frame target readMemory readRegister = some frame := by
  obtain ⟨found, hfound, hframe⟩ := frame_eq_some_iff.mp h
  have hsearch := (findFde_iff_search ins.cutOld).mp hfound
  obtain ⟨found', hnew, hsame⟩ := ins.search_new (show ins.entries = [] ++ ins.entries from rfl) ins.cutNew (by simp)
    (haccepted found hfound) hsearch
  refine frame_eq_some_iff.mpr ⟨found', (findFde_iff_search ins.cutNew).mpr hnew, ?_⟩
  rw [hsame.evaluateEntry_eq]
  exact hframe

theorem Insertion.frame_iff (readMemory : CfiMemoryReader)
    (readRegister : Word → Except Exception Word) :
    new.frame target readMemory readRegister = old.frame target readMemory readRegister ↔
      old.frame target readMemory readRegister = none ∨ ins.Accepted := by
  constructor
  · intro h
    cases hframe : old.frame target readMemory readRegister with
    | none => exact .inl rfl
    | some frame =>
      rw [hframe] at h
      exact .inr (ins.frame_old h).2
  · intro h
    cases hframe : old.frame target readMemory readRegister with
    | some frame =>
      have haccepted : ins.Accepted := h.resolve_left (by rw [hframe]; simp)
      exact ins.frame_new haccepted hframe
    | none =>
      cases hnew : new.frame target readMemory readRegister with
      | none => rfl
      | some frame =>
        have hold := (ins.frame_old hnew).1
        rw [hframe] at hold
        cases hold

/-- The caller that `EhFrame::caller_frame` makes of a frame. -/
def callerOfFrame (readMemory : CfiMemoryReader) (current : EhFrameCursor)
    (evaluated : EvaluatedFrame) : Except Exception EhFrameCursor := do
  let framePointer ← recoverRegister readMemory evaluated kDwarfRbp current.framePointer
    "CFI RBP slot"
  let rbx ← recoverRegister readMemory evaluated kDwarfRbx current.rbx "CFI RBX slot"
  return ⟨evaluated.returnAddress, evaluated.cfa, framePointer, rbx⟩

theorem caller_eq (s : EhSection) (readMemory : CfiMemoryReader) (current : EhFrameCursor) :
    s.caller target readMemory current = (s.frame target readMemory (cursorRegister current)).bind
      fun evaluated => (callerOfFrame readMemory current evaluated).toOption := by
  unfold EhSection.caller EhFrame.callerFrame EhSection.frame
  dsimp only
  rw [if_neg (by simp)]
  cases evaluateFrame s.bytes s.virtualAddress target readMemory (cursorRegister current) ∅ 0 with
  | error e => rfl
  | ok result =>
    cases result with
    | none => rfl
    | some evaluated =>
      change _ = (callerOfFrame readMemory current evaluated).toOption
      unfold callerOfFrame
      dsimp only [Bind.bind, Except.bind, pure, Except.pure]
      cases recoverRegister readMemory evaluated kDwarfRbp current.framePointer
          "CFI RBP slot" with
      | error e => rfl
      | ok framePointer =>
        dsimp only
        cases recoverRegister readMemory evaluated kDwarfRbx current.rbx "CFI RBX slot" with
        | error e => rfl
        | ok rbx => rfl

theorem Insertion.caller_iff (readMemory : CfiMemoryReader) (current : EhFrameCursor) :
    new.caller target readMemory current = old.caller target readMemory current ↔
      old.caller target readMemory current = none ∨ ins.Accepted := by
  rw [caller_eq, caller_eq]
  constructor
  · intro h
    cases hcaller : (old.frame target readMemory (cursorRegister current)).bind
        fun evaluated => (callerOfFrame readMemory current evaluated).toOption with
    | none => exact .inl rfl
    | some caller =>
      rw [hcaller] at h
      obtain ⟨frame, hframe, -⟩ := Option.bind_eq_some_iff.mp h
      exact .inr (ins.frame_old hframe).2
  · intro h
    by_cases haccepted : ins.Accepted
    · rw [(ins.frame_iff _ _).mpr (.inr haccepted)]
    · rw [h.resolve_right haccepted]
      cases hnew : new.frame target readMemory (cursorRegister current) with
      | none => rfl
      | some frame => exact absurd (ins.frame_old hnew).2 haccepted

/-- Inserting entries that do not cover the target leaves its frame, and the caller made of it, as
they are exactly when there was none or `parse_cie` accepts every inserted CIE in front of its FDE. -/
theorem inserted_entries_iff (readMemory : CfiMemoryReader) :
    (∀ readRegister,
      new.frame target readMemory readRegister = old.frame target readMemory readRegister ↔
        old.frame target readMemory readRegister = none ∨ ins.Accepted) ∧
    ∀ current, new.caller target readMemory current = old.caller target readMemory current ↔
      old.caller target readMemory current = none ∨ ins.Accepted :=
  ⟨ins.frame_iff readMemory, ins.caller_iff readMemory⟩

end Insertion

/-! ## A trampoline in front

`plainSection` has a CIE and an FDE for `0x1000` to `0x1100`. `extendedSection` has another CIE and an
FDE for `0x5000` to `0x5100` in front of them; the CIE has the augmentation `zR` or, for a signal
trampoline, `zRS`.
-/

def plainCie : List Byte :=
  [0x14, 0, 0, 0, 0, 0, 0, 0, 1, 0x7a, 0x52, 0, 1, 0x78, 0x10, 1, 0x1b, 0x0c, 7, 0x10, 0x90, 1, 0,
    0]

def signalCie : List Byte :=
  [0x14, 0, 0, 0, 0, 0, 0, 0, 1, 0x7a, 0x52, 0x53, 0, 1, 0x78, 0x10, 1, 0x1b, 0x0c, 7, 0x10, 0x90,
    1, 0]

def plainSection : EhSection where
  bytes := plainCie ++
    [0x10, 0, 0, 0, 0x1c, 0, 0, 0, 0xe0, 0xef, 0xff, 0xff, 0, 1, 0, 0, 0, 0, 0, 0]
  virtualAddress := 0x2000

def extendedSection (signal : Bool) : EhSection where
  bytes := (if signal then signalCie else plainCie) ++
    [0x10, 0, 0, 0, 0x1c, 0, 0, 0, 0xe0, 0x2f, 0, 0, 0, 1, 0, 0, 0, 0, 0, 0] ++ plainCie ++
    [0x10, 0, 0, 0, 0x1c, 0, 0, 0, 0xb4, 0xef, 0xff, 0xff, 0, 1, 0, 0, 0, 0, 0, 0]
  virtualAddress := 0x2000

/-- The entries of `extendedSection`, with those they come from. -/
def extendedEntries : List (EntrySpan × Option EntrySpan) :=
  [(⟨0, 24, 0⟩, none), (⟨24, 44, 28⟩, none), (⟨44, 68, 0⟩, some ⟨0, 24, 0⟩),
    (⟨68, 88, 28⟩, some ⟨24, 44, 28⟩)]

theorem cut_plain : Cut plainSection.bytes 0 (extendedEntries.filterMap (·.2)) := by
  refine .entry (e := ⟨0, 24, 0⟩) ?_ (.entry (e := ⟨24, 44, 28⟩) ?_ (.ends (.inl ?_)))
  · exact ⟨by decide, by decide +kernel, by decide, by decide, by decide, by decide +kernel⟩
  · exact ⟨by decide, by decide +kernel, by decide, by decide, by decide, by decide +kernel⟩
  · decide

theorem cut_extended (signal : Bool) :
    Cut (extendedSection signal).bytes 0 (extendedEntries.map (·.1)) := by
  have hentries : extendedEntries.map (·.1) =
      [⟨0, 24, 0⟩, ⟨24, 44, 28⟩, ⟨44, 68, 0⟩, ⟨68, 88, 28⟩] := rfl
  rw [hentries]
  refine .entry (e := ⟨0, 24, 0⟩) ?_ (.entry (e := ⟨24, 44, 28⟩) ?_
    (.entry (e := ⟨44, 68, 0⟩) ?_ (.entry (e := ⟨68, 88, 28⟩) ?_ (.ends (.inl ?_)))))
  all_goals cases signal
  all_goals first
    | exact ⟨by decide, by decide +kernel, by decide, by decide, by decide, by decide +kernel⟩
    | decide

theorem plain_cieText : plainSection.cieText ⟨0, 24, 0⟩ =
    some ⟨1, -8, 16, 0x1b, [0x0c, 7, 0x10, 0x90, 1, 0, 0]⟩ := by decide +kernel

/-- The two entries in front are inserted for `0x1010`, whichever CIE it is. -/
def extendedInsertion (signal : Bool) :
    Insertion plainSection (extendedSection signal) 0x1010 where
  entries := extendedEntries
  cutNew := cut_extended signal
  cutOld := cut_plain
  keptCie e o h ho := by
    simp only [extendedEntries, List.mem_cons, Prod.mk.injEq, reduceCtorEq, and_false, false_or,
      Option.some.injEq, List.not_mem_nil, or_false] at h
    obtain ⟨rfl, rfl⟩ | ⟨rfl, rfl⟩ := h
    · refine ⟨rfl, ?_⟩
      cases signal
      · decide +kernel
      · decide +kernel
    · cases ho
  keptFde e o h ho := by
    simp only [extendedEntries, List.mem_cons, Prod.mk.injEq, reduceCtorEq, and_false, false_or,
      Option.some.injEq, List.not_mem_nil, or_false] at h
    obtain ⟨rfl, rfl⟩ | ⟨rfl, rfl⟩ := h
    · exact absurd rfl ho
    · refine ⟨⟨44, 68, 0⟩, ⟨0, 24, 0⟩, by decide, ⟨by decide, by decide, rfl, rfl⟩,
        ⟨by decide, by decide, rfl, rfl⟩, fun text htext => ?_⟩
      rw [plain_cieText] at htext
      cases htext
      cases signal
      · decide +kernel
      · decide +kernel
  inserted e h ho := by
    simp only [extendedEntries, List.mem_cons, Prod.mk.injEq, reduceCtorEq, and_false, and_true,
      List.not_mem_nil, or_false] at h
    obtain rfl | rfl := h
    · exact absurd rfl ho
    · refine ⟨⟨0, 24, 0⟩, none, by decide, ⟨by decide, by decide, rfl, rfl⟩, fun text htext => ?_⟩
      cases signal
      · have hcie : (extendedSection false).cieText ⟨0, 24, 0⟩ =
            some ⟨1, -8, 16, 0x1b, [0x0c, 7, 0x10, 0x90, 1, 0, 0]⟩ := by decide +kernel
        rw [hcie] at htext
        cases htext
        exact ⟨⟨0x5000, 0x100, [0, 0, 0]⟩, by decide +kernel, by decide⟩
      · have hcie : (extendedSection true).cieText ⟨0, 24, 0⟩ = none := by decide +kernel
        rw [hcie] at htext
        cases htext

/-- With a plain CIE in front the frame stays what it was. -/
theorem inserted_entries_plain :
    (extendedSection false).frame 0x1010 (fun _ _ => .ok (.replicate 8 1)) (fun _ => .ok 0x7000) =
        plainSection.frame 0x1010 (fun _ _ => .ok (.replicate 8 1)) (fun _ => .ok 0x7000) ∧
      (plainSection.frame 0x1010 (fun _ _ => .ok (.replicate 8 1))
        (fun _ => .ok 0x7000)).isSome = true := by
  have haccepted : (extendedInsertion false).Accepted := by
    intro found _ e o _ _ c hc hpointer _
    change (c, none) ∈ extendedEntries at hc
    simp only [extendedEntries, List.mem_cons, Prod.mk.injEq, reduceCtorEq, and_false, and_true,
      List.not_mem_nil, or_false] at hc
    obtain rfl | rfl := hc
    · decide +kernel
    · exact absurd hpointer (by decide)
  refine ⟨?_, by decide +kernel⟩
  exact ((inserted_entries_iff (extendedInsertion false) _).1 _).mpr (.inr haccepted)

/-- A trampoline in front, which the signal index accepts, takes the frame away. -/
theorem inserted_trampoline_hides_frame :
    Nonempty (Insertion plainSection (extendedSection true) 0x1010) ∧
      (plainSection.frame 0x1010 (fun _ _ => .ok (.replicate 8 1))
        (fun _ => .ok 0x7000)).isSome = true ∧
      ((extendedSection true).frame 0x1010 (fun _ _ => .ok (.replicate 8 1))
        (fun _ => .ok 0x7000)).isSome = false ∧
      EhFrameSignalIndex.isSignalFrame ⟨(extendedSection true).bytes, 0x2000, true⟩ 0x1010 =
        .ok false ∧
      EhFrameSignalIndex.isSignalFrame ⟨(extendedSection true).bytes, 0x2000, true⟩ 0x5010 =
        .ok true :=
  ⟨⟨extendedInsertion true⟩, by decide +kernel, by decide +kernel, by decide +kernel,
    by decide +kernel⟩

end MiniDebugger
