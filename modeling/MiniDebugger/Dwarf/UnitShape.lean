import MiniDebugger.Checks
import MiniDebugger.Dwarf.AncestorWalks
import MiniDebugger.Dwarf.UnitParser

/-!
# The shape of a parsed unit

Whatever bytes it is given, the parser of a unit ends; and where it succeeds the entries stand in
the order of their offsets, inside the unit, each behind its parent, which is an entry whose
abbreviation has children. So the entries make a `DieUnit`, in which every walk ends.
-/

namespace MiniDebugger

open Checks
open Loop (Round)

/-- The abbreviation of the entry at an offset of the unit. -/
def abbreviationAt (sections : DebugSections) (unitStart offset : Nat) :
    Except Exception (Option Abbreviation) := do
  let (header, _) ← readUnitHeader sections.info unitStart
  let abbreviations ← parseAbbreviations sections.abbrev_ header.abbrevOffset
  let (code, _) ← readDwarfUleb sections.info header.unitEnd "DIE abbreviation code" offset
  return abbreviations[code.toNat]?

/-- The abbreviation of the entry has children. -/
def HasChildren (sections : DebugSections) (unitStart : Nat) (die : Die) : Prop :=
  ∃ abbreviation, abbreviationAt sections unitStart die.offset.toNat = .ok (some abbreviation) ∧
    abbreviation.hasChildren = true

/-- The parent of an entry is an entry before it that has children. -/
def Rooted (sections : DebugSections) (unitStart : Nat) (dies : List Die) : Prop :=
  ∀ (i : Nat) (die : Die), dies[i]? = some die → ∀ p ∈ die.parent, p < i ∧
    ∃ parent, dies[p]? = some parent ∧ HasChildren sections unitStart parent

structure ParsedUnit.WellFormed (sections : DebugSections) (unitStart : Nat) (parsed : ParsedUnit) :
    Prop where
  next_gt : unitStart < parsed.nextUnit
  next_le : parsed.nextUnit ≤ sections.info.length
  ascending : parsed.dies.Pairwise fun left right => left.offset < right.offset
  inside : ∀ die ∈ parsed.dies,
    unitStart < die.offset.toNat ∧ die.offset.toNat < parsed.nextUnit
  rooted : Rooted sections unitStart parsed.dies

section Shape

variable {sections : DebugSections} {unitStart : Nat}

/-- What the loop over the entries keeps: the entries it has read stand before the cursor, and the
open ones among them have children. -/
structure DieParser.Shaped (sections : DebugSections) (unitStart unitEnd : Nat)
    (state : DieParser) : Prop where
  begun : unitStart < state.cursor
  inside : ∀ die ∈ state.dies, unitStart < die.offset.toNat ∧ die.offset.toNat < unitEnd ∧
    die.offset.toNat < state.cursor
  ascending : state.dies.Pairwise fun left right => left.offset < right.offset
  opened : ∀ p ∈ state.parents, ∃ parent, state.dies[p]? = some parent ∧
    HasChildren sections unitStart parent
  rooted : Rooted sections unitStart state.dies

theorem readUnitHeader_bounds {info : List Byte} {header : UnitHeader} {cursor : Nat}
    (h : readUnitHeader info unitStart = .ok (header, cursor)) :
    unitStart < cursor ∧ cursor ≤ header.unitEnd ∧ header.unitEnd ≤ info.length := by
  unfold readUnitHeader at h
  obtain ⟨unitLength, middle, hlength, h⟩ := bind_ok h
  obtain ⟨hbegun, hmiddle⟩ := readsOn_readDwarfScalar (by decide) hlength
  dsimp only at h
  split at h
  · cases h
  obtain ⟨cursor', middle', hget, h⟩ := bind_ok h
  cases hget
  split at h
  · cases h
  next hfits =>
    obtain ⟨version, afterVersion, hversion, h⟩ := bind_ok h
    obtain ⟨hmoved, _⟩ := readsOn_readDwarfScalar (by decide) hversion
    split at h
    · obtain ⟨abbrevOffset, afterOffset, hoffset, h⟩ := bind_ok h
      obtain ⟨hmoved', _⟩ := readsOn_readDwarfScalar (by decide) hoffset
      obtain ⟨addressSize, afterSize, hsize, h⟩ := bind_ok h
      obtain ⟨hlast, hend⟩ := readsOn_readDwarfScalar (by decide) hsize
      cases h
      dsimp only
      omega
    split at h
    · obtain ⟨unitType, afterType, htype, h⟩ := bind_ok h
      obtain ⟨hmoved', _⟩ := readsOn_readDwarfScalar (by decide) htype
      split at h
      · cases h
      obtain ⟨addressSize, afterSize, hsize, h⟩ := bind_ok h
      obtain ⟨hmoved'', _⟩ := readsOn_readDwarfScalar (by decide) hsize
      obtain ⟨abbrevOffset, afterOffset, hoffset, h⟩ := bind_ok h
      obtain ⟨hlast, hend⟩ := readsOn_readDwarfScalar (by decide) hoffset
      cases h
      dsimp only
      omega
    · cases h

/-- What is read of an entry is its abbreviation. -/
theorem readDie_abbreviation {abbreviations : AbbreviationTable} {header : UnitHeader}
    {abbreviation : Abbreviation} {attributes : List AttributeValue} {cursor next : Nat}
    (h : readDie sections abbreviations header unitStart cursor =
      .ok (some (abbreviation, attributes), next)) :
    ∃ code middle, readDwarfUleb sections.info header.unitEnd "DIE abbreviation code" cursor =
      .ok (code, middle) ∧ abbreviations[code.toNat]? = some abbreviation := by
  unfold readDie at h
  obtain ⟨code, middle, hcode, h⟩ := bind_ok h
  by_cases hzero : code = 0
  · rw [if_pos hzero] at h
    cases h
  rw [if_neg hzero] at h
  cases hfound : abbreviations[code.toNat]? with
  | none =>
    rw [hfound] at h
    cases h
  | some found =>
    rw [hfound] at h
    obtain ⟨values, last, _, h⟩ := bind_ok h
    cases h
    exact ⟨code, middle, hcode, hfound⟩

theorem Rooted.concat {dies : List Die} {die : Die} (h : Rooted sections unitStart dies)
    (hparent : ∀ p ∈ die.parent, ∃ parent, dies[p]? = some parent ∧
      HasChildren sections unitStart parent) : Rooted sections unitStart (dies ++ [die]) := by
  have hkept : ∀ {p : Nat} {parent : Die}, dies[p]? = some parent →
      (dies ++ [die])[p]? = some parent := by
    intro p parent hp
    rw [List.getElem?_append_left (List.getElem?_eq_some_iff.mp hp).1, hp]
  intro i child hchild p hp
  rw [List.getElem?_append] at hchild
  split at hchild
  · obtain ⟨hlt, parent, hat, hchildren⟩ := h i child hchild p hp
    exact ⟨hlt, parent, hkept hat, hchildren⟩
  · next hlast =>
    obtain rfl : die = child := by
      have hmem := List.mem_of_getElem? hchild
      exact (List.mem_singleton.mp hmem).symm
    obtain ⟨parent, hat, hchildren⟩ := hparent p hp
    have hbound := (List.getElem?_eq_some_iff.mp hat).1
    exact ⟨by omega, parent, hkept hat, hchildren⟩

/-- A round over a null entry or over an entry keeps the shape. -/
theorem DieParser.Shaped.round {abbreviations : AbbreviationTable} {header : UnitHeader}
    {headerEnd : Nat} {state next : DieParser} (hsize : sections.info.length < 2 ^ 64)
    (hheader : readUnitHeader sections.info unitStart = .ok (header, headerEnd))
    (habbreviations : parseAbbreviations sections.abbrev_ header.abbrevOffset = .ok abbreviations)
    (h : state.Shaped sections unitStart header.unitEnd)
    (hround : dieRound sections abbreviations header unitStart state = .again next) :
    next.Shaped sections unitStart header.unitEnd := by
  unfold dieRound at hround
  split at hround
  · cases hround
  next hinside =>
    split at hround
    · cases hround
    · next cursor hread =>
      have hcursor := readsOn_readDie hread
      split at hround
      · cases hround
      · next p parents hparents =>
        cases hround
        refine ⟨h.begun.trans hcursor.1, fun die hdie => ?_, h.ascending, fun q hq => ?_, h.rooted⟩
        · have hold := h.inside die hdie
          exact ⟨hold.1, hold.2.1, hold.2.2.trans hcursor.1⟩
        · exact h.opened q (hparents ▸ List.mem_cons_of_mem p hq)
    · next abbreviation attributes cursor hread =>
      have hcursor := readsOn_readDie hread
      obtain ⟨code, middle, hcode, hfound⟩ := readDie_abbreviation hread
      obtain ⟨_, _, hend⟩ := readUnitHeader_bounds hheader
      have hoffset : (BitVec.ofNat 64 state.cursor).toNat = state.cursor :=
        Nat.mod_eq_of_lt (by omega)
      generalize hdie : (⟨BitVec.ofNat 64 state.cursor, abbreviation.tag, state.parents.head?,
        attributes⟩ : Die) = die at hround
      have hat : die.offset.toNat = state.cursor := by rw [← hdie, hoffset]
      cases hround
      have hrooted : Rooted sections unitStart (state.dies ++ [die]) := by
        refine h.rooted.concat fun p hp => h.opened p ?_
        rw [← hdie] at hp
        exact List.mem_of_mem_head? hp
      refine ⟨h.begun.trans hcursor.1, fun other hother => ?_, ?_, fun p hp => ?_, hrooted⟩
      · obtain hold | hnew := List.mem_append.mp hother
        · have hold := h.inside other hold
          exact ⟨hold.1, hold.2.1, hold.2.2.trans hcursor.1⟩
        · obtain rfl := List.mem_singleton.mp hnew
          rw [hat]
          exact ⟨h.begun, by omega, hcursor.1⟩
      · refine List.pairwise_append.mpr ⟨h.ascending, List.pairwise_singleton _ _, ?_⟩
        intro left hleft right hright
        obtain rfl := List.mem_singleton.mp hright
        rw [BitVec.lt_def, hat]
        exact (h.inside left hleft).2.2
      · have hkept : ∀ q ∈ state.parents, ∃ parent, (state.dies ++ [die])[q]? = some parent ∧
            HasChildren sections unitStart parent := by
          intro q hq
          obtain ⟨parent, hparent, hchildren⟩ := h.opened q hq
          have hbound := (List.getElem?_eq_some_iff.mp hparent).1
          exact ⟨parent, by rw [List.getElem?_append_left hbound, hparent], hchildren⟩
        dsimp only at hp
        split at hp
        · next hchildren =>
          obtain rfl | hp := List.mem_cons.mp hp
          · refine ⟨die, List.getElem?_concat_length, abbreviation, ?_, hchildren⟩
            unfold abbreviationAt
            rw [hheader, ok_bind]
            dsimp only
            rw [habbreviations, ok_bind, hat, hcode, ok_bind]
            exact congrArg Except.ok hfound
          · exact hkept p hp
        · exact hkept p hp

/-- Whatever the loop over the entries ends with has the shape, and ends where the unit does or at
a null entry that closes no list. -/
theorem DieParser.Shaped.run {abbreviations : AbbreviationTable} {header : UnitHeader}
    {headerEnd : Nat} {last : DieParser} (hsize : sections.info.length < 2 ^ 64)
    (hheader : readUnitHeader sections.info unitStart = .ok (header, headerEnd))
    (habbreviations : parseAbbreviations sections.abbrev_ header.abbrevOffset = .ok abbreviations)
    (hrun : Loop.run _ (dieRound sections abbreviations header unitStart) dieRound_decreases
      { cursor := headerEnd } = .ok last) : last.Shaped sections unitStart header.unitEnd := by
  have hfirst : DieParser.Shaped sections unitStart header.unitEnd { cursor := headerEnd } :=
    ⟨(readUnitHeader_bounds hheader).1, fun _ h => absurd h List.not_mem_nil, .nil,
      fun _ h => absurd h List.not_mem_nil, fun _ _ h => by cases h⟩
  have hends := Loop.run_ends (@dieRound_decreases sections abbreviations header unitStart)
    { cursor := headerEnd }
  obtain ⟨state, hstate, hstop⟩ := hends.invariant
    (fun _ _ h hround => h.round hsize hheader habbreviations hround) hfirst
  rw [hrun] at hstop
  unfold dieRound at hstop
  split at hstop
  · cases hstop
    exact hstate
  · split at hstop
    · cases hstop
    · next cursor hread =>
      have hcursor := readsOn_readDie hread
      split at hstop
      · cases hstop
        refine ⟨hstate.begun.trans hcursor.1, fun die hdie => ?_, hstate.ascending, hstate.opened,
          hstate.rooted⟩
        have hold := hstate.inside die hdie
        exact ⟨hold.1, hold.2.1, hold.2.2.trans hcursor.1⟩
      · cases hstop
    · cases hstop

/-- Entries that keep their offsets and parents keep their shape. -/
def SamePlace (die die' : Die) : Prop := die.offset = die'.offset ∧ die.parent = die'.parent

theorem resolveDwarf5Indexes_places {dies dies' : List Die}
    (h : resolveDwarf5Indexes sections dies = .ok dies') : List.Forall₂ SamePlace dies dies' := by
  unfold resolveDwarf5Indexes at h
  split at h
  · cases h
  · split at h
    · cases h
    · refine (mapM_eq_ok.mp h).imp fun die die' hdie => ?_
      obtain ⟨attributes, _, hpure⟩ := bind_eq_ok.mp hdie
      cases hpure
      exact ⟨rfl, rfl⟩

theorem Rooted.resolved {dies dies' : List Die} (h : Rooted sections unitStart dies)
    (hplaces : List.Forall₂ SamePlace dies dies') : Rooted sections unitStart dies' := by
  have hlength := hplaces.length_eq
  intro i die' hdie' p hp
  obtain ⟨hi, rfl⟩ := List.getElem?_eq_some_iff.mp hdie'
  have hi' : i < dies.length := hlength ▸ hi
  obtain ⟨_, hparent⟩ := List.forall₂_iff_get.mp hplaces |>.2 i hi' hi
  obtain ⟨hlt, parent, hat, hchildren⟩ := h i dies[i] (List.getElem?_eq_getElem hi') p
    (hparent ▸ hp)
  obtain ⟨hq, rfl⟩ := List.getElem?_eq_some_iff.mp hat
  have hq' : p < dies'.length := hlength ▸ hq
  obtain ⟨hoffset, _⟩ := List.forall₂_iff_get.mp hplaces |>.2 p hq hq'
  refine ⟨hlt, dies'[p], List.getElem?_eq_getElem hq', ?_⟩
  unfold HasChildren at hchildren ⊢
  exact hoffset ▸ hchildren

theorem ascending_of_places {dies dies' : List Die}
    (h : dies.Pairwise fun left right => left.offset < right.offset)
    (hplaces : List.Forall₂ SamePlace dies dies') :
    dies'.Pairwise fun left right => left.offset < right.offset := by
  have hoffsets : dies.map (·.offset) = dies'.map (·.offset) := by
    rw [← List.forall₂_eq_eq_eq, List.forall₂_map_left_iff, List.forall₂_map_right_iff]
    exact hplaces.imp fun _ _ hplace => hplace.1
  rw [← List.pairwise_map (f := fun die : Die => die.offset) (R := fun a b => a < b)] at h ⊢
  exact hoffsets ▸ h

/-- What a parser that succeeds returns has its entries in their places. -/
theorem parseUnitDies_wellFormed {parsed : ParsedUnit} (hsize : sections.info.length < 2 ^ 64)
    (h : parseUnitDies sections unitStart = .ok parsed) : parsed.WellFormed sections unitStart := by
  unfold parseUnitDies at h
  obtain ⟨⟨header, headerEnd⟩, hheader, h⟩ := bind_eq_ok.mp h
  dsimp only at h
  split at h
  · cases h
  obtain ⟨abbreviations, habbreviations, h⟩ := bind_eq_ok.mp h
  obtain ⟨last, hlast, h⟩ := bind_eq_ok.mp h
  split at h
  · cases h
  have hshaped := DieParser.Shaped.run hsize hheader habbreviations hlast
  obtain ⟨dies, hplaces, rfl⟩ : ∃ dies, List.Forall₂ SamePlace last.dies dies ∧
      ⟨dies, header.unitEnd, header.version⟩ = parsed := by
    split at h
    · obtain ⟨dies, hdies, hpure⟩ := bind_eq_ok.mp h
      cases hpure
      exact ⟨dies, resolveDwarf5Indexes_places hdies, rfl⟩
    · cases h
      exact ⟨last.dies, List.forall₂_same.mpr fun _ _ => ⟨rfl, rfl⟩, rfl⟩
  obtain ⟨hbegun, hfits, hend⟩ := readUnitHeader_bounds hheader
  refine ⟨hbegun.trans_le hfits, hend, ascending_of_places hshaped.ascending hplaces,
    fun die hdie => ?_, hshaped.rooted.resolved hplaces⟩
  obtain ⟨i, hi, rfl⟩ := List.mem_iff_getElem.mp hdie
  have hi' : i < last.dies.length := hplaces.length_eq ▸ hi
  obtain ⟨hoffset, _⟩ := List.forall₂_iff_get.mp hplaces |>.2 i hi' hi
  obtain ⟨hafter, hbefore, _⟩ := hshaped.inside last.dies[i] (List.getElem_mem hi')
  have hoffset' : last.dies[i].offset = dies[i].offset := hoffset
  exact ⟨hoffset' ▸ hafter, hoffset' ▸ hbefore⟩

/-- The unit that the entries make. -/
def ParsedUnit.WellFormed.dieUnit {parsed : ParsedUnit}
    (h : parsed.WellFormed sections unitStart) : DieUnit where
  dies := parsed.dies
  version := parsed.version
  ascending := h.ascending
  rooted i p hp := (h.rooted i _ (List.getElem?_eq_getElem i.isLt) p hp).1

end Shape

/-- The loops of the parser end on every input; what it returns is well formed, and every walk over
the entries ends. -/
theorem parseUnitDies_forest (sections : DebugSections) (unitStart : Nat) :
    ((∀ bytes state, ∃ result, Loop.Ends (attributeSpecRound bytes) state result) ∧
      (∀ bytes state, ∃ result, Loop.Ends (abbreviationRound bytes) state result) ∧
      ∀ abbreviations header state,
        ∃ result, Loop.Ends (dieRound sections abbreviations header unitStart) state result) ∧
    ∀ parsed, sections.info.length < 2 ^ 64 → parseUnitDies sections unitStart = .ok parsed →
      parsed.WellFormed sections unitStart ∧
      ∃ u : DieUnit, u.dies = parsed.dies ∧ u.version = parsed.version ∧ u.WalksEnd := by
  refine ⟨⟨fun bytes => (attributeSpecRound_decreases bytes).ends,
    fun bytes => (abbreviationRound_decreases bytes).ends,
    fun abbreviations header => dieRound_decreases.ends⟩, fun parsed hsize hparsed => ?_⟩
  have hformed := parseUnitDies_wellFormed hsize hparsed
  exact ⟨hformed, hformed.dieUnit, rfl, rfl, walksEnd _⟩

/-- A unit of version 4 whose root has one child, both without attributes. -/
def oneChild : DebugSections where
  info := [10, 0, 0, 0, 4, 0, 0, 0, 0, 0, 8, 1, 2, 0]
  abbrev_ := [1, 0x11, 1, 0, 0, 2, 0x2e, 0, 0, 0, 0]

theorem parseUnitDies_forest_oneChild : ∃ parsed, parseUnitDies oneChild 0 = .ok parsed ∧
    parsed.WellFormed oneChild 0 ∧
    ∃ u : DieUnit, u.dies = parsed.dies ∧ u.version = parsed.version ∧ u.WalksEnd := by
  have hsome : (parseUnitDies oneChild 0).toOption.isSome := by decide +kernel
  cases h : parseUnitDies oneChild 0 with
  | error e =>
    rw [h] at hsome
    cases hsome
  | ok parsed => exact ⟨parsed, rfl, (parseUnitDies_forest oneChild 0).2 parsed (by decide) h⟩

end MiniDebugger
