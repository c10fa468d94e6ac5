import MiniDebugger.Loops
import MiniDebugger.Checks
import MiniDebugger.Dwarf.Operands

/-!
# What a location list says

A location list selects base addresses and gives an expression for ranges of offsets from them.
`selectLocation` is the location of a value at an address; `Dwarf4List` and `Dwarf5List` are the two
encodings of a list.

Both readers of location lists find in the encoding of a list the location the list selects.
-/

namespace MiniDebugger

open Checks Loop

/-- An entry for a range. Neither encoding can tell an entry at `(0, 0)` from the end of a list or
one that begins at the highest address from a base selection, so there is none. -/
structure OffsetPair where
  first : Word
  last : Word
  expression : List Byte
  length_le : expression.length ≤ 65535
  not_end : ¬(first = 0 ∧ last = 0)
  not_base : first ≠ BitVec.allOnes 64

inductive LocationListItem where
  | base (address : Word)
  | pair (pair : OffsetPair)

inductive LocationOutcome where
  | expression (bytes : List Byte)
  | malformed
  | missing

/-- A range that no addresses make up: it wraps or is reversed. -/
def OffsetPair.Malformed (base : Word) (pair : OffsetPair) : Prop :=
  2 ^ 64 ≤ base.toNat + pair.first.toNat ∨ 2 ^ 64 ≤ base.toNat + pair.last.toNat ∨
    pair.last < pair.first

instance (base : Word) (pair : OffsetPair) : Decidable (pair.Malformed base) := by
  unfold OffsetPair.Malformed
  exact inferInstance

/-- The location at an address: the expression of the first range that contains it. -/
def selectLocation (pc : Word) : Word → List LocationListItem → LocationOutcome
  | _, [] => .missing
  | _, .base address :: items => selectLocation pc address items
  | base, .pair pair :: items =>
    if pair.Malformed base then .malformed
    else if base.toNat + pair.first.toNat ≤ pc.toNat ∧ pc.toNat < base.toNat + pair.last.toNat then
      .expression pair.expression
    else selectLocation pc base items

/-! ## Encodings -/

/-- An item in `.debug_loc`. -/
inductive Dwarf4Item : LocationListItem → List Byte → Prop
  | base (address : Word) :
    Dwarf4Item (.base address) (fieldBytes 8 (2 ^ 64 - 1) ++ fieldBytes 8 address.toNat)
  | pair (pair : OffsetPair) :
    Dwarf4Item (.pair pair) (fieldBytes 8 pair.first.toNat ++ (fieldBytes 8 pair.last.toNat ++
      (fieldBytes 2 pair.expression.length ++ pair.expression)))

/-- The end of a list in `.debug_loc`. -/
def dwarf4End : List Byte := fieldBytes 8 0 ++ fieldBytes 8 0

/-- An item in `.debug_loclists`, with any encoding of its numbers. -/
inductive Dwarf5Item : LocationListItem → List Byte → Prop
  | base (address : Word) :
    Dwarf5Item (.base address) (fieldBytes 1 kDwLleBaseAddress ++ fieldBytes 8 address.toNat)
  | pair (pair : OffsetPair) (first last length : UnsignedOperand)
      (hfirst : first.value = pair.first) (hlast : last.value = pair.last)
      (hlength : length.value.toNat = pair.expression.length) :
    Dwarf5Item (.pair pair) (fieldBytes 1 kDwLleOffsetPair ++ (first.digits ++ (last.digits ++
      (length.digits ++ pair.expression))))

/-- The end of a list in `.debug_loclists`. -/
def dwarf5End : List Byte := fieldBytes 1 kDwLleEndOfList

/-- The bytes of a list: those of its items and of its end. -/
inductive ListBytes (Item : LocationListItem → List Byte → Prop) (stop : List Byte) :
    List LocationListItem → List Byte → Prop
  | stop : ListBytes Item stop [] stop
  | item {item : LocationListItem} {items : List LocationListItem} {bytes rest : List Byte} :
    Item item bytes → ListBytes Item stop items rest →
    ListBytes Item stop (item :: items) (bytes ++ rest)

/-- A contribution to `.debug_loclists`: a header, a table of offsets and the lists. -/
structure ListContribution where
  offsets : List Nat
  lists : List Byte
  fits : 8 + 4 * offsets.length + lists.length < 0xffffffff

/-- What comes before the lists. -/
def ListContribution.header (contribution : ListContribution) : List Byte :=
  fieldBytes 4 (8 + 4 * contribution.offsets.length + contribution.lists.length) ++
    (fieldBytes 2 5 ++ (fieldBytes 1 8 ++ (fieldBytes 1 0 ++
      (fieldBytes 4 contribution.offsets.length ++ contribution.offsets.flatMap (fieldBytes 4)))))

def ListContribution.bytes (contribution : ListContribution) : List Byte :=
  contribution.header ++ contribution.lists

/-- `.debug_loc` with a list at an offset. -/
structure Dwarf4Placed (section_ encoded : List Byte) (offset : Word) : Prop where
  placed : ∃ before after, section_ = before ++ (encoded ++ after) ∧ offset.toNat = before.length

/-- `.debug_loclists` with a list at an offset of one of its contributions. -/
structure Dwarf5Placed (section_ encoded : List Byte) (offset : Word) : Prop where
  placed : ∃ (before : List ListContribution) (contribution : ListContribution)
      (inner trailing after : List Byte),
    section_ = before.flatMap ListContribution.bytes ++ (contribution.bytes ++ after) ∧
    contribution.lists = inner ++ (encoded ++ trailing) ∧
    offset.toNat = (before.flatMap ListContribution.bytes).length + 12 +
      4 * contribution.offsets.length + inner.length

/-! ## What the readers return -/

/-- The expression of an entry. -/
def LocationEntry.expression (bytes : List Byte) (entry : LocationEntry) : List Byte :=
  (bytes.drop entry.start).take (entry.finish - entry.start)

/-- `active_dwarf4_location_expression` -/
def activeDwarf4LocationExpression (locations : List Byte) (offset pc initialBase : Word) :
    Except Exception (List Byte) :=
  (activeDwarf4Location locations offset pc initialBase).map (·.expression locations)

/-- `active_dwarf5_location_expression` -/
def activeDwarf5LocationExpression (locationLists : List Byte) (offset pc initialBase : Word) :
    Except Exception (List Byte) :=
  (activeDwarf5Location locationLists offset pc initialBase).map (·.expression locationLists)

/-- What a reader says of a range that no addresses make up. -/
structure RangeTexts where
  first : String
  last : String
  reversed : String

def dwarf4Texts : RangeTexts where
  first := "location-list range begin"
  last := "location-list range end"
  reversed := "DWARF4 location-list range is reversed"

def dwarf5Texts : RangeTexts where
  first := "DWARF5 location range begin"
  last := "DWARF5 location range end"
  reversed := "DWARF5 location-list range is reversed"

/-- The errors for a malformed range. -/
def RangeTexts.Malformed (texts : RangeTexts) (e : Exception) : Prop :=
  e = .runtimeError (texts.first ++ " overflows address space") ∨
  e = .runtimeError (texts.last ++ " overflows address space") ∨
  e = .runtimeError texts.reversed

/-- A reader comes to an outcome. -/
def ComesTo (texts : RangeTexts) (x : Except Exception (List Byte)) : LocationOutcome → Prop
  | .expression bytes => x = .ok bytes
  | .malformed => ∃ e, x = .error e ∧ texts.Malformed e
  | .missing => x = .error (.runtimeError "local value has no location for the current PC")

/-- A reader of items reads the items of an encoding. -/
structure ReadsItems (texts : RangeTexts) (bytes : List Byte) (limit : Nat)
    (reader : Word → Parse LocationItem) (Item : LocationListItem → List Byte → Prop)
    (stop : List Byte) : Prop where
  stop_pos : 0 < stop.length
  item_pos : ∀ {item : LocationListItem} {encoded : List Byte}, Item item encoded →
    0 < encoded.length
  reads_stop : ∀ {base : Word} {cursor : Nat} {rest : List Byte},
    Remaining bytes limit cursor (stop ++ rest) → ∃ next, reader base cursor = .ok (.stop, next)
  reads_base : ∀ {base address : Word} {cursor : Nat} {encoded rest : List Byte},
    Item (.base address) encoded → Remaining bytes limit cursor (encoded ++ rest) →
    reader base cursor = .ok (.base address, cursor + encoded.length)
  reads_pair : ∀ {base : Word} {pair : OffsetPair} {cursor : Nat} {encoded rest : List Byte},
    Item (.pair pair) encoded → Remaining bytes limit cursor (encoded ++ rest) →
    if pair.Malformed base then ∃ e, reader base cursor = .error e ∧ texts.Malformed e
    else ∃ entry, reader base cursor = .ok (.entry entry, cursor + encoded.length) ∧
      entry.rangeBegin = base + pair.first ∧ entry.rangeEnd = base + pair.last ∧
      entry.expression bytes = pair.expression

theorem addUnsigned_eq (base offset : Word) (what : String) :
    addUnsigned base offset what =
      if 2 ^ 64 ≤ base.toNat + offset.toNat then
        .error (.runtimeError (what ++ " overflows address space"))
      else .ok (base + offset) := rfl

/-- An entry is refused exactly when its range is malformed. -/
theorem locationEntry_eq (texts : RangeTexts) (base : Word) (pair : OffsetPair)
    (start length : Nat) :
    if pair.Malformed base then
      ∃ e, locationEntry base pair.first pair.last start length texts.first texts.last
        texts.reversed = .error e ∧ texts.Malformed e
    else locationEntry base pair.first pair.last start length texts.first texts.last
        texts.reversed =
      .ok (.entry ⟨base + pair.first, base + pair.last, start, start + length⟩) := by
  unfold locationEntry RangeTexts.Malformed
  rw [addUnsigned_eq, addUnsigned_eq]
  by_cases hfirst : 2 ^ 64 ≤ base.toNat + pair.first.toNat
  · rw [if_pos (.inl hfirst), if_pos hfirst]
    exact ⟨_, rfl, .inl rfl⟩
  · rw [if_neg hfirst]
    by_cases hlast : 2 ^ 64 ≤ base.toNat + pair.last.toNat
    · rw [if_pos (.inr (.inl hlast)), if_pos hlast]
      exact ⟨_, rfl, .inr (.inl rfl)⟩
    · have hreversed : base + pair.last < base + pair.first ↔ pair.last < pair.first := by
        rw [BitVec.lt_def, BitVec.lt_def, BitVec.toNat_add_of_lt (by omega),
          BitVec.toNat_add_of_lt (by omega)]
        omega
      rw [if_neg hlast]
      by_cases hless : pair.last < pair.first
      · rw [if_pos (.inr (.inr hless))]
        simp only [ok_bind]
        rw [if_pos (hreversed.mpr hless)]
        exact ⟨_, rfl, .inr (.inr rfl)⟩
      · have hfine : ¬pair.Malformed base := fun h =>
          h.elim hfirst fun h => h.elim hlast hless
        rw [if_neg hfine]
        simp only [ok_bind]
        rw [if_neg (fun h => hless (hreversed.mp h))]
        rfl

/-- A range that is not malformed contains the addresses its sums say. -/
theorem covers_iff {base pc : Word} {pair : OffsetPair} {entry : LocationEntry}
    (h : ¬pair.Malformed base) (hbegin : entry.rangeBegin = base + pair.first)
    (hend : entry.rangeEnd = base + pair.last) :
    entry.covers pc = true ↔
      base.toNat + pair.first.toNat ≤ pc.toNat ∧ pc.toNat < base.toNat + pair.last.toNat := by
  unfold OffsetPair.Malformed at h
  unfold LocationEntry.covers
  rw [hbegin, hend, Bool.and_eq_true, decide_eq_true_eq, decide_eq_true_eq, BitVec.le_def,
    BitVec.lt_def, BitVec.toNat_add_of_lt (by omega), BitVec.toNat_add_of_lt (by omega)]

theorem walkLocations_comesTo {texts : RangeTexts} {bytes : List Byte} {limit : Nat}
    {reader : Word → Parse LocationItem} {Item : LocationListItem → List Byte → Prop}
    {stop : List Byte} (hreads : ReadsItems texts bytes limit reader Item stop) {pc base : Word}
    {items : List LocationListItem} {encoded rest : List Byte} {room cursor : Nat}
    (hencoded : ListBytes Item stop items encoded) (hroom : items.length < room)
    (h : Remaining bytes limit cursor (encoded ++ rest)) :
    ComesTo texts ((walkLocations reader limit pc room cursor base).map (·.expression bytes))
      (selectLocation pc base items) := by
  have hlength := h.length_eq
  rw [List.length_append] at hlength
  induction hencoded generalizing room cursor base with
  | stop =>
    cases room with
    | zero => omega
    | succ room =>
      have hpos := hreads.stop_pos
      obtain ⟨next, hnext⟩ : ∃ next, reader base cursor = .ok (.stop, next) := hreads.reads_stop h
      rw [walkLocations, if_neg (by omega), hnext]
      rfl
  | @item item items encoded others hitem _ ih =>
    cases room with
    | zero => omega
    | succ room =>
      have hpos := hreads.item_pos hitem
      rw [List.append_assoc] at h
      rw [List.length_append] at hlength
      rw [List.length_cons] at hroom
      have hothers := h.append
      rw [walkLocations, if_neg (by omega)]
      cases item with
      | base address =>
        rw [hreads.reads_base hitem h]
        exact ih (by omega) hothers (by omega)
      | pair pair =>
        have hpair : if pair.Malformed base then _ else _ := hreads.reads_pair hitem h
        unfold selectLocation
        by_cases hmalformed : pair.Malformed base
        · rw [if_pos hmalformed] at hpair ⊢
          obtain ⟨e, he, htext⟩ := hpair
          rw [he]
          exact ⟨e, rfl, htext⟩
        · rw [if_neg hmalformed] at hpair ⊢
          obtain ⟨entry, hentry, hbegin, hend, hexpression⟩ := hpair
          have hcovers : entry.covers pc = true ↔ _ := covers_iff hmalformed hbegin hend
          rw [hentry]
          simp only [ok_bind]
          by_cases hcontains : entry.covers pc = true
          · rw [if_pos hcontains, if_pos (hcovers.mp hcontains)]
            exact congrArg Except.ok hexpression
          · rw [if_neg hcontains, if_neg (fun hsums => hcontains (hcovers.mpr hsums))]
            exact ih (by omega) hothers (by omega)

/-! ## The reader of `.debug_loc` -/

section Dwarf4

variable {bytes rest : List Byte} {base address : Word} {pair : OffsetPair} {cursor : Nat}

theorem dwarf4LocationItem_stop
    (h : Remaining bytes bytes.length cursor (dwarf4End ++ rest)) :
    dwarf4LocationItem bytes base cursor = .ok (.stop, cursor + 8 + 8) := by
  unfold dwarf4End at h
  rw [List.append_assoc] at h
  have hend := h.append
  rw [length_fieldBytes] at hend
  unfold dwarf4LocationItem
  rw [bind_of_read (h.readDwarfScalar (by decide)), bind_of_read (hend.readDwarfScalar (by decide)),
    if_pos ⟨rfl, rfl⟩]
  rfl

theorem dwarf4LocationItem_base
    (h : Remaining bytes bytes.length cursor
      (fieldBytes 8 (2 ^ 64 - 1) ++ fieldBytes 8 address.toNat ++ rest)) :
    dwarf4LocationItem bytes base cursor = .ok (.base address, cursor + 8 + 8) := by
  rw [List.append_assoc] at h
  have haddress := h.append
  rw [length_fieldBytes] at haddress
  unfold dwarf4LocationItem
  rw [bind_of_read (h.readDwarfScalar (by decide)),
    bind_of_read (haddress.readDwarfScalar address.isLt), if_neg (by omega), if_pos rfl]
  simp only [BitVec.ofNat_toNat, BitVec.setWidth_eq]
  rfl

theorem OffsetPair.first_lt (pair : OffsetPair) : pair.first.toNat < 2 ^ 64 - 1 := by
  have hlt := pair.first.isLt
  have hne : pair.first.toNat ≠ 2 ^ 64 - 1 := by
    intro h
    exact pair.not_base (BitVec.eq_of_toNat_eq h)
  omega

theorem dwarf4LocationItem_pair {encoded : List Byte} (hitem : Dwarf4Item (.pair pair) encoded)
    (h : Remaining bytes bytes.length cursor (encoded ++ rest)) :
    ∃ start, dwarf4LocationItem bytes base cursor =
        (locationEntry base pair.first pair.last start pair.expression.length dwarf4Texts.first
          dwarf4Texts.last dwarf4Texts.reversed).map (·, cursor + encoded.length) ∧
      (bytes.drop start).take pair.expression.length = pair.expression := by
  cases hitem
  rw [List.append_assoc, List.append_assoc, List.append_assoc] at h
  have hlast := h.append
  have hlength := hlast.append
  have hexpression := hlength.append
  have hfits := hexpression.length_eq
  have hfirst := pair.first_lt
  simp only [length_fieldBytes, List.length_append] at hlast hlength hexpression hfits ⊢
  have hzero : ¬(pair.first.toNat = 0 ∧ pair.last.toNat = 0) := fun hz =>
    pair.not_end ⟨BitVec.eq_of_toNat_eq hz.1, BitVec.eq_of_toNat_eq hz.2⟩
  refine ⟨cursor + 8 + 8 + 2, ?_, hexpression.slice⟩
  unfold dwarf4LocationItem
  rw [bind_of_read (h.readDwarfScalar pair.first.isLt),
    bind_of_read (hlast.readDwarfScalar pair.last.isLt), if_neg hzero, if_neg (by omega),
    bind_of_read (hlength.readDwarfScalar (Nat.lt_of_le_of_lt pair.length_le (by decide))),
    get_bind, if_neg (by omega)]
  simp only [BitVec.ofNat_toNat, BitVec.setWidth_eq, dwarf4Texts]
  rw [lift_bind, show cursor + (8 + (8 + (2 + pair.expression.length))) =
    cursor + 8 + 8 + 2 + pair.expression.length by omega]
  cases locationEntry base pair.first pair.last (cursor + 8 + 8 + 2) pair.expression.length
      "location-list range begin" "location-list range end"
      "DWARF4 location-list range is reversed" with
  | ok item => rfl
  | error e => rfl

/-- An entry that was read is the one of its range, and keeps its expression. -/
theorem entry_of_locationEntry {texts : RangeTexts} {x : Except Exception (LocationItem × Nat)}
    {start next : Nat}
    (hx : x = (locationEntry base pair.first pair.last start pair.expression.length texts.first
      texts.last texts.reversed).map (·, next))
    (hexpression : (bytes.drop start).take pair.expression.length = pair.expression) :
    if pair.Malformed base then ∃ e, x = .error e ∧ texts.Malformed e
    else ∃ entry, x = .ok (.entry entry, next) ∧ entry.rangeBegin = base + pair.first ∧
      entry.rangeEnd = base + pair.last ∧ entry.expression bytes = pair.expression := by
  have hentry := locationEntry_eq texts base pair start pair.expression.length
  by_cases hmalformed : pair.Malformed base
  · rw [if_pos hmalformed] at hentry ⊢
    obtain ⟨e, he, htext⟩ := hentry
    rw [he] at hx
    exact ⟨e, hx, htext⟩
  · rw [if_neg hmalformed] at hentry ⊢
    rw [hentry] at hx
    refine ⟨_, hx, rfl, rfl, ?_⟩
    unfold LocationEntry.expression
    dsimp only
    rwa [Nat.add_sub_cancel_left]

theorem readsItems_dwarf4 (bytes : List Byte) :
    ReadsItems dwarf4Texts bytes bytes.length (dwarf4LocationItem bytes) Dwarf4Item dwarf4End where
  stop_pos := by decide
  item_pos := by
    intro item encoded hitem
    cases hitem <;> simp
  reads_stop h := ⟨_, dwarf4LocationItem_stop h⟩
  reads_base hitem h := by
    cases hitem
    rw [dwarf4LocationItem_base h]
    simp
  reads_pair hitem h := by
    obtain ⟨start, hread, hexpression⟩ := dwarf4LocationItem_pair hitem h
    exact entry_of_locationEntry hread hexpression

end Dwarf4

/-! ## The reader of `.debug_loclists` -/

section Dwarf5

variable {bytes rest : List Byte} {base address : Word} {pair : OffsetPair} {limit cursor : Nat}

theorem dwarf5LocationItem_pair {encoded : List Byte} (hitem : Dwarf5Item (.pair pair) encoded)
    (h : Remaining bytes limit cursor (encoded ++ rest)) :
    ∃ start, dwarf5LocationItem bytes limit base cursor =
        (locationEntry base pair.first pair.last start pair.expression.length dwarf5Texts.first
          dwarf5Texts.last dwarf5Texts.reversed).map (·, cursor + encoded.length) ∧
      (bytes.drop start).take pair.expression.length = pair.expression := by
  cases hitem with
  | pair _ first last length hfirst hlast hlength =>
    rw [List.append_assoc, List.append_assoc, List.append_assoc, List.append_assoc] at h
    have hbegin := h.append
    have hend := hbegin.append
    have hsize := hend.append
    have hexpression := hsize.append
    have hfits := hexpression.length_eq
    simp only [length_fieldBytes, List.length_append] at hbegin hend hsize hexpression hfits ⊢
    refine ⟨_, ?_, hexpression.slice⟩
    unfold dwarf5LocationItem
    rw [bind_of_read (h.readDwarfScalar (by decide)), if_neg (by decide), if_neg (by decide),
      if_neg (by decide)]
    beta_reduce
    rw [bind_of_read hbegin.readDwarfUleb, bind_of_read hend.readDwarfUleb,
      bind_of_read hsize.readDwarfUleb, get_bind, hlength, if_neg (by omega)]
    simp only [hfirst, hlast, dwarf5Texts]
    rw [lift_bind, show cursor + (1 + (first.digits.length + (last.digits.length +
      (length.digits.length + pair.expression.length)))) = cursor + 1 + first.digits.length +
      last.digits.length + length.digits.length + pair.expression.length by omega]
    cases locationEntry base pair.first pair.last _ pair.expression.length
        "DWARF5 location range begin" "DWARF5 location range end"
        "DWARF5 location-list range is reversed" with
    | ok item => rfl
    | error e => rfl

theorem readsItems_dwarf5 (bytes : List Byte) (limit : Nat) :
    ReadsItems dwarf5Texts bytes limit (dwarf5LocationItem bytes limit) Dwarf5Item dwarf5End where
  stop_pos := by decide
  item_pos := by
    intro item encoded hitem
    cases hitem <;> simp
  reads_stop h := by
    unfold dwarf5LocationItem
    rw [bind_of_read (h.readDwarfScalar (by decide)), if_pos rfl]
    exact ⟨_, rfl⟩
  reads_base hitem h := by
    cases hitem with
    | base =>
      rw [List.append_assoc] at h
      have haddress := h.append
      rw [length_fieldBytes] at haddress
      unfold dwarf5LocationItem
      rw [bind_of_read (h.readDwarfScalar (by decide)), if_neg (by decide), if_pos rfl,
        bind_of_read (haddress.readDwarfScalar (BitVec.isLt _))]
      simp only [BitVec.ofNat_toNat, BitVec.setWidth_eq, List.length_append, length_fieldBytes]
      rfl
  reads_pair hitem h := by
    obtain ⟨start, hread, hexpression⟩ := dwarf5LocationItem_pair hitem h
    exact entry_of_locationEntry hread hexpression

end Dwarf5

/-! ## Finding a list -/

theorem ListBytes.length_lt {texts : RangeTexts} {bytes : List Byte} {limit : Nat}
    {reader : Word → Parse LocationItem} {Item : LocationListItem → List Byte → Prop}
    {stop : List Byte} (hreads : ReadsItems texts bytes limit reader Item stop)
    {items : List LocationListItem} {encoded : List Byte} (h : ListBytes Item stop items encoded) :
    items.length < encoded.length := by
  induction h with
  | stop => exact hreads.stop_pos
  | item hitem _ ih =>
    have := hreads.item_pos hitem
    rw [List.length_cons, List.length_append]
    omega

theorem activeDwarf4LocationExpression_comesTo {locations encoded : List Byte}
    {offset pc initialBase : Word} {items : List LocationListItem}
    (hencoded : ListBytes Dwarf4Item dwarf4End items encoded)
    (hplaced : Dwarf4Placed locations encoded offset) :
    ComesTo dwarf4Texts (activeDwarf4LocationExpression locations offset pc initialBase)
      (selectLocation pc initialBase items) := by
  obtain ⟨before, after, rfl, hoffset⟩ := hplaced.placed
  have hreads := readsItems_dwarf4 (before ++ (encoded ++ after))
  have hlt := hencoded.length_lt hreads
  have hlist := (Remaining.start (before ++ (encoded ++ after))).append
  rw [Nat.zero_add, ← hoffset] at hlist
  have hlength := hlist.length_eq
  rw [List.length_append] at hlength
  unfold activeDwarf4LocationExpression activeDwarf4Location
  simp only [throw_bind]
  rw [if_neg (by omega), if_neg (by omega)]
  exact walkLocations_comesTo hreads hencoded (by omega) hlist

theorem ListContribution.length_header (contribution : ListContribution) :
    contribution.header.length = 12 + 4 * contribution.offsets.length := by
  have htable : (contribution.offsets.flatMap (fieldBytes 4)).length =
      4 * contribution.offsets.length := by
    induction contribution.offsets with
    | nil => rfl
    | cons offset offsets ih =>
      rw [List.flatMap_cons, List.length_append, length_fieldBytes, ih, List.length_cons]
      omega
  unfold ListContribution.header
  simp only [List.length_append, length_fieldBytes, htable]
  omega

theorem ListContribution.length_bytes (contribution : ListContribution) :
    contribution.bytes.length =
      12 + 4 * contribution.offsets.length + contribution.lists.length := by
  rw [ListContribution.bytes, List.length_append, contribution.length_header]

/-- There are at most as many contributions as bytes. -/
theorem length_le_contributions (contributions : List ListContribution) :
    contributions.length ≤ (contributions.flatMap ListContribution.bytes).length := by
  induction contributions with
  | nil => simp
  | cons contribution contributions ih =>
    have := contribution.length_bytes
    rw [List.flatMap_cons, List.length_append, List.length_cons]
    omega

theorem loclistsContributionAt_eq {bytes rest : List Byte} {contribution : ListContribution}
    {start : Nat} (h : Remaining bytes bytes.length start (contribution.bytes ++ rest)) :
    loclistsContributionAt bytes start =
      .ok ⟨start + 12, start + contribution.bytes.length⟩ := by
  have hlength := h.length_eq
  have hbytes := contribution.length_bytes
  have hfits := contribution.fits
  rw [List.length_append] at hlength
  unfold ListContribution.bytes ListContribution.header at h
  simp only [List.append_assoc] at h
  have hversion := h.append
  have haddress := hversion.append
  have hsegment := haddress.append
  have hcount := hsegment.append
  simp only [length_fieldBytes] at hversion haddress hsegment hcount
  unfold loclistsContributionAt
  simp only [throw_bind]
  rw [if_neg (by omega), if_neg (by omega), h.readAt (by omega), ok_bind, if_neg (by omega),
    hversion.readAt (by decide), ok_bind, haddress.readAt (by decide), ok_bind,
    hsegment.readAt (by decide), ok_bind, if_neg (by decide), hcount.readAt (by omega), ok_bind,
    if_neg (by omega)]
  have hfinish : start + 4 + (8 + 4 * contribution.offsets.length + contribution.lists.length) =
      start + contribution.bytes.length := by omega
  rw [hfinish]
  rfl

/-- The contribution of an offset is found past those before it. -/
theorem loclistsContributionFrom_eq {bytes rest : List Byte} {before : List ListContribution}
    {contribution : ListContribution} {start room wanted : Nat}
    (h : Remaining bytes bytes.length start
      (before.flatMap ListContribution.bytes ++ (contribution.bytes ++ rest)))
    (hroom : before.length < room)
    (hfirst : start + (before.flatMap ListContribution.bytes).length + 12 ≤ wanted)
    (hlast : wanted < start + (before.flatMap ListContribution.bytes).length +
      contribution.bytes.length) :
    ∃ found, loclistsContributionFrom bytes wanted room start = .ok found ∧
      found.finish = start + (before.flatMap ListContribution.bytes).length +
        contribution.bytes.length := by
  have hlength := h.length_eq
  simp only [List.length_append] at hlength
  induction before generalizing start room with
  | nil =>
    cases room with
    | zero => omega
    | succ room =>
      have hpos := contribution.length_bytes
      simp only [List.flatMap_nil, List.length_nil, List.nil_append, Nat.add_zero] at h hfirst hlast ⊢
      simp only [List.flatMap_nil, List.length_nil] at hlength
      unfold loclistsContributionFrom
      simp only [throw_bind]
      rw [if_neg (by omega), loclistsContributionAt_eq h, ok_bind, if_pos ⟨hfirst, hlast⟩]
      exact ⟨_, rfl, rfl⟩
  | cons first before ih =>
    cases room with
    | zero => omega
    | succ room =>
      have hpos := first.length_bytes
      rw [List.flatMap_cons, List.append_assoc] at h
      simp only [List.flatMap_cons, List.length_append, List.length_cons] at hlength hroom hfirst hlast ⊢
      have hrest := h.append
      obtain ⟨found, hfound, hfinish⟩ : ∃ found, loclistsContributionFrom bytes wanted room
          (start + first.bytes.length) = .ok found ∧ _ :=
        ih hrest (by omega) (by omega) (by omega) (by omega)
      refine ⟨found, ?_, by omega⟩
      unfold loclistsContributionFrom
      simp only [throw_bind]
      rw [if_neg (by omega), loclistsContributionAt_eq h, ok_bind, if_neg (by simp only; omega),
        if_neg (by simp only; omega)]
      exact hfound

theorem activeDwarf5LocationExpression_comesTo {locationLists encoded : List Byte}
    {offset pc initialBase : Word} {items : List LocationListItem}
    (hencoded : ListBytes Dwarf5Item dwarf5End items encoded)
    (hplaced : Dwarf5Placed locationLists encoded offset) :
    ComesTo dwarf5Texts (activeDwarf5LocationExpression locationLists offset pc initialBase)
      (selectLocation pc initialBase items) := by
  obtain ⟨before, contribution, inner, trailing, after, hbytes, hlists, hoffset⟩ := hplaced.placed
  have hcontribution : Remaining locationLists locationLists.length 0
      (before.flatMap ListContribution.bytes ++ (contribution.bytes ++ after)) :=
    hbytes ▸ Remaining.start locationLists
  have hheader := contribution.length_header
  have hcontributions := length_le_contributions before
  have htotal := hcontribution.length_eq
  have hsize : contribution.bytes.length =
      contribution.header.length + (inner.length + (encoded.length + trailing.length)) := by
    rw [ListContribution.bytes, hlists]
    simp only [List.length_append]
  have hlt := hencoded.length_lt (readsItems_dwarf5 locationLists 0)
  simp only [List.length_append] at htotal
  obtain ⟨found, hfound, hfinish⟩ : ∃ found, loclistsContributionFrom locationLists offset.toNat
      locationLists.length 0 = .ok found ∧ _ :=
    loclistsContributionFrom_eq hcontribution (by omega) (by omega) (by omega)
  have hreads := readsItems_dwarf5 locationLists found.finish
  have hlist : Remaining locationLists found.finish offset.toNat (encoded ++ trailing) := by
    have hwithin := Remaining.within
      (before.flatMap ListContribution.bytes ++ (contribution.header ++ inner))
      (encoded ++ trailing) after
    have hsplit : locationLists =
        (before.flatMap ListContribution.bytes ++ (contribution.header ++ inner)) ++
          ((encoded ++ trailing) ++ after) := by
      rw [hbytes, ListContribution.bytes, hlists]
      simp only [List.append_assoc]
    rw [← hsplit] at hwithin
    simp only [List.length_append] at hwithin
    have hstop : found.finish = (before.flatMap ListContribution.bytes).length +
        (contribution.header.length + inner.length) + (encoded.length + trailing.length) := by
      omega
    have hstart : offset.toNat = (before.flatMap ListContribution.bytes).length +
        (contribution.header.length + inner.length) := by
      omega
    rw [hstop, hstart]
    exact hwithin
  unfold activeDwarf5LocationExpression activeDwarf5Location
  rw [hfound, ok_bind]
  exact walkLocations_comesTo hreads hencoded (by omega) hlist

/-- Every list has an encoding of either version. -/
theorem exists_listBytes {Item : LocationListItem → List Byte → Prop}
    (hitem : ∀ item, ∃ encoded, Item item encoded) (stop : List Byte)
    (items : List LocationListItem) : ∃ encoded, ListBytes Item stop items encoded := by
  induction items with
  | nil => exact ⟨stop, .stop⟩
  | cons item items ih =>
    obtain ⟨first, hfirst⟩ := hitem item
    obtain ⟨rest, hrest⟩ := ih
    exact ⟨first ++ rest, .item hfirst hrest⟩

theorem exists_dwarf4Item (item : LocationListItem) : ∃ encoded, Dwarf4Item item encoded := by
  cases item with
  | base address => exact ⟨_, .base address⟩
  | pair pair => exact ⟨_, .pair pair⟩

theorem exists_dwarf5Item (item : LocationListItem) : ∃ encoded, Dwarf5Item item encoded := by
  cases item with
  | base address => exact ⟨_, .base address⟩
  | pair pair =>
    refine ⟨_, .pair pair (.ofWord pair.first) (.ofWord pair.last)
      (.ofWord (BitVec.ofNat 64 pair.expression.length)) (UnsignedOperand.value_ofWord _)
      (UnsignedOperand.value_ofWord _) ?_⟩
    have := pair.length_le
    rw [UnsignedOperand.value_ofWord, BitVec.toNat_ofNat]
    omega

/-! ## The readers terminate -/

/-- A round of the loop over a list. -/
def walkRound (item : Word → Parse LocationItem) (limit : Nat) (pc : Word) (state : Nat × Word) :
    Round (Nat × Word) (Except Exception LocationEntry) :=
  if limit ≤ state.1 then
    .stop (throw (.runtimeError "local value has no location for the current PC"))
  else
    match item state.2 state.1 with
    | .error e => .stop (.error e)
    | .ok (.stop, _) =>
      .stop (throw (.runtimeError "local value has no location for the current PC"))
    | .ok (.base address, next) => .again (next, address)
    | .ok (.entry entry, next) =>
      if entry.covers pc then .stop (.ok entry) else .again (next, state.2)

/-- A round of the loop over the contributions. -/
def contributionRound (bytes : List Byte) (wanted start : Nat) :
    Round Nat (Except Exception LoclistsContribution) :=
  if bytes.length ≤ start then
    .stop (throw (.runtimeError "DWARF5 location-list offset is outside all contributions"))
  else
    match loclistsContributionAt bytes start with
    | .error e => .stop (.error e)
    | .ok contribution =>
      if contribution.offsetsBase ≤ wanted ∧ wanted < contribution.finish then
        .stop (.ok contribution)
      else if contribution.finish ≤ start then
        .stop (throw (.runtimeError ".debug_loclists parser did not advance"))
      else .again contribution.finish

theorem walkLocations_ends {item : Word → Parse LocationItem} {limit : Nat} (pc : Word)
    (hforward : ∀ {base : Word} {cursor next : Nat} {found : LocationItem},
      item base cursor = .ok (found, next) → cursor < next)
    (room cursor : Nat) (base : Word) (hroom : limit - cursor ≤ room) :
    Loop.Ends (walkRound item limit pc) (cursor, base)
      (walkLocations item limit pc room cursor base) := by
  induction room generalizing cursor base with
  | zero =>
    refine .stop ?_
    unfold walkRound
    rw [if_pos (by simp only; omega)]
    rfl
  | succ room ih =>
    unfold walkLocations
    by_cases hlimit : limit ≤ cursor
    · rw [if_pos hlimit]
      refine .stop ?_
      unfold walkRound
      rw [if_pos hlimit]
    · rw [if_neg hlimit]
      have hround : walkRound item limit pc (cursor, base) =
          match item base cursor with
          | .error e => .stop (.error e)
          | .ok (.stop, _) =>
            .stop (throw (.runtimeError "local value has no location for the current PC"))
          | .ok (.base address, next) => .again (next, address)
          | .ok (.entry entry, next) =>
            if entry.covers pc then .stop (.ok entry) else .again (next, base) := by
        unfold walkRound
        rw [if_neg hlimit]
      cases hitem : item base cursor with
      | error e =>
        rw [hitem] at hround
        exact .stop hround
      | ok result =>
        obtain ⟨found, next⟩ := result
        have hnext := hforward hitem
        rw [hitem] at hround
        cases found with
        | stop => exact .stop hround
        | base address => exact .again hround (ih next address (by omega))
        | entry entry =>
          simp only [ok_bind]
          by_cases hcovers : entry.covers pc = true
          · rw [if_pos hcovers]
            simp only [if_pos hcovers] at hround
            exact .stop hround
          · rw [if_neg hcovers]
            simp only [if_neg hcovers] at hround
            exact .again hround (ih next base (by omega))

theorem loclistsContributionFrom_ends {bytes : List Byte} {wanted : Nat} (room start : Nat)
    (hroom : bytes.length - start ≤ room) :
    Loop.Ends (contributionRound bytes wanted) start
      (loclistsContributionFrom bytes wanted room start) := by
  induction room generalizing start with
  | zero =>
    refine .stop ?_
    unfold contributionRound
    rw [if_pos (by omega)]
    rfl
  | succ room ih =>
    unfold loclistsContributionFrom
    simp only [throw_bind]
    by_cases hlimit : bytes.length ≤ start
    · rw [if_pos hlimit]
      refine .stop ?_
      unfold contributionRound
      rw [if_pos hlimit]
    · rw [if_neg hlimit]
      have hround : contributionRound bytes wanted start =
          match loclistsContributionAt bytes start with
          | .error e => .stop (.error e)
          | .ok contribution =>
            if contribution.offsetsBase ≤ wanted ∧ wanted < contribution.finish then
              .stop (.ok contribution)
            else if contribution.finish ≤ start then
              .stop (throw (.runtimeError ".debug_loclists parser did not advance"))
            else .again contribution.finish := by
        unfold contributionRound
        rw [if_neg hlimit]
      cases hcontribution : loclistsContributionAt bytes start with
      | error e =>
        rw [hcontribution] at hround
        exact .stop hround
      | ok contribution =>
        rw [hcontribution] at hround
        simp only [ok_bind]
        split
        next hfound =>
          simp only [if_pos hfound] at hround
          exact .stop hround
        next hfound =>
          simp only [if_neg hfound] at hround
          split
          next hstuck =>
            simp only [if_pos hstuck] at hround
            exact .stop hround
          next hstuck =>
            simp only [if_neg hstuck] at hround
            exact .again hround (ih _ (by omega))

section Forward

variable {bytes : List Byte} {limit size cursor next : Nat} {what : String}

theorem readDwarfScalar_next {value : Nat}
    (h : readDwarfScalar bytes limit size what cursor = .ok (value, next)) :
    next = cursor + size := by
  unfold readDwarfScalar at h
  split at h
  · cases h
  · obtain ⟨_, _, hnext⟩ := bind_eq_ok.mp h
    cases hnext
    rfl

theorem forward_readDwarfScalar : Forward (readDwarfScalar bytes limit size what) := by
  intro cursor value next h
  have := readDwarfScalar_next h
  omega

theorem forward_readDwarfUleb : Forward (readDwarfUleb bytes limit what) := by
  intro cursor value next h
  obtain ⟨digits, _, _, _, hnext⟩ := (readUleb_eq_ok (.debugInfo what)).mp h
  omega

/-- The end of both readers of items: an expression of the given length is passed. -/
theorem forward_passExpression {length : Nat} {past : Exception}
    {entry : Nat → Except Exception LocationItem} :
    Forward (do
      let cursor ← get
      if limit - cursor < length then throw past
      let item ← liftM (entry cursor)
      set (cursor + length)
      return item : Parse LocationItem) := by
  intro cursor item next h
  rw [get_bind] at h
  split at h
  · cases h
  · cases hentry : entry cursor with
    | error e =>
      rw [hentry] at h
      cases h
    | ok found =>
      rw [hentry] at h
      cases h
      omega

theorem dwarf4LocationItem_next {base : Word} {found : LocationItem}
    (h : dwarf4LocationItem bytes base cursor = .ok (found, next)) : cursor < next := by
  obtain ⟨first, middle, hfirst, hrest⟩ := bind_ok h
  have hmiddle := readDwarfScalar_next hfirst
  have hforward : middle ≤ next := by
    refine forward_bind forward_readDwarfScalar (fun last => ?_) hrest
    refine forward_ite (forward_pure _) (forward_ite (forward_pure _) ?_)
    exact forward_bind forward_readDwarfScalar fun length => forward_passExpression
  omega

theorem dwarf5LocationItem_next {base : Word} {found : LocationItem}
    (h : dwarf5LocationItem bytes limit base cursor = .ok (found, next)) : cursor < next := by
  obtain ⟨entry, middle, hentry, hrest⟩ := bind_ok h
  have hmiddle := readDwarfScalar_next hentry
  have hforward : middle ≤ next := by
    refine forward_ite (forward_pure _) (forward_ite ?_ (forward_ite ?_ ?_)) hrest
    · exact forward_bind forward_readDwarfScalar fun address => forward_pure _
    · exact forward_bind (forward_throw _) fun _ => forward_bind forward_readDwarfUleb fun _ =>
        forward_bind forward_readDwarfUleb fun _ => forward_bind forward_readDwarfUleb fun _ =>
          forward_passExpression
    · exact forward_bind forward_readDwarfUleb fun _ => forward_bind forward_readDwarfUleb fun _ =>
        forward_bind forward_readDwarfUleb fun _ => forward_passExpression
  omega

end Forward

/-- Both readers find what a list selects, and both end on any bytes. -/
structure ReadsLocationLists : Prop where
  encodings : ∀ items, (∃ encoded, ListBytes Dwarf4Item dwarf4End items encoded) ∧
    ∃ encoded, ListBytes Dwarf5Item dwarf5End items encoded
  agree : ∀ {items : List LocationListItem} {encoded encoded' locations locationLists : List Byte}
      {offset offset' : Word},
    ListBytes Dwarf4Item dwarf4End items encoded → Dwarf4Placed locations encoded offset →
    ListBytes Dwarf5Item dwarf5End items encoded' → Dwarf5Placed locationLists encoded' offset' →
    ∀ initialBase pc : Word,
      ComesTo dwarf4Texts (activeDwarf4LocationExpression locations offset pc initialBase)
        (selectLocation pc initialBase items) ∧
      ComesTo dwarf5Texts (activeDwarf5LocationExpression locationLists offset' pc initialBase)
        (selectLocation pc initialBase items)
  dwarf4_ends : ∀ (bytes : List Byte) (offset pc initialBase : Word),
    Loop.Ends (walkRound (dwarf4LocationItem bytes) bytes.length pc) (offset.toNat, initialBase)
      (walkLocations (dwarf4LocationItem bytes) bytes.length pc (bytes.length - offset.toNat)
        offset.toNat initialBase)
  contributions_end : ∀ (bytes : List Byte) (offset : Word),
    Loop.Ends (contributionRound bytes offset.toNat) 0
      (loclistsContributionFrom bytes offset.toNat bytes.length 0)
  dwarf5_ends : ∀ (bytes : List Byte) (limit : Nat) (offset pc initialBase : Word),
    Loop.Ends (walkRound (dwarf5LocationItem bytes limit) limit pc) (offset.toNat, initialBase)
      (walkLocations (dwarf5LocationItem bytes limit) limit pc (limit - offset.toNat)
        offset.toNat initialBase)

theorem reads_location_lists : ReadsLocationLists where
  encodings items :=
    ⟨exists_listBytes exists_dwarf4Item _ items, exists_listBytes exists_dwarf5Item _ items⟩
  agree hencoded hplaced hencoded' hplaced' _ _ :=
    ⟨activeDwarf4LocationExpression_comesTo hencoded hplaced,
      activeDwarf5LocationExpression_comesTo hencoded' hplaced'⟩
  dwarf4_ends _ _ pc _ := walkLocations_ends pc dwarf4LocationItem_next _ _ _ (le_refl _)
  contributions_end _ _ := loclistsContributionFrom_ends _ _ (Nat.sub_le _ _)
  dwarf5_ends _ _ _ pc _ := walkLocations_ends pc dwarf5LocationItem_next _ _ _ (le_refl _)

end MiniDebugger
